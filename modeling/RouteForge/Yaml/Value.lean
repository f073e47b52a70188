import RouteForge.Number.Shortest

/-! The values that a YAML text can hold. A mapping keeps the order of its entries, which equality
ignores, and no two of its keys are equal. -/
namespace RouteForge.Yaml

open RouteForge.Number

inductive Number where
  | integer (n : Int)
  | float (x : Binary64)
  deriving DecidableEq, Repr

/-- An integer never equals a float. -/
def Number.same : Number → Number → Bool
  | .integer m, .integer n => m == n
  | .float x, .float y => x.same y
  | _, _ => false

def Number.text : Number → String
  | .integer n => toString n
  | .float x => String.ofList x.text

inductive Value where
  | null
  | bool (b : Bool)
  | number (n : Number)
  | string (s : String)
  | sequence (items : List Value)
  | mapping (entries : List (Value × Value))
  | tagged (tag : String) (content : Value)
  deriving Repr, Inhabited

namespace Value

mutual

def decEq : (a b : Value) → Decidable (a = b)
  | .null, .null => isTrue rfl
  | .bool a, .bool b => if h : a = b then isTrue (by rw [h]) else isFalse (by simp [h])
  | .number m, .number n => if h : m = n then isTrue (by rw [h]) else isFalse (by simp [h])
  | .string s, .string t => if h : s = t then isTrue (by rw [h]) else isFalse (by simp [h])
  | .sequence xs, .sequence ys =>
    match itemsDecEq xs ys with
    | isTrue h => isTrue (by rw [h])
    | isFalse h => isFalse (by simp [h])
  | .mapping xs, .mapping ys =>
    match entriesDecEq xs ys with
    | isTrue h => isTrue (by rw [h])
    | isFalse h => isFalse (by simp [h])
  | .tagged t a, .tagged u b =>
    if h : t = u then
      match decEq a b with
      | isTrue k => isTrue (by rw [h, k])
      | isFalse k => isFalse (by simp [k])
    else isFalse (by simp [h])
  | .null, .bool _ | .null, .number _ | .null, .string _ | .null, .sequence _ | .null, .mapping _
  | .null, .tagged .. | .bool _, .null | .bool _, .number _ | .bool _, .string _
  | .bool _, .sequence _ | .bool _, .mapping _ | .bool _, .tagged .. | .number _, .null
  | .number _, .bool _ | .number _, .string _ | .number _, .sequence _ | .number _, .mapping _
  | .number _, .tagged .. | .string _, .null | .string _, .bool _ | .string _, .number _
  | .string _, .sequence _ | .string _, .mapping _ | .string _, .tagged .. | .sequence _, .null
  | .sequence _, .bool _ | .sequence _, .number _ | .sequence _, .string _
  | .sequence _, .mapping _ | .sequence _, .tagged .. | .mapping _, .null | .mapping _, .bool _
  | .mapping _, .number _ | .mapping _, .string _ | .mapping _, .sequence _
  | .mapping _, .tagged .. | .tagged .., .null | .tagged .., .bool _ | .tagged .., .number _
  | .tagged .., .string _ | .tagged .., .sequence _ | .tagged .., .mapping _ => isFalse nofun

def itemsDecEq : (xs ys : List Value) → Decidable (xs = ys)
  | [], [] => isTrue rfl
  | x :: xs, y :: ys =>
    match decEq x y, itemsDecEq xs ys with
    | isTrue h, isTrue k => isTrue (by rw [h, k])
    | isFalse h, _ => isFalse (by simp [h])
    | _, isFalse k => isFalse (by simp [k])
  | [], _ :: _ | _ :: _, [] => isFalse nofun

def entriesDecEq : (xs ys : List (Value × Value)) → Decidable (xs = ys)
  | [], [] => isTrue rfl
  | (k, x) :: xs, (l, y) :: ys =>
    match decEq k l, decEq x y, entriesDecEq xs ys with
    | isTrue h, isTrue i, isTrue j => isTrue (by rw [h, i, j])
    | isFalse h, _, _ => isFalse (by simp [h])
    | _, isFalse i, _ => isFalse (by simp [i])
    | _, _, isFalse j => isFalse (by simp [j])
  | [], _ :: _ | _ :: _, [] => isFalse nofun

end

instance : DecidableEq Value := decEq

end Value
mutual

/-- Equality of values, for which the order of the entries of a mapping does not matter. -/
def Value.same : Value → Value → Bool
  | .null, .null => true
  | .bool a, .bool b => a == b
  | .number a, .number b => a.same b
  | .string a, .string b => a == b
  | .sequence as, .sequence bs => sameItems as bs
  | .mapping as, .mapping bs => as.length == bs.length && entriesWithin as bs
  | .tagged t a, .tagged u b => t == u && a.same b
  | _, _ => false

def sameItems : List Value → List Value → Bool
  | [], [] => true
  | a :: as, b :: bs => a.same b && sameItems as bs
  | _, _ => false

/-- Every entry has an equal one among the others. -/
def entriesWithin : List (Value × Value) → List (Value × Value) → Bool
  | [], _ => true
  | (k, v) :: rest, bs => bs.any (fun e => k.same e.1 && v.same e.2) && entriesWithin rest bs

end

def boolText (b : Bool) : String := if b then "true" else "false"

end RouteForge.Yaml
