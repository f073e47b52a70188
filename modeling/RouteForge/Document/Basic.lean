import RouteForge.Fields
import RouteForge.Yaml.Value

/-! Configuration documents: scalars, sequences, and mappings whose keys are texts. The fields of
a mapping are ascending in every document that reading or merging yields; `Ordered` says so. -/
namespace RouteForge

open RouteForge.Yaml (Number)

inductive Scalar where
  | null
  | bool (b : Bool)
  | number (n : Number)
  | text (s : String)
  deriving DecidableEq, Repr

inductive Document where
  | scalar (s : Scalar)
  | sequence (items : List Document)
  | mapping (fields : List (String × Document))
  deriving Repr

namespace Document

instance : Inhabited Document := ⟨.mapping []⟩

def empty : Document := .mapping []

/-- The names of the shapes in messages. -/
inductive Kind where
  | null
  | scalar
  | sequence
  | mapping
  deriving DecidableEq, Repr

def Kind.name : Kind → String
  | null => "null"
  | scalar => "scalar"
  | sequence => "sequence"
  | mapping => "mapping"

def kind : Document → Kind
  | .scalar .null => .null
  | .scalar _ => .scalar
  | .sequence _ => .sequence
  | .mapping _ => .mapping

mutual

def decEq : (a b : Document) → Decidable (a = b)
  | .scalar s, .scalar t =>
    if h : s = t then isTrue (by rw [h]) else isFalse (by simp [h])
  | .sequence xs, .sequence ys =>
    match itemsDecEq xs ys with
    | isTrue h => isTrue (by rw [h])
    | isFalse h => isFalse (by simp [h])
  | .mapping xs, .mapping ys =>
    match fieldsDecEq xs ys with
    | isTrue h => isTrue (by rw [h])
    | isFalse h => isFalse (by simp [h])
  | .scalar _, .sequence _ | .scalar _, .mapping _ | .sequence _, .scalar _
  | .sequence _, .mapping _ | .mapping _, .scalar _ | .mapping _, .sequence _ =>
    isFalse (by simp)

def itemsDecEq : (xs ys : List Document) → Decidable (xs = ys)
  | [], [] => isTrue rfl
  | x :: xs, y :: ys =>
    match decEq x y, itemsDecEq xs ys with
    | isTrue h, isTrue k => isTrue (by rw [h, k])
    | isFalse h, _ => isFalse (by simp [h])
    | _, isFalse k => isFalse (by simp [k])
  | [], _ :: _ | _ :: _, [] => isFalse (by simp)

def fieldsDecEq : (xs ys : List (String × Document)) → Decidable (xs = ys)
  | [], [] => isTrue rfl
  | (k, x) :: xs, (l, y) :: ys =>
    if h : k = l then
      match decEq x y, fieldsDecEq xs ys with
      | isTrue i, isTrue j => isTrue (by rw [h, i, j])
      | isFalse i, _ => isFalse (by simp [i])
      | _, isFalse j => isFalse (by simp [j])
    else isFalse (by simp [h])
  | [], _ :: _ | _ :: _, [] => isFalse (by simp)

end

instance : DecidableEq Document := decEq

mutual

/-- Ascending fields at every depth. -/
def Ordered : Document → Prop
  | .scalar _ => True
  | .sequence items => ItemsOrdered items
  | .mapping fields => Fields.Ascending fields ∧ FieldsOrdered fields

def ItemsOrdered : List Document → Prop
  | [] => True
  | d :: rest => d.Ordered ∧ ItemsOrdered rest

def FieldsOrdered : List (String × Document) → Prop
  | [] => True
  | (_, d) :: rest => d.Ordered ∧ FieldsOrdered rest

end

end Document
end RouteForge
