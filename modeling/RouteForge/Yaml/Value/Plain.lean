import RouteForge.Yaml.Fault
import RouteForge.Yaml.Token.Scalar
import RouteForge.Yaml.Value

/-! What a plain scalar stands for: null, a truth value, an integer, a float, or else its own
text. Integers that need more than 64 bits but no more than 128 are refused; larger ones are
floats. A superfluous leading zero makes digits a text. -/
namespace RouteForge.Yaml.Plain

open RouteForge.Number

def isNull (cs : List Char) : Bool :=
  ["null", "Null", "NULL", "~"].contains (String.ofList cs)

def bool? (cs : List Char) : Option Bool :=
  if ["true", "True", "TRUE"].contains (String.ofList cs) then some true
  else if ["false", "False", "FALSE"].contains (String.ofList cs) then some false
  else none

def digit? (radix : Nat) (c : Char) : Option Nat := (Scalar.hexValue? c).filter (· < radix)

/-- A number written in the radix with at least one digit and nothing else. -/
def natural? (radix : Nat) (cs : List Char) : Option Nat :=
  if cs.isEmpty then none
  else cs.foldl (fun n c => do return (← n) * radix + (← digit? radix c)) (some 0)

/-- Digits that start with a zero and do not end there, a sign in front not counted. -/
def hasLeadingZero (cs : List Char) : Bool :=
  let digits := match cs with
    | '-' :: rest | '+' :: rest => rest
    | _ => cs
  digits.length > 1 && digits.head? == some '0' && digits.all Char.isDigit

/-- A number without a sign: decimal, or in the radix that its first two characters name. -/
def magnitude? : List Char → Option Nat
  | '0' :: 'x' :: rest => natural? 16 rest
  | '0' :: 'o' :: rest => natural? 8 rest
  | '0' :: 'b' :: rest => natural? 2 rest
  | cs => if hasLeadingZero cs then none else natural? 10 cs

/-- The number that the characters of an integer spell, whatever its size. -/
def integer? : List Char → Option Int
  | '-' :: cs => (magnitude? cs).map fun n => -(n : Int)
  | '+' :: cs => (magnitude? cs).map Int.ofNat
  | cs => (magnitude? cs).map Int.ofNat

/-- The parts of a decimal: digits with the point left out, and the power of ten. -/
def decimal? (cs : List Char) : Option (Nat × Int) :=
  let whole := cs.takeWhile Char.isDigit
  let rest := cs.dropWhile Char.isDigit
  let (fraction, rest) := match rest with
    | '.' :: rest => (rest.takeWhile Char.isDigit, rest.dropWhile Char.isDigit)
    | _ => ([], rest)
  match natural? 10 (whole ++ fraction) with
  | none => none
  | some digits =>
    let scale : Int := -(fraction.length : Int)
    match rest with
    | [] => some (digits, scale)
    | e :: rest =>
      if e = 'e' ∨ e = 'E' then
        match rest with
        | '-' :: rest => (natural? 10 rest).map fun n => (digits, scale - n)
        | '+' :: rest => (natural? 10 rest).map fun n => (digits, scale + n)
        | _ => (natural? 10 rest).map fun n => (digits, scale + n)
      else none

def isInfinityWord (cs : List Char) : Bool := [".inf", ".Inf", ".INF"].contains (String.ofList cs)

def isNaNWord (cs : List Char) : Bool := [".nan", ".NaN", ".NAN"].contains (String.ofList cs)

/-- The magnitude of a float; a decimal too large to be finite is none. -/
def unsignedFloat? (negative : Bool) (cs : List Char) : Option Binary64 :=
  if isInfinityWord cs then some (.infinity negative)
  else
    match decimal? cs with
    | some (digits, scale) =>
      let x := Binary64.ofDecimal negative digits scale
      if x.isFinite then some x else none
    | none => none

def float? (cs : List Char) : Option Binary64 :=
  if isNaNWord cs then some .nan
  else match cs with
    | '-' :: rest => unsignedFloat? true rest
    | '+' :: rest => unsignedFloat? false rest
    | _ => unsignedFloat? false cs

/-- How an integer is held: in 64 bits, not at all, or it is none because it is too large. -/
inductive Size where
  | fits
  | refused
  | tooLarge
  deriving DecidableEq

def size (n : Int) : Size :=
  if -0x8000000000000000 ≤ n ∧ n < 0x10000000000000000 then .fits
  else if -0x80000000000000000000000000000000 ≤ n ∧ n < 0x100000000000000000000000000000000 then
    .refused
  else .tooLarge

/-- The integer of a scalar, if it is one. -/
def integerValue? (cs : List Char) : Except Problem (Option Int) :=
  match integer? cs with
  | none => .ok none
  | some n => match size n with
    | .fits => .ok (some n)
    | .refused => .error .integerRange
    | .tooLarge => .ok none

def value (s : String) : Except Problem Value := do
  let cs := s.toList
  if cs.isEmpty || isNull cs then return .null
  if let some b := bool? cs then return .bool b
  if let some n ← integerValue? cs then return .number (.integer n)
  if !hasLeadingZero cs then
    if let some x := float? cs then return .number (.float x)
  return .string s

end RouteForge.Yaml.Plain
