import RouteForge.Number.Binary64

/-! The shortest decimal that reads back as a given double. The reals that round to `m * 2 ^ e`
form an interval around it, closed when `m` is even; the first number of digits whose grid meets
the interval is taken, the nearer of two points wins, and of two equally near ones the even. -/
namespace RouteForge.Number

/-- A decimal `digits * 10 ^ scale`. -/
structure Decimal where
  digits : Nat
  scale : Int
  deriving DecidableEq, Repr

/-- A positive double with its rounding interval, all four over one denominator. -/
structure Interval where
  low : Nat
  value : Nat
  high : Nat
  denominator : Nat
  closed : Bool

/-- A power of two has a neighbour below at half the distance, unless it is the least normal
number. -/
def Binary64.interval (x : Binary64) : Interval :=
  let m := x.significand
  let e := x.exponent
  let below := if m = 1 <<< 52 ∧ x.exponentField ≠ 1 then 1 else 2
  ⟨(4 * m - below) <<< e.toNat, (4 * m) <<< e.toNat, (4 * m + 2) <<< e.toNat, 4 <<< (-e).toNat,
    m % 2 == 0⟩

def Interval.contains (i : Interval) (numerator : Nat) : Bool :=
  if i.closed then i.low ≤ numerator && numerator ≤ i.high
  else i.low < numerator && numerator < i.high

/-- The point of the grid `10 ^ scale` that stands for the interval, if one lies in it. -/
def Interval.onGrid? (i : Interval) (scale : Int) : Option Nat :=
  let unit := Nat.pow 10 scale.toNat * i.denominator
  let fine := Nat.pow 10 (-scale).toNat
  let i : Interval := { i with low := i.low * fine, value := i.value * fine, high := i.high * fine }
  let below := i.value / unit
  let above := below + 1
  match below ≠ 0 && i.contains (below * unit), i.contains (above * unit) with
  | true, true =>
    let down := i.value - below * unit
    let up := above * unit - i.value
    if down < up then some below else if up < down then some above
    else some (below + below % 2)
  | true, false => some below
  | false, true => some above
  | false, false => none

/-- The decimal exponent of the leading digit. -/
def Interval.leading (i : Interval) : Int :=
  if i.denominator ≤ i.value then
    ((Nat.toDigits 10 (i.value / i.denominator)).length : Int) - 1
  else
    let size := (Nat.toDigits 10 (i.denominator / i.value)).length
    if i.denominator ≤ i.value * Nat.pow 10 (size - 1) then 1 - (size : Int) else -(size : Int)

/-- Tries `count` further digits after `tried`; seventeen always suffice. -/
def Interval.shortestFrom (i : Interval) (leading : Int) : Nat → Nat → Decimal
  | 0, tried => ⟨0, leading - tried⟩
  | count + 1, tried =>
    match i.onGrid? (leading - tried) with
    | some digits => ⟨digits, leading - tried⟩
    | none => i.shortestFrom leading count (tried + 1)

/-- Trailing zeros of the digits belong to the scale. -/
def Decimal.normalize : Nat → Decimal → Decimal
  | 0, d => d
  | fuel + 1, d =>
    if d.digits ≠ 0 ∧ d.digits % 10 = 0 then normalize fuel ⟨d.digits / 10, d.scale + 1⟩ else d

/-- Defined for finite numbers other than zero. -/
def Binary64.shortest (x : Binary64) : Decimal :=
  let i := x.interval
  (i.shortestFrom i.leading 18 0).normalize 20

/-- Positional from `1e-5` up to below `1e16`, with at least one digit after the point; else one
digit, the others after the point, and the exponent without a plus sign. -/
def Binary64.text (x : Binary64) : List Char :=
  let sign := if x.negative then ['-'] else []
  if x.isNaN then ".nan".toList
  else if !x.isFinite then sign ++ ".inf".toList
  else if x.isZero then sign ++ "0.0".toList
  else
    let d := x.shortest
    let ds := Nat.toDigits 10 d.digits
    let point := (ds.length : Int) + d.scale
    sign ++
      if 0 ≤ d.scale ∧ point ≤ 16 then ds ++ List.replicate d.scale.toNat '0' ++ ".0".toList
      else if 0 < point ∧ point ≤ 16 then
        ds.take point.toNat ++ '.' :: ds.drop point.toNat
      else if -5 < point ∧ point ≤ 0 then
        "0.".toList ++ List.replicate (-point).toNat '0' ++ ds
      else
        ds.take 1 ++ (if ds.length = 1 then [] else '.' :: ds.drop 1) ++
          'e' :: (toString (point - 1)).toList

end RouteForge.Number
