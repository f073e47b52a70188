/-! Double-precision numbers by their bit patterns. All arithmetic is on natural numbers, so that
rounding a decimal is exact: the nearest representable value, a tie going to the even one. -/
namespace RouteForge.Number

/-- Bit 63 is the sign, bits 62 to 52 the biased exponent, the rest the fraction. -/
structure Binary64 where
  bits : UInt64
  deriving DecidableEq, Repr, Inhabited

namespace Binary64

def negative (x : Binary64) : Bool := x.bits.toNat >>> 63 == 1

def exponentField (x : Binary64) : Nat := (x.bits.toNat >>> 52) % 2048

def fractionField (x : Binary64) : Nat := x.bits.toNat % (1 <<< 52)

def isFinite (x : Binary64) : Bool := x.exponentField != 2047

def isNaN (x : Binary64) : Bool := x.exponentField == 2047 && x.fractionField != 0

/-- The magnitude is `significand * 2 ^ exponent`. -/
def significand (x : Binary64) : Nat :=
  if x.exponentField = 0 then x.fractionField else (1 <<< 52) + x.fractionField

def exponent (x : Binary64) : Int := (max x.exponentField 1 : Nat) - 1075

def isZero (x : Binary64) : Bool := x.bits.toNat % (1 <<< 63) == 0

/-- Equality of values: the two zeros are equal, and the one value without a number equals
itself. -/
def same (x y : Binary64) : Bool :=
  (x.isNaN && y.isNaN) || (!x.isNaN && !y.isNaN && (x.bits == y.bits || (x.isZero && y.isZero)))

def infinity (negative : Bool) : Binary64 :=
  ⟨if negative then 0xfff0000000000000 else 0x7ff0000000000000⟩

def nan : Binary64 := ⟨0x7ff8000000000000⟩

/-- The quotient rounded to the nearest natural number, a half going to the even one. -/
def roundDiv (numerator denominator : Nat) : Nat :=
  let q := numerator / denominator
  let twice := 2 * (numerator % denominator)
  if twice < denominator then q
  else if denominator < twice then q + 1
  else q + q % 2

/-- The exponent of the grid that holds a quotient of this size: at most 53 binary digits, and
none below `2 ^ (-1074)`. -/
def gridExponent (numerator denominator : Nat) : Int :=
  let estimate : Int := (numerator.log2 : Int) - denominator.log2
  let high := if 0 ≤ estimate then denominator <<< estimate.toNat ≤ numerator
    else denominator ≤ numerator <<< (-estimate).toNat
  max ((if high then estimate else estimate - 1) - 52) (-1074)

/-- Rounds a positive quotient; a carry out of the fraction moves the exponent up by itself. -/
def ofQuotient (negative : Bool) (numerator denominator : Nat) : Binary64 :=
  let e := gridExponent numerator denominator
  let m := if 0 ≤ e then roundDiv numerator (denominator <<< e.toNat)
    else roundDiv (numerator <<< (-e).toNat) denominator
  let magnitude := ((e + 1074).toNat <<< 52) + m
  let sign := if negative then 1 <<< 63 else 0
  if 0x7ff0000000000000 ≤ magnitude then infinity negative
  else ⟨UInt64.ofNat (sign + magnitude)⟩

/-- `digits * 10 ^ scale`. A power far outside the range decides by itself, so that the
arithmetic stays small. -/
def ofDecimal (negative : Bool) (digits : Nat) (scale : Int) : Binary64 :=
  let size := (Nat.toDigits 10 digits).length
  if digits = 0 ∨ (size : Int) + scale < -400 then ⟨if negative then 0x8000000000000000 else 0⟩
  else if 400 < (size : Int) + scale then infinity negative
  else if 0 ≤ scale then ofQuotient negative (digits * Nat.pow 10 scale.toNat) 1
  else ofQuotient negative digits (Nat.pow 10 (-scale).toNat)

end Binary64
end RouteForge.Number
