/-! Binary floating-point numbers of 64 bits: a sign, an exponent field and 52 fraction bits, two
infinities, and one value for everything that is not a number. -/
namespace Mustache

/-- Two to the power 52, the number of fractions. -/
abbrev Binary64.fractions : Nat := 0x10000000000000

structure Binary64.Finite where
  negative : Bool
  exponent : Fin 2047
  fraction : Fin Binary64.fractions
  deriving DecidableEq

inductive Binary64
  | nan
  | infinity (negative : Bool)
  | finite (number : Binary64.Finite)
  deriving DecidableEq

namespace Binary64

instance : Inhabited Binary64 := ⟨.nan⟩

/-- The magnitude is `significand * 2 ^ (scale - 1075)`. -/
def Finite.significand (x : Finite) : Nat :=
  if x.exponent.val = 0 then x.fraction.val else fractions + x.fraction.val

def Finite.scale (x : Finite) : Nat :=
  max 1 x.exponent.val

def Finite.isZero (x : Finite) : Bool :=
  x.exponent.val == 0 && x.fraction.val == 0

def isFinite : Binary64 → Bool
  | finite _ => true
  | _ => false

def isZero : Binary64 → Bool
  | finite x => x.isZero
  | _ => false

/-- Numeric equality: the zeros are equal, and what is not a number equals nothing. -/
def equal : Binary64 → Binary64 → Bool
  | finite x, finite y => x = y || (x.isZero && y.isZero)
  | infinity s, infinity t => s == t
  | _, _ => false

/-- The number with the given significand, less than `2 ^ 53`, and scale; one that is too large
becomes an infinity. -/
def ofScaled (negative : Bool) (significand scale : Nat) : Binary64 :=
  let exponent := if significand < fractions then 0 else scale
  if h : exponent < 2047 then
    .finite ⟨negative, ⟨exponent, h⟩, Fin.ofNat fractions significand⟩
  else .infinity negative

/-- Rounds a quotient to the nearest integer, a half to the even one. -/
def roundHalfEven (numerator denominator : Nat) : Nat :=
  let quotient := numerator / denominator
  let twice := 2 * (numerator % denominator)
  if twice < denominator then quotient
  else if denominator < twice then quotient + 1
  else quotient + quotient % 2

/-- The nearest number to a quotient, of two the one with an even significand. -/
def ofRatio (negative : Bool) (numerator denominator : Nat) : Binary64 :=
  let scaled (scale : Nat) : Nat × Nat :=
    if scale ≤ 1075 then (numerator * Nat.pow 2 (1075 - scale), denominator)
    else (numerator, denominator * Nat.pow 2 (scale - 1075))
  let low := max 1 (numerator.log2 + 1022 - denominator.log2)
  let scale := if (scaled low).1 / (scaled low).2 < 2 * fractions then low else low + 1
  let significand := roundHalfEven (scaled scale).1 (scaled scale).2
  if significand = 2 * fractions then ofScaled negative fractions (scale + 1)
  else ofScaled negative significand scale

def ofNat (n : Nat) : Binary64 :=
  ofRatio false n 1

/-- The nearest number to `digits * 10 ^ exponent`. -/
def ofDecimal (negative : Bool) (digits : Nat) (exponent : Int) : Binary64 :=
  let magnitude := digits.log2 + 4 * exponent
  if digits = 0 then ofScaled negative 0 1
  else if 5000 < magnitude then .infinity negative
  else if magnitude < -5000 then ofScaled negative 0 1
  else if 0 ≤ exponent then ofRatio negative (digits * Nat.pow 10 exponent.toNat) 1
  else ofRatio negative digits (Nat.pow 10 (-exponent).toNat)

def double : Binary64 → Binary64
  | finite x =>
    if x.exponent.val = 0 then ofScaled x.negative (2 * x.significand) 1
    else ofScaled x.negative x.significand (x.exponent.val + 1)
  | x => x

end Binary64
end Mustache
