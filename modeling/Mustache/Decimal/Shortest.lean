import Mustache.Decimal.Binary64

/-! The text of a number: the fewest digits that read back as the same number, of those the
nearest, a tie going away from zero, written without an exponent. -/
namespace Mustache.Binary64

structure Decimal where
  digits : Nat
  exponent : Int
  deriving DecidableEq

namespace Finite

/-- The magnitude, and the ends of the interval that rounds to it, in units of a quarter of the
last place. Below a power of two the places are half as large. -/
structure Interval where
  low : Nat
  value : Nat
  high : Nat
  closed : Bool

def interval (x : Finite) : Interval :=
  let m := x.significand
  let narrow := x.fraction.val = 0 ∧ 1 < x.exponent.val
  ⟨if narrow then 4 * m - 1 else 4 * m - 2, 4 * m, 4 * m + 2, m % 2 = 0⟩

/-- A quarter of the last place, as a quotient. -/
def unit (x : Finite) : Nat × Nat :=
  if 1077 ≤ x.scale then (Nat.pow 2 (x.scale - 1077), 1) else (1, Nat.pow 2 (1077 - x.scale))

end Finite

/-- Whether `count` units of `10 ^ grid` lie in an interval of units of `numerator / denominator`. -/
def Finite.Interval.holds (i : Finite.Interval) (scaled : Nat → Nat) (point : Nat) : Bool :=
  if i.closed then scaled i.low ≤ point && point ≤ scaled i.high
  else scaled i.low < point && point < scaled i.high

/-- The nearest point of a decimal grid among the two neighbours that lie in the interval. -/
def Finite.onGrid (x : Finite) (grid : Int) : Option Nat :=
  let i := x.interval
  let (numerator, denominator) := x.unit
  let scaled (n : Nat) : Nat := n * numerator * Nat.pow 10 (-grid).toNat
  let step := denominator * Nat.pow 10 grid.toNat
  let below := scaled i.value / step
  let lowHit := i.holds scaled (below * step)
  let highHit := i.holds scaled ((below + 1) * step)
  if lowHit && highHit then
    some (if scaled i.value - below * step < (below + 1) * step - scaled i.value then below
      else below + 1)
  else if lowHit then some below
  else if highHit then some (below + 1)
  else none

/-- The exponent of the first decimal place above the magnitude. -/
def Finite.topPlace (x : Finite) : Int :=
  let (numerator, denominator) := x.unit
  let value := 4 * x.significand * numerator
  if denominator ≤ value then (Nat.toDigits 10 (value / denominator)).length
  else
    -- One digit less than the integer part of the reciprocal has.
    1 - ((Nat.toDigits 10 (denominator / value)).length : Int)

def Finite.search (x : Finite) : Nat → Int → Decimal
  | 0, grid => ⟨(x.onGrid grid).getD 0, grid⟩
  | more + 1, grid =>
    match x.onGrid grid with
    | some digits => ⟨digits, grid⟩
    | none => x.search more (grid - 1)

/-- The shortest decimal that reads back as the number. Seventeen digits always do; one place more
is left for a magnitude just below the place it is measured from. -/
def Finite.shortest (x : Finite) : Decimal :=
  x.search 18 x.topPlace

/-- The digits in positional notation, without superfluous zeros after the point. -/
def Decimal.positional (d : Decimal) : List Char :=
  let digits := Nat.toDigits 10 d.digits
  if 0 ≤ d.exponent then
    if d.digits = 0 then digits else digits ++ List.replicate d.exponent.toNat '0'
  else
    let places := (-d.exponent).toNat
    let digits := List.replicate (places + 1 - digits.length) '0' ++ digits
    let whole := digits.take (digits.length - places)
    let rest := ((digits.drop (digits.length - places)).reverse.dropWhile (· == '0')).reverse
    if rest.isEmpty then whole else whole ++ '.' :: rest

def text : Binary64 → String
  | nan => "NaN"
  | infinity negative => if negative then "-inf" else "inf"
  | finite x =>
    let digits := if x.isZero then ['0'] else x.shortest.positional
    .ofList (if x.negative then '-' :: digits else digits)

end Mustache.Binary64
