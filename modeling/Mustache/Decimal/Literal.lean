import Mustache.Decimal.Binary64

/-! Decimal literals: a sign, digits with a point among them, and a power of ten. -/
namespace Mustache

structure Literal where
  negative : Bool
  digits : Nat
  exponent : Int
  whole : Bool
  deriving DecidableEq

namespace Literal

def digitsValue (digits : List Char) : Nat :=
  digits.foldl (fun n c => 10 * n + (c.toNat - '0'.toNat)) 0

def sign : List Char → Bool × List Char
  | '-' :: rest => (true, rest)
  | '+' :: rest => (false, rest)
  | rest => (false, rest)

/-- The power of ten that ends a literal. -/
def power? : List Char → Option Int
  | [] => some 0
  | c :: rest =>
    let (negative, digits) := sign rest
    if (c = 'e' ∨ c = 'E') ∧ digits ≠ [] ∧ digits.all Char.isDigit then
      some (if negative then -(digitsValue digits : Int) else digitsValue digits)
    else none

def read? (text : List Char) : Option Literal :=
  let (negative, rest) := sign text
  let front := rest.takeWhile Char.isDigit
  match rest.dropWhile Char.isDigit with
  | [] => if front.isEmpty then none else some ⟨negative, digitsValue front, 0, true⟩
  | c :: rest =>
    let (places, rest) :=
      if c = '.' then (rest.takeWhile Char.isDigit, rest.dropWhile Char.isDigit) else ([], c :: rest)
    if front.isEmpty ∧ places.isEmpty then none
    else (power? rest).map fun power =>
      ⟨negative, digitsValue (front ++ places), power - places.length, false⟩

def number (literal : Literal) : Binary64 :=
  .ofDecimal literal.negative literal.digits literal.exponent

end Literal

/-- Reads a decimal literal, or one of the names of what has no decimal. -/
def Binary64.read? (text : String) : Option Binary64 :=
  match text with
  | "NaN" => some .nan
  | "inf" => some (.infinity false)
  | "-inf" => some (.infinity true)
  | _ => (Literal.read? text.toList).map Literal.number

end Mustache
