import Mustache.Decimal.Shortest
import Mustache.Decimal.Literal
import Mustache.Entries
import Mustache.Error
import Mustache.Text.Blank

/-! The data that templates render: scalars, lists, maps that keep the order of their keys, and
lambdas. A lambda is a handle; what it does is kept apart from the data. -/
namespace Mustache

/-- Where a lambda is meant to stand: for a value, around a section's text, or after a value. -/
inductive LambdaShape
  | interpolation
  | enclosing
  | filter
  deriving DecidableEq, Repr

structure Lambda where
  shape : LambdaShape
  id : Nat
  deriving DecidableEq, Repr

inductive Value
  | null
  | bool (b : Bool)
  | integer (n : Int64)
  | float (x : Binary64)
  | string (s : String)
  | list (items : List Value)
  | map (entries : List (String × Value))
  | lambda (handle : Lambda)

namespace Value

instance : Inhabited Value := ⟨null⟩

def typeName : Value → String
  | null => "none"
  | bool _ => "bool"
  | integer _ => "integer"
  | float _ => "float"
  | string _ => "string"
  | list _ => "list"
  | map _ => "map"
  | lambda _ => "lambda"

/-- Empty values skip a section and render an inverted one. -/
def isEmpty : Value → Bool
  | null => true
  | bool b => !b
  | integer n => n == 0
  | float x => x.isZero
  | string s => s.isEmpty
  | list items => items.isEmpty
  | map entries => entries.isEmpty
  | lambda _ => false

def text? (v : Value) : Except Cause String :=
  match v with
  | null => .ok ""
  | bool b => .ok (if b then "true" else "false")
  | integer n => .ok (toString n.toInt)
  | float x => .ok x.text
  | string s => .ok s
  | list _ | map _ | lambda _ => .error (.notRenderable v.typeName)

/-- A position in a list: digits, after a plus sign or none, of a number below two to the 64. -/
def position? (name : List Char) : Option Nat :=
  let digits := if name.head? = some '+' then name.tail else name
  let position := Literal.digitsValue digits
  if digits ≠ [] ∧ digits.all Char.isDigit ∧ position < 0x10000000000000000 then some position else none

/-- A map's entry or a list's element. -/
def index? (v : Value) (name : String) : Option Value :=
  match v with
  | map entries => Entries.get? name entries
  | list items => (position? name.toList).bind (items[·]?)
  | _ => none

def path? (v : Value) : List String → Option Value
  | [] => some v
  | name :: rest => (v.index? name).bind (path? · rest)

/-- Whether the keys are the numbers from zero in order. -/
def isDense (entries : List (String × Value)) : Bool :=
  (Entries.keys entries) == (List.range entries.length).map toString

/-- What a section renders its body with, once for each: the elements of a list or of a map that
is numbered like one, or else the value itself. -/
def frames : Value → List Value
  | list items => items
  | map entries => if isDense entries then entries.map (·.2) else [map entries]
  | v => [v]

/-- The lambda that a value calls. Unless only lambdas count, a map and the name of one of its
lambdas, as a list, calls that lambda. -/
def callable? (strict : Bool) : Value → Option Lambda
  | lambda handle => some handle
  | list [map entries, string name] =>
    if strict then none
    else match Entries.get? name entries with
      | some (lambda handle) => some handle
      | _ => none
  | _ => none

/-- A size, as a float if it is not in the range of the integers. -/
def ofSize (n : Nat) : Value :=
  if n < 0x8000000000000000 then integer (Int64.ofNat n) else float (.ofNat n)

def ofInt (n : Int) : Value := integer (Int64.ofInt n)

/-- A map whose keys are in the order of their bytes, which is that of their code points. -/
def sortedMap (entries : List (String × Value)) : Value :=
  map ((Entries.ofList entries).mergeSort fun a b => !decide (b.1 < a.1))

mutual

/-- Equality of data: the order of a map's entries does not count, what is not a number differs
from itself, and lambdas are equal if they are the same. -/
def equal : Value → Value → Bool
  | null, null => true
  | bool a, bool b => a == b
  | integer m, integer n => m == n
  | float x, float y => x.equal y
  | string s, string t => s == t
  | list xs, list ys => equalItems xs ys
  | map xs, map ys => xs.length == ys.length && equalEntries xs ys
  | lambda f, lambda g => f == g
  | _, _ => false
  termination_by structural v => v

def equalItems : List Value → List Value → Bool
  | [], [] => true
  | x :: xs, y :: ys => equal x y && equalItems xs ys
  | _, _ => false
  termination_by structural items => items

/-- Each entry of the first is in the second with an equal value. -/
def equalEntries : List (String × Value) → List (String × Value) → Bool
  | [], _ => true
  | (key, v) :: rest, ys =>
    (match Entries.get? key ys with
      | some w => equal v w
      | none => false) && equalEntries rest ys
  termination_by structural entries => entries

end

end Value
end Mustache
