import Mustache.Value

/-! Documents are values for interchange: no lambdas, numbers that are finite, and whole numbers
told apart by sign. Data of another program reaches a template by way of a document. -/
namespace Mustache

inductive Document.Number
  | natural (n : UInt64)
  | negative (n : Int64)
  | real (x : Binary64.Finite)
  deriving DecidableEq

inductive Document
  | null
  | bool (b : Bool)
  | number (n : Document.Number)
  | string (s : String)
  | array (items : List Document)
  | object (entries : List (String × Document))

namespace Document

/-- A natural number that is no integer value becomes a float. -/
def Number.value : Number → Value
  | natural n => .ofSize n.toNat
  | negative n => .integer n
  | real x => .float (.finite x)

/-- A whole literal is a whole number as far as those go, any other one a real number. -/
def Number.ofLiteral? (literal : Literal) : Option Number :=
  if literal.whole ∧ ¬literal.negative ∧ literal.digits < 0x10000000000000000 then
    some (natural (UInt64.ofNat literal.digits))
  else if literal.whole ∧ literal.negative ∧ 0 < literal.digits ∧ literal.digits ≤ 0x8000000000000000 then
    some (negative (Int64.ofInt (-literal.digits)))
  else match literal.number with
    | .finite x => some (real x)
    | _ => none

mutual

def value : Document → Value
  | null => .null
  | bool b => .bool b
  | number n => n.value
  | string s => .string s
  | array items => .list (values items)
  | object entries => .map (valueEntries entries)
  termination_by structural d => d

def values : List Document → List Value
  | [] => []
  | d :: rest => value d :: values rest
  termination_by structural items => items

def valueEntries : List (String × Document) → List (String × Value)
  | [] => []
  | (key, d) :: rest => (key, value d) :: valueEntries rest
  termination_by structural entries => entries

end

end Document

namespace Value

mutual

/-- The document of a value without lambdas; a float that is not finite has none of its own. -/
def document? : Value → Option Document
  | null => some .null
  | bool b => some (.bool b)
  | integer n =>
    some (.number (if 0 ≤ n then .natural (UInt64.ofNat n.toNatClampNeg) else .negative n))
  | float (.finite x) => some (.number (.real x))
  | float _ => some .null
  | string s => some (.string s)
  | list items => (documents? items).map .array
  | map entries => (documentEntries? entries).map .object
  | lambda _ => none
  termination_by structural v => v

def documents? : List Value → Option (List Document)
  | [] => some []
  | v :: rest => (document? v).bind fun d => (documents? rest).map (d :: ·)
  termination_by structural items => items

def documentEntries? : List (String × Value) → Option (List (String × Document))
  | [] => some []
  | (key, v) :: rest => (document? v).bind fun d => (documentEntries? rest).map ((key, d) :: ·)
  termination_by structural entries => entries

end

/-- The value as it arrives after interchange. -/
def interchanged (v : Value) : Except Error Value :=
  match v.document? with
  | some d => .ok d.value
  | none => .error { cause := .lambdaSerialized }

end Value
end Mustache
