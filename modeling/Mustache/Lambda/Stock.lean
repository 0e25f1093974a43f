import Mustache.Lambda
import Mustache.Text.Cut

/-! A stock of filters. A filter returns a value of a type that it does not name as it is. -/
namespace Mustache

inductive StockFilter
  | same
  | append (suffix : String)
  | prepend (start : String)
  | upper
  | split (separator : String)
  | double
  | reverse
  | get (key : String)
  | enlist
  | under (key : String)
  | isEmpty
  | type
  | always (v : Value)
  | fail (message : String)

namespace StockFilter

/-- Capitals for the letters of ASCII. -/
def capitals (s : String) : String :=
  .ofList (s.toList.map Char.toUpper)

def answer (filter : StockFilter) (v : Value) : Except Error Value :=
  match filter, v with
  | append suffix, .string s => .ok (.string (s ++ suffix))
  | prepend start, .string s => .ok (.string (start ++ s))
  | upper, .string s => .ok (.string (capitals s))
  | split separator, .string s =>
    .ok (.list ((Text.splitAt separator.toList s.toList).map fun piece => .string (.ofList piece)))
  | double, .integer n => .ok (.integer (n * 2))
  | double, .float x => .ok (.float x.double)
  | reverse, .list items => .ok (.list items.reverse)
  | get key, .map entries => .ok ((Entries.get? key entries).getD .null)
  | get _, _ => .ok .null
  | enlist, v => .ok (.list [v])
  | under key, v => .ok (.map [(key, v)])
  | isEmpty, v => .ok (.bool v.isEmpty)
  | type, v => .ok (.string v.typeName)
  | always w, _ => .ok w
  | fail message, _ => .error { cause := .raised message }
  | _, v => .ok v

def behaviour (filter : StockFilter) : Behaviour :=
  .filter fun _ v => filter.answer v

end StockFilter
end Mustache
