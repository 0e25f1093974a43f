/-! Escaping text for HTML. Markup characters always become entities; which quotes do is up to the
entity flags. -/
namespace Mustache

inductive EntityFlags
  | compat
  | quotes
  | noQuotes
  deriving DecidableEq, Repr, Inhabited

namespace EntityFlags

def bits : EntityFlags → Nat
  | compat => 2
  | quotes => 3
  | noQuotes => 0

def name : EntityFlags → String
  | compat => "Compat"
  | quotes => "Quotes"
  | noQuotes => "NoQuotes"

end EntityFlags

namespace Html

def escapeChar (flags : EntityFlags) (c : Char) : List Char :=
  match c, flags with
  | '&', _ => "&amp;".toList
  | '<', _ => "&lt;".toList
  | '>', _ => "&gt;".toList
  | '"', .compat | '"', .quotes => "&quot;".toList
  | '\'', .quotes => "&#039;".toList
  | c, _ => [c]

def escape (flags : EntityFlags) (text : String) : String :=
  .ofList (text.toList.flatMap (escapeChar flags))

@[simp] theorem toList_escape (flags : EntityFlags) (text : String) :
    (escape flags text).toList = text.toList.flatMap (escapeChar flags) := by
  simp [escape]

theorem escape_append (flags : EntityFlags) (a b : String) :
    escape flags (a ++ b) = escape flags a ++ escape flags b := by
  simp [escape, String.ofList_append]

end Html

def charsets : List String :=
  ["UTF-8", "ISO-8859-1", "ISO-8859-5", "ISO-8859-15", "CP866", "CP1251", "CP1252", "KOI8-R",
    "BIG5", "GB2312", "BIG5-HKSCS", "SHIFT_JIS", "EUC-JP", "MACROMAN"]

/-- A name's letters of ASCII may be in either case. -/
def isCharset (name : String) : Bool :=
  charsets.any fun known => known.toList.map Char.toUpper == name.toList.map Char.toUpper

end Mustache
