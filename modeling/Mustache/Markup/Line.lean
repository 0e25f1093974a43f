import Mustache.Markup.Token

/-! Lines that hold nothing but blanks and a single tag that stands for no text of its own: such a
tag stands alone, and its line is removed around it. -/
namespace Mustache.Markup

def Kind.mayStandAlone : Kind → Bool
  | text | escaped | unescaped => false
  | _ => true

/-- Whether the blanks before a tag of this kind indent what it stands for. -/
def Kind.isIndented : Kind → Bool
  | partialTag | parentOpen => true
  | _ => false

def isMargin (c : Char) : Bool :=
  c == ' ' || c == '\t' || c == '\r' || c == '\n'

namespace Token

def isText (t : Token) : Bool := t.kind == .text

def endsLine (t : Token) : Bool :=
  t.isText && t.content.toList.getLast? == some '\n'

/-- A tag whose line is removed, with the blanks before it. -/
def alone (t : Token) (before : List Token) : Token :=
  { t with
    standalone := true
    indent := if t.kind.isIndented then String.join (before.map content) else "" }

end Token

def consFirst (t : Token) : List (List Token) → List (List Token)
  | [] => [[t]]
  | line :: rest => (t :: line) :: rest

/-- Groups tokens by line: a line ends after a text that ends in a line feed. -/
def lines : List Token → List (List Token)
  | [] => [[]]
  | t :: rest => if t.endsLine then [t] :: lines rest else consFirst t (lines rest)

theorem flatten_consFirst (t : Token) (groups : List (List Token)) :
    (consFirst t groups).flatten = t :: groups.flatten := by
  cases groups <;> rfl

/-- Grouping by line loses nothing. -/
theorem flatten_lines (tokens : List Token) : (lines tokens).flatten = tokens := by
  induction tokens with
  | nil => rfl
  | cons t rest ih =>
    simp only [lines]
    split
    · simp [ih]
    · rw [flatten_consFirst, ih]

def tidyLine (line : List Token) : List Token :=
  match line.filter (!·.isText) with
  | [tag] =>
    if tag.kind.mayStandAlone && (line.filter Token.isText).all (·.content.toList.all isMargin) then
      [tag.alone (line.takeWhile Token.isText)]
    else line
  | _ => line

def tidy (tokens : List Token) : List Token :=
  (lines tokens).flatMap tidyLine

/-- The tokens of a source, tags alone on their lines without those lines. -/
def tokenize (pragmas : Pragmas) (source : String) : Except Flaw (List Token) :=
  (scan pragmas source).map tidy

end Mustache.Markup
