import Mustache.Error
import Mustache.Text.Blank
import Mustache.Text.Width

/-! An error shown under the source line that it points at, with carets under the span. -/
namespace Mustache.Error

/-- The lines of a source; a final line feed starts no line. -/
def sourceLines (source : List Char) : List (List Char) :=
  let lines := Text.pieces (· == '\n') source
  if lines.getLast? = some [] then lines.dropLast else lines

/-- A line by its number from zero, and the columns before a place on it. -/
structure Position where
  line : Nat
  column : Nat
  deriving DecidableEq

section

-- how many columns a text takes where it is shown
variable (width : List Char → Nat)

def positionFrom (number : Nat) : List (List Char) → Nat → Option Position
  | [], _ => none
  | line :: rest, offset =>
    if offset < Text.byteSize line + 1 then
      some ⟨number, width (Text.takeBytes offset line)⟩
    else positionFrom (number + 1) rest (offset - (Text.byteSize line + 1))

/-- Where a byte offset lies; past the last line it lies after that line's end. -/
def position (lines : List (List Char)) (offset : Nat) : Position :=
  (positionFrom width 0 lines offset).getD ⟨lines.length, width (lines.getLast?.getD [])⟩

def blanks (count : Nat) : String := .ofList (List.replicate count ' ')

def frame (message : String) (site : Site) : String :=
  let lines := sourceLines site.source.toList
  let place := position width lines site.span.start
  let carets := max 1 (width (site.span.slice site.source).toList)
  let code := (lines[place.line]?).getD (lines.getLast?.getD [])
  let number := toString (place.line + 1)
  let margin := blanks number.length
  "\n " ++ margin ++ " |\n " ++ number ++ " | " ++ .ofList code ++ "\n " ++ margin ++ " | " ++
    blanks place.column ++ .ofList (List.replicate carets '^') ++ " " ++ message ++ "\n"

/-- The frame of an error that points at a place, otherwise its one line of text. -/
def prettyIn (e : Error) : String :=
  match e.site with
  | some site => frame width e.message site
  | none => e.display

end

def pretty (e : Error) : String := e.prettyIn Text.columns

end Mustache.Error
