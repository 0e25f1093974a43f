import Mustache.Text.Blank

/-! The texts that open and close a tag. Both are words without an equals sign, so that a tag that
changes them can be read back. -/
namespace Mustache

def isDelimiter (text : List Char) : Bool :=
  !text.isEmpty && text.all fun c => c != '=' && !Text.isBlank c

structure Delimiters where
  opening : List Char
  closing : List Char
  opening_valid : isDelimiter opening = true := by decide
  closing_valid : isDelimiter closing = true := by decide
  deriving DecidableEq

namespace Delimiters

def default : Delimiters where
  opening := ['\x7b', '\x7b']
  closing := ['\x7d', '\x7d']

instance : Inhabited Delimiters := ⟨default⟩

def ofWords? (opening closing : List Char) : Option Delimiters :=
  if valid : isDelimiter opening = true ∧ isDelimiter closing = true then
    some ⟨opening, closing, valid.1, valid.2⟩
  else none

theorem opening_ne_nil (d : Delimiters) : d.opening ≠ [] := by
  intro empty
  have := d.opening_valid
  simp [isDelimiter, empty] at this

theorem closing_ne_nil (d : Delimiters) : d.closing ≠ [] := by
  intro empty
  have := d.closing_valid
  simp [isDelimiter, empty] at this

/-- The tag that puts these delimiters in force where the default ones are. -/
def changeTag (d : Delimiters) : List Char :=
  ['\x7b', '\x7b', '=', ' '] ++ d.opening ++ [' '] ++ d.closing ++ [' ', '=', '\x7d', '\x7d']

/-- The change tag, unless these are the default delimiters. -/
def changeTag? (d : Delimiters) : Option String :=
  if d = default then none else some (.ofList d.changeTag)

end Delimiters
end Mustache
