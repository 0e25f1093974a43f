import Mustache.Delimiters
import Mustache.Entries
import Mustache.Hash.Sha256
import Mustache.Html
import Mustache.Span

/-! Programs: a template as a list of instructions, with the bodies of its sections and block
arguments kept once each in tables. An instruction may skip some of those after it, never back. -/
namespace Mustache

abbrev Key := Hash.Digest

inductive Lookup
  /-- The top frame itself. -/
  | top
  /-- The name, in the first frame that has it. -/
  | anywhere
  /-- The first part of the name, in the first frame that has it, and the rest within what is
  found. -/
  | path
  /-- The parts of the name within the top frame. -/
  | anchored
  deriving DecidableEq, Repr

/-- A name to look up, with the tag it stands in. -/
structure Ref where
  lookup : Lookup
  name : String
  span : Span
  deriving DecidableEq

inductive Instr
  | text (text : String)
  | lookup (ref : Ref)
  /-- Replaces a lambda by its rendered result. -/
  | resolve (span : Span)
  /-- Passes the expression through a filter. -/
  | apply (ref : Ref)
  | emit (escaped : Bool) (span : Span)
  /-- Renders the body of a section with the expression. -/
  | repeated (key : Key)
  /-- Skips instructions unless the expression is empty. -/
  | unlessEmpty (skip : Nat)
  | partialCall (name indent : String)
  | parentCall (name indent : String) (arguments : List (String × Key))
  /-- Renders the argument given for a block and skips the block's own instructions, if there is
  such an argument. -/
  | slot (name : String) (skip : Nat)
  /-- A block argument that no parent takes. -/
  | strayArgument (name : String)
  deriving DecidableEq

structure Section where
  span : Span
  /-- Its text, as a lambda gets it. -/
  text : String
  /-- The tag that sets its delimiters, unless they are the default ones. -/
  changeTag : Option String
  opening : List Char
  instrs : List Instr
  deriving DecidableEq

inductive EscapeMode
  | html (flags : EntityFlags)
  | custom
  deriving DecidableEq

structure Program where
  key : Key
  source : String
  escape : EscapeMode
  strictCallables : Bool
  instrs : List Instr
  sections : List (Key × Section)
  blocks : List (Key × List Instr)
  deriving DecidableEq

end Mustache
