import Mustache.Markup.Node
import Mustache.Program

/-! From the tree of a template to a program. Bodies with the same text, delimiters, pragmas in
force and removed edge lines have one key, and only the first of them is compiled. -/
namespace Mustache

open Markup

/-- The text between an opening and a closing tag. -/
structure Body where
  span : Span
  delims : Delimiters
  /-- Whether the lines of the opening and of the closing tag are removed. -/
  edges : Bool × Bool

def Body.between (opening closing : Token) : Body :=
  ⟨⟨opening.span.stop, closing.span.start⟩, opening.delims, (opening.standalone, closing.standalone)⟩

def edgeDigit (edge : Bool) : String := if edge then "1" else "0"

/-- All that the instructions of a body depend on. -/
def Body.identity (source : String) (pragmas : Pragmas) (body : Body) : String :=
  body.delims.changeTag?.getD "" ++ "\n" ++ edgeDigit body.edges.1 ++ edgeDigit body.edges.2 ++ "\n" ++
    " ".intercalate pragmas.sortedNames ++ "\n" ++ body.span.slice source

def Body.key (source : String) (pragmas : Pragmas) (body : Body) : Key :=
  Hash.sha256 (body.identity source pragmas)

namespace Markup.Node

mutual

/-- The pragmas that a node switches on, in order. -/
def pragmas : Node → List Pragma
  | pragma _ p => [p]
  | region _ _ _ nodes _ => pragmasOf nodes
  | _ => []
  termination_by structural node => node

def pragmasOf : List Node → List Pragma
  | [] => []
  | node :: rest => pragmas node ++ pragmasOf rest
  termination_by structural nodes => nodes

end

end Markup.Node

/-- Anchored names start with a point, and only with the pragma for them. -/
def Lookup.of (pragmas : Pragmas) (name : String) : Lookup :=
  if name = "." then top
  else if pragmas.anchoredDot && name.toList.head? == some '.' then anchored
  else if name.toList.contains '.' then path
  else anywhere

namespace Compile

structure State where
  pragmas : Pragmas
  sections : List (Key × Section)
  blocks : List (Key × List Instr)

def State.initial (pragmas : Pragmas) : State := ⟨pragmas, [], []⟩

abbrev M := StateM State

def ref (pragmas : Pragmas) (span : Span) (name : String) : Ref :=
  ⟨.of pragmas name, name, span⟩

def filters (pragmas : Pragmas) (span : Span) (name : Name) : List Instr :=
  name.filters.map fun filter => .apply (ref pragmas span filter)

/-- Looks up a name and applies its filters, leaving a lambda that is found as it is. -/
def filtered (pragmas : Pragmas) (span : Span) (name : Name) : List Instr :=
  .lookup (ref pragmas span name.path) :: filters pragmas span name

/-- Looks up a name, has a lambda that is found called, and applies the filters. -/
def resolved (pragmas : Pragmas) (span : Span) (name : Name) : List Instr :=
  .lookup (ref pragmas span name.path) :: .resolve span :: filters pragmas span name

def State.addSection (source : String) (body : Body) (key : Key) (instrs : List Instr)
    (s : State) : State :=
  { s with
    sections := Entries.put key
      ⟨body.span, body.span.slice source, body.delims.changeTag?, body.delims.opening, instrs⟩
      s.sections }

def State.addBlock (key : Key) (instrs : List Instr) (s : State) : State :=
  { s with blocks := Entries.put key instrs s.blocks }

def State.skip (node : Node) (s : State) : State :=
  { s with pragmas := node.pragmas.foldl (fun set p => set.insert p) s.pragmas }

mutual

def node (source : String) : Node → M (List Instr)
  | .literal text => pure [.text text.content]
  | .pragma _ p => do
    modify fun s => { s with pragmas := s.pragmas.insert p }
    pure []
  | .variable tag name => do
    let s ← get
    pure (resolved s.pragmas tag.span name ++ [.emit (tag.kind = .escaped) tag.span])
  | .partialRef tag => pure [.partialCall tag.content tag.indent]
  | .region .repeated opening name inner closing => do
    let body := Body.between opening closing
    let key := body.key source (← get).pragmas
    if !Entries.has key (← get).sections then
      let instrs ← nodes source inner
      modify (·.addSection source body key instrs)
    let s ← get
    pure (filtered s.pragmas opening.span name ++ [.repeated key])
  | .region .inverted opening name inner _ => do
    let s ← get
    let test := filtered s.pragmas opening.span name
    let instrs ← nodes source inner
    pure (test ++ .unlessEmpty instrs.length :: instrs)
  | .region .parent opening name inner _ => do
    let given ← arguments source inner
    pure [.parentCall name.path opening.indent given]
  | .region .slot _ name inner _ => do
    let instrs ← nodes source inner
    pure (.slot name.path instrs.length :: instrs)
  | .region .argument _ name _ _ => pure [.strayArgument name.path]
  termination_by structural tree => tree

def nodes (source : String) : List Node → M (List Instr)
  | [] => pure []
  | first :: rest => do
    let instrs ← node source first
    let more ← nodes source rest
    pure (instrs ++ more)
  termination_by structural trees => trees

/-- What a parent is given: its block arguments. Of anything else in it only the pragmas count. -/
def arguments (source : String) : List Node → M (List (String × Key))
  | [] => pure []
  | .region .argument opening name inner closing :: rest => do
    let body := Body.between opening closing
    let key := body.key source (← get).pragmas
    if !Entries.has key (← get).blocks then
      let instrs ← nodes source inner
      modify (·.addBlock key instrs)
    let more ← arguments source rest
    pure ((name.path, key) :: more)
  | other :: rest => do
    modify (·.skip other)
    arguments source rest
  termination_by structural trees => trees

end

end Compile

/-- What a program is compiled under, apart from its source. -/
structure Dialect where
  pragmas : Pragmas
  escape : EscapeMode
  strictCallables : Bool
  deriving DecidableEq

def Program.ofNodes (dialect : Dialect) (key : Key) (source : String) (tree : List Node) : Program :=
  let (instrs, state) := (Compile.nodes source tree).run (.initial dialect.pragmas)
  ⟨key, source, dialect.escape, dialect.strictCallables, instrs, state.sections, state.blocks⟩

def Program.compile (dialect : Dialect) (key : Key) (source : String) : Except Error Program :=
  match parse dialect.pragmas source with
  | .ok tree => .ok (.ofNodes dialect key source tree)
  | .error flaw => .error (.locatedAt flaw.cause source flaw.span)

end Mustache
