import Mustache.Markup.Line

/-! The tree of a template. A region runs from an opening tag to the closing tag of the same name;
tags that only steer how the source is read leave no node. -/
namespace Mustache.Markup

structure Name where
  path : String
  filters : List String
  deriving DecidableEq

inductive Role
  /-- A section, rendered once for each frame of its value. -/
  | repeated
  | inverted
  | parent
  /-- A block given to the parent that it is directly in. -/
  | argument
  /-- A block with content to render unless an argument takes its place. -/
  | slot
  deriving DecidableEq, Repr

inductive Node
  | literal (text : Token)
  | pragma (tag : Token) (pragma : Pragma)
  | variable (tag : Token) (name : Name)
  | partialRef (tag : Token)
  | region (role : Role) (opening : Token) (name : Name) (nodes : List Node) (closing : Token)

namespace Token

/-- The parts of a tag's content between bars, trimmed: the name, and the filters that are not
empty. -/
def pipeline (t : Token) : Name :=
  match (Text.pieces (· == '|') t.content.toList).map fun piece => .ofList (Text.trim piece) with
  | [] => ⟨"", []⟩
  | path :: filters => ⟨path, filters.filter (!·.isEmpty)⟩

/-- Bars belong to the name unless filters are switched on. -/
def name (t : Token) (pragmas : Pragmas) : Name :=
  if pragmas.filters then t.pipeline else ⟨t.content, []⟩

end Token

/-- An opening tag that waits for its closing tag, with the nodes before it in its own region, the
last one first. -/
structure OpenRegion where
  kind : Kind
  tag : Token
  name : Name
  before : List Node

structure Parsing where
  pragmas : Pragmas
  /-- The open regions, the innermost first. -/
  enclosing : List OpenRegion
  /-- The nodes so far in the innermost region, the last one first. -/
  nodes : List Node

namespace Parsing

def initial (pragmas : Pragmas) : Parsing := ⟨pragmas, [], []⟩

def add (p : Parsing) (node : Node) : Parsing := { p with nodes := node :: p.nodes }

/-- The role of a region, by the kind of its tag and the region around it. -/
def role (kind : Kind) (enclosing : List OpenRegion) : Role :=
  match kind with
  | .invertedOpen => .inverted
  | .parentOpen => .parent
  | .blockOpen =>
    match enclosing with
    | outer :: _ => if outer.kind = .parentOpen then .argument else .slot
    | [] => .slot
  | _ => .repeated

def close (p : Parsing) (tag : Token) : Except Flaw Parsing :=
  match p.enclosing with
  | [] => .error ⟨.unexpectedClose tag.content, tag.span⟩
  | inner :: outer =>
    let found := tag.name p.pragmas
    if inner.name.path = found.path then
      .ok ⟨p.pragmas, outer,
        .region (role inner.kind outer) inner.tag inner.name p.nodes.reverse tag :: inner.before⟩
    else .error ⟨.mismatchedClose inner.name.path found.path, tag.span⟩

def step (p : Parsing) (tag : Token) : Except Flaw Parsing :=
  match tag.kind with
  | .text => .ok (p.add (.literal tag))
  | .comment | .delimiters => .ok p
  | .pragma =>
    match tag.pragma? with
    | some pragma => .ok { p.add (.pragma tag pragma) with pragmas := p.pragmas.insert pragma }
    | none => .ok p
  | .escaped | .unescaped => .ok (p.add (.variable tag (tag.name p.pragmas)))
  | .partialTag => .ok (p.add (.partialRef tag))
  | .sectionOpen | .invertedOpen | .parentOpen | .blockOpen =>
    .ok ⟨p.pragmas, ⟨tag.kind, tag, tag.name p.pragmas, p.nodes⟩ :: p.enclosing, []⟩
  | .close => p.close tag

def finish (p : Parsing) : Except Flaw (List Node) :=
  match p.enclosing with
  | [] => .ok p.nodes.reverse
  | inner :: _ => .error ⟨.unclosedSection inner.name.path, inner.tag.span⟩

end Parsing

def nest (pragmas : Pragmas) (tokens : List Token) : Except Flaw (List Node) := do
  (← tokens.foldlM Parsing.step (.initial pragmas)).finish

def parse (pragmas : Pragmas) (source : String) : Except Flaw (List Node) := do
  nest pragmas (← tokenize pragmas source)

end Mustache.Markup
