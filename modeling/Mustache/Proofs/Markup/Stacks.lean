import Mustache.Markup.Node

/-! Parsing with two stacks, one of open tags and one of scopes that collect nodes, which might get
out of step. They never do: what is read is what one stack reads. -/
namespace Mustache.Markup

structure OpenTag where
  kind : Kind
  tag : Token
  name : Name

def OpenRegion.openTag (region : OpenRegion) : OpenTag := ⟨region.kind, region.tag, region.name⟩

structure Stacks where
  pragmas : Pragmas
  /-- The open tags, the innermost first. -/
  opened : List OpenTag
  /-- The nodes so far in each scope, the innermost scope and in each the last node first. -/
  scopes : List (List Node)

inductive Halt
  | flaw (flaw : Flaw)
  /-- A scope is missing, or one is left over. -/
  | outOfStep

namespace Stacks

def initial (pragmas : Pragmas) : Stacks := ⟨pragmas, [], [[]]⟩

def add (s : Stacks) (node : Node) : Except Halt Stacks :=
  match s.scopes with
  | [] => .error .outOfStep
  | scope :: outer => .ok { s with scopes := (node :: scope) :: outer }

def role (kind : Kind) (opened : List OpenTag) : Role :=
  match kind with
  | .invertedOpen => .inverted
  | .parentOpen => .parent
  | .blockOpen =>
    match opened with
    | outer :: _ => if outer.kind = .parentOpen then .argument else .slot
    | [] => .slot
  | _ => .repeated

def close (s : Stacks) (tag : Token) : Except Halt Stacks :=
  match s.opened with
  | [] => .error (.flaw ⟨.unexpectedClose tag.content, tag.span⟩)
  | inner :: outer =>
    let found := tag.name s.pragmas
    if inner.name.path = found.path then
      match s.scopes with
      | [] => .error .outOfStep
      | scope :: scopes =>
        add ⟨s.pragmas, outer, scopes⟩
          (.region (role inner.kind outer) inner.tag inner.name scope.reverse tag)
    else .error (.flaw ⟨.mismatchedClose inner.name.path found.path, tag.span⟩)

def step (s : Stacks) (tag : Token) : Except Halt Stacks :=
  match tag.kind with
  | .text => s.add (.literal tag)
  | .comment | .delimiters => .ok s
  | .pragma =>
    match tag.pragma? with
    | some pragma => add { s with pragmas := s.pragmas.insert pragma } (.pragma tag pragma)
    | none => .ok s
  | .escaped | .unescaped => s.add (.variable tag (tag.name s.pragmas))
  | .partialTag => s.add (.partialRef tag)
  | .sectionOpen | .invertedOpen | .parentOpen | .blockOpen =>
    .ok ⟨s.pragmas, ⟨tag.kind, tag, tag.name s.pragmas⟩ :: s.opened, [] :: s.scopes⟩
  | .close => s.close tag

def finish (s : Stacks) : Except Halt (List Node) :=
  match s.opened, s.scopes with
  | inner :: _, _ => .error (.flaw ⟨.unclosedSection inner.name.path, inner.tag.span⟩)
  | [], [scope] => .ok scope.reverse
  | [], _ => .error .outOfStep

def of (p : Parsing) : Stacks :=
  ⟨p.pragmas, p.enclosing.map OpenRegion.openTag, p.nodes :: p.enclosing.map OpenRegion.before⟩

theorem role_of (kind : Kind) (enclosing : List OpenRegion) :
    role kind (enclosing.map OpenRegion.openTag) = Parsing.role kind enclosing := by
  cases kind <;> cases enclosing <;> rfl

theorem close_of (p : Parsing) (tag : Token) :
    (of p).close tag = ((p.close tag).map of).mapError .flaw := by
  obtain ⟨set, enclosing, nodes⟩ := p
  cases enclosing with
  | nil => rfl
  | cons inner outer =>
    by_cases same : inner.name.path = (tag.name set).path
    · have read : Parsing.close ⟨set, inner :: outer, nodes⟩ tag = .ok _ := if_pos same
      have read' : (of ⟨set, inner :: outer, nodes⟩).close tag = .ok _ := if_pos same
      rw [read, read', role_of]
      rfl
    · have read : Parsing.close ⟨set, inner :: outer, nodes⟩ tag = .error _ := if_neg same
      have read' : (of ⟨set, inner :: outer, nodes⟩).close tag = .error _ := if_neg same
      rw [read, read']
      rfl

theorem step_of (p : Parsing) (tag : Token) :
    (of p).step tag = ((p.step tag).map of).mapError .flaw := by
  unfold step Parsing.step
  cases tag.kind with
  | close => exact close_of p tag
  | pragma => cases tag.pragma? <;> rfl
  | _ => rfl

theorem finish_of (p : Parsing) : (of p).finish = p.finish.mapError .flaw := by
  obtain ⟨set, enclosing, nodes⟩ := p
  cases enclosing <;> rfl

end Stacks

def nestInStep (pragmas : Pragmas) (tokens : List Token) : Except Halt (List Node) := do
  (← tokens.foldlM Stacks.step (.initial pragmas)).finish

/-- Two stacks read what one stack reads, or find the same flaw. -/
theorem nestInStep_eq (pragmas : Pragmas) (tokens : List Token) :
    nestInStep pragmas tokens = (nest pragmas tokens).mapError .flaw := by
  have steps (p : Parsing) : (tokens.foldlM Stacks.step (.of p)) =
      ((tokens.foldlM Parsing.step p).map .of).mapError .flaw := by
    induction tokens generalizing p with
    | nil => rfl
    | cons tag rest ih =>
      rw [List.foldlM_cons, List.foldlM_cons, Stacks.step_of]
      cases p.step tag with
      | error flaw => rfl
      | ok next => exact ih next
  have initial : Stacks.initial pragmas = .of (.initial pragmas) := rfl
  unfold nestInStep nest
  rw [initial, steps]
  cases tokens.foldlM Parsing.step (.initial pragmas) with
  | error flaw => rfl
  | ok p => exact Stacks.finish_of p

end Mustache.Markup
