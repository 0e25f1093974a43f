import Mustache.Proofs.Program.Deduplication
import Mustache.Proofs.Program.Ready

/-! How deeply bodies of sections nest. A section finds its body in a table, which could lead back to
the body that it stands in; it does not where bodies that differ have different keys, for what is
found there reads as the section's own text, which is shorter than the text around it. -/
namespace Mustache

open Markup

/-- Sections whose bodies nest less deeply than some number. -/
def Shallow (program : Program) : Nat → List Instr → Prop
  | 0, _ => False
  | budget + 1, instrs => ∀ key, Instr.repeated key ∈ instrs →
    ∀ sec, Entries.get? key program.sections = some sec → Shallow program budget sec.instrs

/-- A program that is compiled from a source in which bodies that differ have different keys. -/
def Program.Unambiguous (program : Program) : Prop :=
  ∃ dialect key source tree, parse dialect.pragmas source = .ok tree ∧
    Program.compile dialect key source = .ok program ∧
    Hash.Distinct (Node.identities source dialect.pragmas tree)

theorem Program.Unambiguous.built {program : Program} (unambiguous : program.Unambiguous) :
    program.Built := by
  obtain ⟨dialect, key, source, tree, -, compiled, -⟩ := unambiguous
  exact ⟨dialect, key, source, compiled⟩

namespace Compile

variable {source : String} {set : Pragmas} {tree nodes : List Node} {key : Key}

theorem not_repeated_mem_filtered (set : Pragmas) (span : Span) (name : Name) :
    Instr.repeated key ∉ filtered set span name := by
  simp [filtered, filters]

/-- The sections that the instructions of a tree call stand in it. -/
theorem exists_body_of_repeated_mem (member : Instr.repeated key ∈ plainOf source set nodes) :
    ∃ o ∈ Node.bodiesOf false set nodes, o.key source = key ∧ o.role = .repeated := by
  induction nodes using Node.forest generalizing set with
  | nil => cases member
  | literal t rest ih =>
    rcases List.mem_append.1 member with here | later
    · simp [plain] at here
    · exact ih later
  | pragma t p rest ih => exact ih member
  | interpolation t name rest ih =>
    rcases List.mem_append.1 member with here | later
    · simp [plain, resolved, filters] at here
    · exact ih later
  | partialRef t rest ih =>
    rcases List.mem_append.1 member with here | later
    · simp [plain] at here
    · exact ih later
  | region role opening name nodes closing rest inner ih =>
    rcases List.mem_append.1 member with here | later
    · cases role with
      | «repeated» =>
        rcases List.mem_append.1 here with test | itself
        · exact absurd test (not_repeated_mem_filtered _ _ _)
        · refine ⟨⟨.repeated, set, opening, nodes, closing⟩, ?_, ?_, rfl⟩
          · exact Node.mem_bodiesOf_region.2 (.inl ⟨rfl, .inr ⟨rfl, rfl⟩⟩)
          · exact (Instr.repeated.inj (List.mem_singleton.1 itself)).symm
      | inverted =>
        rcases List.mem_append.1 here with test | more
        · exact absurd test (not_repeated_mem_filtered _ _ _)
        · rcases List.mem_cons.1 more with jump | deep
          · cases jump
          · obtain ⟨o, there, same⟩ := inner deep
            exact ⟨o, Node.mem_bodiesOf_region.2 (.inl ⟨rfl, .inl there⟩), same⟩
      | slot =>
        rcases List.mem_cons.1 here with jump | deep
        · cases jump
        · obtain ⟨o, there, same⟩ := inner deep
          exact ⟨o, Node.mem_bodiesOf_region.2 (.inl ⟨rfl, .inl there⟩), same⟩
      | parent =>
        cases List.mem_singleton.1 here
      | argument =>
        cases List.mem_singleton.1 here
    · obtain ⟨o, there, same⟩ := ih later
      exact ⟨o, Node.mem_bodiesOf_region.2 (.inr there), same⟩

end Compile

section

variable {dialect : Dialect} {source : String} {tree : List Node} {program : Program}
  (parsed : parse dialect.pragmas source = .ok tree)
  (distinct : Hash.Distinct (Node.identities source dialect.pragmas tree))
  (told : program.Told dialect source tree)

include parsed distinct told

theorem Program.Told.exists_alike {key : Key} {sec : Section}
    (found : Entries.get? key program.sections = some sec) {o : Occurrence}
    (member : o ∈ Node.bodiesOf false dialect.pragmas tree) (same : o.key source = key)
    {text : List Char} (covers : o.body.span.Covers source.toList text) :
    ∃ first ∈ Node.bodiesOf false dialect.pragmas tree, sec.instrs = first.instrs source ∧
      first.body.span.Covers source.toList text := by
  rw [told.sections] at found
  obtain ⟨first, there, -, keyed, rfl⟩ := Compile.mem_of_findSome? found
  obtain ⟨text', nodes, reads, reads', -, -⟩ :=
    Compile.reads_of_key_eq parsed distinct there member (keyed.trans same.symm)
  rw [covers.part_eq reads'.covers]
  exact ⟨first, there, rfl, reads.covers⟩

theorem Program.Told.shallow_of_covers {o : Occurrence}
    (member : o ∈ Node.bodiesOf false dialect.pragmas tree) {text : List Char}
    (covers : o.body.span.Covers source.toList text) {budget : Nat} (enough : text.length < budget) :
    Shallow program budget (o.instrs source) := by
  induction budget generalizing o text with
  | zero => cases enough
  | succ budget ih =>
    intro key called sec found
    obtain ⟨inner, within, same, -⟩ := Compile.exists_body_of_repeated_mem called
    have there := Node.mem_bodiesOf_trans member within
    obtain ⟨text', covers', -⟩ := (fits_of_parse parsed).body there
    -- what is found may stand elsewhere, but its text is that of a body within this one
    have shorter := length_lt_of_nested parsed member within covers covers'
    obtain ⟨first, listed, instrs, covered⟩ := told.exists_alike parsed distinct found there same covers'
    rw [instrs]
    exact ih listed covered (Nat.lt_of_lt_of_le shorter (Nat.le_of_lt_succ enough))

end

/-- Sections nest no deeper than their source is long. -/
theorem Program.Unambiguous.shallow {program : Program} (unambiguous : program.Unambiguous)
    {instrs : List Instr} (owns : program.Owns instrs) :
    Shallow program (program.source.length + 2) instrs := by
  obtain ⟨dialect, key, source, tree, parsed, compiled, distinct⟩ := unambiguous
  have told := told_of_compile parsed compiled distinct
  have body (o : Occurrence) (member : o ∈ Node.bodiesOf false dialect.pragmas tree) (budget : Nat)
      (enough : source.length < budget) : Shallow program budget (o.instrs source) := by
    obtain ⟨text, covers, shorter⟩ := (fits_of_parse parsed).body member
    rw [String.length_toList] at shorter
    exact told.shallow_of_covers parsed distinct member covers (Nat.lt_trans shorter enough)
  rw [told.sameSource]
  cases owns with
  | main =>
    intro key called sec found
    rw [told.instrs] at called
    obtain ⟨o, member, same, -⟩ := Compile.exists_body_of_repeated_mem called
    obtain ⟨text, covers, -⟩ := (fits_of_parse parsed).body member
    obtain ⟨first, listed, instrs, -⟩ := told.exists_alike parsed distinct found member same covers
    rw [instrs]
    exact body first listed _ (Nat.lt_succ_self _)
  | body key sec found =>
    rw [told.sections] at found
    obtain ⟨o, member, -, -, rfl⟩ := Compile.mem_of_findSome? found
    exact body o member _ (by omega)
  | argument key instrs found =>
    rw [told.blocks] at found
    obtain ⟨o, member, -, -, rfl⟩ := Compile.mem_of_findSome? found
    exact body o member _ (by omega)

end Mustache
