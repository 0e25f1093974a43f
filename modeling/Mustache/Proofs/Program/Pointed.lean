import Mustache.Proofs.Markup.Flawed
import Mustache.Proofs.Program.Kept
import Mustache.Proofs.Program.Trails

/-! What compiled programs point at: tags of their source, and the bodies between two tags. -/
namespace Mustache

open Markup

/-- An instruction that points only at places of the source. -/
def Instr.Marks (source : String) (instr : Instr) : Prop :=
  ∀ span, instr.span? = some span → span.Marks source

theorem Instr.mute_marks (source : String) : Mute (Instr.Marks source) where
  «repeated» := by rintro key span ⟨⟩
  unlessEmpty := by rintro skip span ⟨⟩
  slot := by rintro name skip span ⟨⟩
  strayArgument := by rintro name span ⟨⟩

theorem Markup.Token.gives_marks {source : String} {t : Token} (marks : t.span.Marks source) :
    t.Gives (Instr.Marks source) where
  text := by rintro - span ⟨⟩
  emit := by
    rintro - span ⟨⟩
    exact marks
  partialCall := by rintro span ⟨⟩
  parentCall := by rintro name given span ⟨⟩
  lookup := by
    rintro lookup name span ⟨⟩
    exact marks
  resolve := by
    rintro span ⟨⟩
    exact marks
  apply := by
    rintro lookup name span ⟨⟩
    exact marks

/-- What is between a tag and a later one starts before the later one. -/
theorem Markup.Scanned.between_marks {mode : Mode} {source : String} {tokens : List Token}
    (scanned : Scanned mode 0 source.toList tokens) :
    Between (fun span => span.Marks source) (tidy tokens) := by
  have ordered := (thinned_tidy tokens).ordered scanned.tiled.ordered
  refine ordered.imp_of_mem ?_
  intro opening closing here there order
  obtain ⟨⟨first, covers⟩, -⟩ := scanned.marks here
  obtain ⟨⟨last, covers'⟩, before⟩ := scanned.marks there
  obtain ⟨gap, between⟩ := covers.between covers' order
  exact ⟨⟨gap, between⟩, Nat.lt_of_le_of_lt order before⟩

/-- A compiled program points only at places of its source. -/
theorem Program.Built.marks {program : Program} (built : program.Built) {standing : Standing} {span : Span}
    (points : program.Points standing span) : span.Marks program.source := by
  obtain ⟨dialect, tree, parsed, made⟩ := built.exists_tree
  obtain ⟨raw, scanned, nests⟩ := read_of_parse parsed
  have kept : (ofNodes dialect program.key program.source tree).Only (Instr.Marks program.source) ∧
      ∀ body sec, Entries.get? body (ofNodes dialect program.key program.source tree).sections = some sec →
        sec.span.Marks program.source :=
    Program.only_of_nests (Instr.mute_marks program.source) nests
      (fun t member => Token.gives_marks (scanned.marks member)) scanned.between_marks
  rw [← made] at kept
  obtain ⟨only, bodies⟩ := kept
  obtain ⟨instr, ⟨instrs, leads, -, here⟩, own | ⟨key, sec, -, stored, rfl⟩⟩ := points
  · have member : instr ∈ instrs := List.mem_of_getElem? here
    cases leads.owns with
    | main => exact only.instrs instr member span own
    | body key sec stored => exact only.sections key sec stored instr member span own
    | argument key instrs stored => exact only.blocks key instrs stored instr member span own
  · exact bodies key sec stored

end Mustache
