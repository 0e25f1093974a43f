import Mustache.Proofs.Markup.Standalone
import Mustache.Proofs.Program.Kept

/-! Programs that write the texts of a template line by line: a line feed ends a text, and none is in
an indent. -/
namespace Mustache

open Markup

/-- An instruction that writes one line of the template at most. -/
def Instr.Lined : Instr → Prop
  | .text content => '\n' ∉ content.toList.dropLast
  | .partialCall _ indent | .parentCall _ indent _ => '\n' ∉ indent.toList
  | _ => True

theorem Instr.mute_lined : Mute Instr.Lined :=
  ⟨fun _ => trivial, fun _ => trivial, fun _ _ => trivial, fun _ => trivial⟩

theorem Markup.gives_lined {source : String} {raw : List Token} (laid : Laid source.toList raw)
    (untidied : ∀ t ∈ raw, t.Raw) {t : Token} (member : t ∈ tidy raw) : t.Gives Instr.Lined := by
  have unbroken : '\n' ∉ t.indent.toList := by
    rw [indent_of_mem_tidy_eq laid untidied member]
    split
    · rw [String.toList_ofList]
      exact Text.newline_not_mem_lastLine _
    · simp
  refine ⟨?_, fun _ => trivial, unbroken, fun _ _ => unbroken, fun _ _ => trivial, trivial,
    fun _ _ => trivial⟩
  intro isText
  obtain ⟨u, among, like⟩ := (thinned_tidy raw).mem member
  show '\n' ∉ t.content.toList.dropLast
  rw [like.content]
  cases laid.shows u among with
  | text kind content nonempty line =>
    rw [content]
    exact line
  | tag kind => exact absurd (like.kind ▸ isText) kind

theorem Program.Built.lined {program : Program} (built : program.Built) : program.Only Instr.Lined := by
  obtain ⟨dialect, tree, parsed, made⟩ := built.exists_tree
  obtain ⟨raw, scanned, nests⟩ := read_of_parse parsed
  rw [made]
  exact .of_nests Instr.mute_lined nests fun t member =>
    gives_lined scanned.laid (fun _ => scanned.raw) member

end Mustache
