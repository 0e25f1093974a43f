import Mustache.Proofs.Markup.Inserted
import Mustache.Proofs.Render.Abreast

/-! Comments on lines of their own. They take no part in what is rendered, wherever they stand, although
they move the tags after them and change the keys of the bodies around them. -/
namespace Mustache.Render

open Markup

/-- A comment on a line of its own does not show: with it a source compiles as it does without it, and
renders to the same output or to an error of the same kind and message, and leaves the same store. Sections
may not be lambdas, which are given the text of the section, and the keys of the sections of each source
have to tell them apart. -/
theorem render_comment_line {env : Env} {key : Key} (key' : Key) {first second : String} {d : Delimiters}
    {program : Program} (compiled : Program.compile env.engine.dialect key (first ++ second) = .ok program)
    (between : LineStart env.engine.pragmas first second d) (line : CommentLine d) :
    ∃ program', Program.compile env.engine.dialect key' (first ++ line.source ++ second) = .ok program' ∧
      ((∀ source ∈ [first ++ second, first ++ line.source ++ second], ∀ tree,
          parse env.engine.pragmas source = .ok tree →
          Hash.Distinct (Node.identities source env.engine.pragmas tree)) →
        ∀ context store,
          (∀ within key v, .came within (.repeated key) (some v) ∈ notesOfRender env program context store →
            v.callable? within.strictCallables = none) →
          (render env program' context store).1.mapError Stop.unplaced =
              (render env program context store).1.mapError Stop.unplaced ∧
            (render env program' context store).2 = (render env program context store).2) := by
  obtain ⟨tree, parsed, -⟩ := Program.exists_tree_of_compile compiled
  have parsed' := between.parse_insert line parsed
  have compiled' := Program.compile_of_tree env.engine.dialect key' parsed'
  refine ⟨_, compiled', fun distinct context store plain => ?_⟩
  have apart := distinct (first ++ second) (by simp) tree parsed
  have apart' := distinct (first ++ line.source ++ second) (by simp) _ parsed'
  have told := Program.told_of_compile parsed compiled apart
  have told' := Program.told_of_compile parsed' compiled' apart'
  have mates := (told.linked parsed parsed' apart apart' told').mates
    ⟨_, _, _, _, parsed, compiled, apart⟩ ⟨_, _, _, _, parsed', compiled', apart'⟩
  let moved : Span → Span := .past (Text.byteSize first.toList) (Text.byteSize line.chars)
  have alike : Instr.AllLinked (.between (first ++ second) (first ++ line.source ++ second) moved
        (Node.bodiesOf false env.engine.dialect.pragmas tree))
      (Compile.plainOf (first ++ second) env.engine.dialect.pragmas tree)
      (Compile.plainOf (first ++ line.source ++ second) env.engine.dialect.pragmas
        (Node.respanAll moved tree)) :=
    Compile.linked_plainOf fun o member => member
  rw [← told.instrs, ← told'.instrs] at alike
  refine render_of_paired ⟨_, mates, alike, mates.budgets _ _ .main .main⟩ fun note member => ?_
  cases note with
  | fetched fetch => rfl
  | came within instr expression =>
    cases instr <;> cases expression <;> first
      | rfl
      | exact plain _ _ _ member

/-- A comment in a section, between tags with delimiters of their own and before an indented partial. -/
theorem render_comment_line_in_section :
    ∃ (env : Env) (context : Value) (program program' : Program),
      Program.compile env.engine.dialect default
        "\x7b\x7b=<% %>=\x7d\x7d\n<%#s%>\n  <%>p%>\n<%/s%>\n" = .ok program ∧
      Program.compile env.engine.dialect default
        "\x7b\x7b=<% %>=\x7d\x7d\n<%#s%>\n <%! note\n %>\t\n  <%>p%>\n<%/s%>\n" = .ok program' ∧
      (render env program context {}).1 = .ok "  x\n  x\n" ∧
      (render env program' context {}).1.mapError Stop.unplaced = .ok "  x\n  x\n" := by
  let first := "\x7b\x7b=<% %>=\x7d\x7d\n<%#s%>\n"
  let second := "  <%>p%>\n<%/s%>\n"
  let d : Delimiters := ⟨['<', '%'], ['%', '>'], by decide, by decide⟩
  let line : CommentLine d :=
    { before := [' ']
      text := [' ', 'n', 'o', 't', 'e', '\n', ' ']
      after := ['\t']
      before_blank := by simp
      after_blank := by simp
      closes := Text.cut?_eq_some_iff.1 (by decide) }
  let env : Env := ⟨{ partials := some (.fixed [("p", "x\n")]) }, [], ({} : Registry).lambdas⟩
  let context : Value := .map [("s", .list [.bool true, .bool true])]
  have ran : (Program.compile env.engine.dialect default (first ++ second)).map (fun program =>
      ((render env program context {}).1,
        (notesOfRender env program context {}).all (·.callable?.isNone))) =
      .ok (.ok "  x\n  x\n", true) := by
    decide +kernel
  have between : LineStart env.engine.pragmas first second d := by decide +kernel
  have single : ∀ source ∈ [first ++ second, first ++ line.source ++ second],
      (parse env.engine.pragmas source).map
        (fun tree => (Node.bodiesOf false env.engine.pragmas tree).length) = .ok 1 := by
    decide +kernel
  have distinct : ∀ source ∈ [first ++ second, first ++ line.source ++ second], ∀ tree,
      parse env.engine.pragmas source = .ok tree →
      Hash.Distinct (Node.identities source env.engine.pragmas tree) := by
    rintro source listed tree parsed _ _ ⟨a, here, rfl⟩ ⟨b, there, rfl⟩ -
    have one := single source listed
    rw [parsed] at one
    obtain ⟨o, only⟩ := List.length_eq_one_iff.1 (Except.ok.inj one)
    rw [only, List.mem_singleton] at here there
    rw [here, there]
  obtain ⟨program, compiled, told⟩ := ok_of_map ran
  obtain ⟨rendered, quiet⟩ := Prod.mk.inj told
  have plain : ∀ within key v,
      .came within (.repeated key) (some v) ∈ notesOfRender env program context {} →
      v.callable? within.strictCallables = none := by
    intro within key v member
    exact Option.isNone_iff_eq_none.1 (List.all_eq_true.1 quiet _ member)
  obtain ⟨program', compiled', same⟩ := render_comment_line default compiled between line
  obtain ⟨same, -⟩ := same distinct context {} plain
  rw [rendered] at same
  exact ⟨env, context, program, program', compiled, compiled', rendered, same⟩
end Mustache.Render
