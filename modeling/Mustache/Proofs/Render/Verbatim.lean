import Mustache.Proofs.Engine.Fetching
import Mustache.Proofs.Program.Untagged
import Mustache.Proofs.Render.Indented

/-! What a lambda has made of a section, where there is no tag in it: written as it is, or compiled and
run. Both leave the same machine, apart from the programs at hand. Under an indent only a text of at
most one line is written alike. -/
namespace Mustache.Render

namespace Stage

variable (s : Stage) (sec : Section)

/-- Writes a text as it is. -/
def append (text : String) : Act String :=
  if text.isEmpty then pure "" else s.literal text

/-- Compiles a text with the delimiters of a section in force, and runs it under the indent. -/
def recompile (text : String) : Act String := do
  let program ← s.fetchLambda sec.changeTag text
  s.invoke program s.indent

/-- What a lambda makes of a section, as text. -/
def answered (handle : Lambda) : Act String := do
  let result ← located s.program.source sec.span
    (callEnclosing s.env.lambdas (s.renderFor sec) handle sec.text)
  s.textOf sec.span result

theorem enclose_eq (handle : Lambda) :
    s.enclose sec handle = (do
      let text ← s.answered sec handle
      if Text.contains sec.opening text.toList then s.recompile sec text else s.append text) := by
  rw [answered, bind_assoc]
  rfl

variable {s} (m : Machine)

theorem run_literal (text : String) : (s.literal text).run.run m =
    (.ok (if m.lineStart then s.indent ++ text else text), { m with lineStart := endsLine text }) := rfl

theorem endsLine_ofList (line : List Char) (nonempty : line ≠ []) (start : Bool) :
    endsLine (.ofList line) = Text.startsLine start line := by
  rw [endsLine_eq, String.toList_ofList]
  cases line with
  | nil => exact absurd rfl nonempty
  | cons c rest => rw [Text.startsLine_cons, Text.startsLine_cons]

theorem run_append (text : String) : (s.append text).run.run m =
    (.ok (.ofList ((if m.lineStart && !(Text.endedLines text.toList).isEmpty then s.indent.toList else []) ++
      text.toList)), { m with lineStart := Text.startsLine m.lineStart text.toList }) := by
  by_cases empty : text = ""
  · subst empty
    rw [String.toList_empty, Text.endedLines, List.isEmpty_nil, Bool.not_true, Bool.and_false]
    rfl
  · have nonempty : text.toList ≠ [] := fun none => empty (String.toList_eq_nil_iff.1 none)
    have lines : (Text.endedLines text.toList).isEmpty = false := by
      rw [List.isEmpty_eq_false_iff]
      exact fun none => nonempty (Text.endedLines_eq_nil_iff.1 none)
    have ends := endsLine_ofList text.toList nonempty m.lineStart
    have written : text.isEmpty = false := by
      rw [← Bool.not_eq_true, String.isEmpty_iff]
      exact empty
    rw [String.ofList_toList] at ends
    rw [append, written, if_neg Bool.false_ne_true, run_literal, ends, lines, Bool.not_false, Bool.and_true]
    cases m.lineStart <;> simp

theorem run_steps_text (text : String) (rest : List Instr) : (s.steps (.text text :: rest) 0 none).run.run m =
    (((s.steps rest 0 none).run.run { m with lineStart := endsLine text }).1.map
      ((if m.lineStart then s.indent ++ text else text) ++ ·),
      ((s.steps rest 0 none).run.run { m with lineStart := endsLine text }).2) := by
  have unfolded : s.steps (.text text :: rest) 0 none = (do
    let first ← s.literal text
    let more ← s.steps rest 0 none
    pure (first ++ more)) := rfl
  rw [unfolded, run_bind, run_literal]
  exact run_map _ _ _

theorem run_steps_lines {lines : List (List Char)} (nonempty : ∀ line ∈ lines, line ≠ [])
    (ended : ∀ line ∈ lines.dropLast, line.getLast? = some '\n') :
    (s.steps (lines.map fun line => .text (.ofList line)) 0 none).run.run m =
      (.ok (.ofList (Text.indentLines s.indent.toList m.lineStart lines)),
        { m with lineStart := Text.startsLine m.lineStart lines.flatten }) := by
  induction lines generalizing m with
  | nil => rfl
  | cons line more ih =>
    obtain ⟨written, others⟩ := List.forall_mem_cons.1 nonempty
    have later : ∀ line ∈ more.dropLast, line.getLast? = some '\n' := by
      intro other member
      cases more with
      | nil => cases member
      | cons second more => exact ended other (List.mem_cons_of_mem line member)
    have rest : Text.indentLines s.indent.toList (Text.startsLine m.lineStart line) more =
        more.flatMap (s.indent.toList ++ ·) := by
      cases more with
      | nil => rfl
      | cons second more =>
        rw [Text.startsLine, ended line List.mem_cons_self]
        exact Text.indentLines_true _
    rw [List.map_cons, run_steps_text, endsLine_ofList line written m.lineStart, ih _ others later]
    dsimp only
    rw [rest, List.flatten_cons, Text.startsLine_append, Text.indentLines]
    refine Prod.ext (congrArg Except.ok ?_) rfl
    cases m.lineStart <;> simp [String.append_assoc]

end Stage

variable {known : Engine → String → Prop} {s : Stage} {levels : Nat} {sec : Section} {d : Delimiters}

theorem run_recompile (running : s.nested = run s.env (levels + 1)) (opening : sec.opening = d.opening)
    (changeTag : sec.changeTag = d.changeTag?) {text : String}
    (untagged : Text.contains sec.opening text.toList = false) {m : Machine}
    (below : m.depth < s.env.engine.maxDepth) (genuine : Genuine known m.store)
    (there : known s.env.engine (d.lead ++ text)) (apart : Apart known s.env.engine (d.lead ++ text)) :
    ∃ store, store.calls = m.store.calls ∧ (s.recompile sec text).run.run m =
      (.ok (.ofList (Text.indentLines s.indent.toList m.lineStart (Text.endedLines text.toList))),
        { m with lineStart := Text.startsLine m.lineStart text.toList, store }) := by
  let e := s.env.engine
  let key := e.templateKey (d.lead ++ text)
  let lines := Text.endedLines text.toList
  let program : Program := ⟨key, d.lead ++ text, e.dialect.escape, e.dialect.strictCallables,
    lines.map fun line => .text (.ofList line), [], []⟩
  let store := ((e.fetch .lambda (d.lead ++ text)).run m.store).2
  rw [opening] at untagged
  obtain ⟨compiled, calls, -⟩ := Engine.fetch_run genuine there apart .lambda
  have fetched : (s.fetchLambda sec.changeTag text).run.run m = (.ok program, { m with store }) := by
    rw [Stage.fetchLambda, changeTag, d.fetchLambda_eq, run_fetch, compiled,
      Program.compile_untagged e.dialect key untagged]
    rfl
  let inner : Machine := { m with store, depth := m.depth + 1 }
  have ran : (run s.env (levels + 1) program program.instrs s.indent).run.run inner =
      (.ok (.ofList (Text.indentLines s.indent.toList m.lineStart lines)),
        { inner with lineStart := Text.startsLine m.lineStart lines.flatten }) :=
    Stage.run_steps_lines inner (fun line => Text.ne_nil_of_mem_endedLines)
      fun line => Text.getLast?_of_mem_dropLast_endedLines
  rw [Text.flatten_endedLines] at ran
  refine ⟨store, calls, ?_⟩
  rw [Stage.recompile, run_bind, fetched]
  dsimp only
  rw [Stage.invoke, running, run_deeper, if_neg (Nat.not_le_of_lt below), ran]
  rfl

/-- A text without a tag that a lambda has made of a section is written as it is. It leaves the same line
start behind as if it were compiled and run. What it writes is the same as well just if there is no indent or
at most one line: as it is, the text has the indent only before its first line. -/
theorem append_against_recompile (running : s.nested = run s.env (levels + 1)) (opening : sec.opening = d.opening)
    (changeTag : sec.changeTag = d.changeTag?) {text : String}
    (untagged : Text.contains sec.opening text.toList = false) {m : Machine}
    (below : m.depth < s.env.engine.maxDepth) (genuine : Genuine known m.store)
    (there : known s.env.engine (d.lead ++ text)) (apart : Apart known s.env.engine (d.lead ++ text)) :
    let appended := (s.append text).run.run m
    let recompiled := (s.recompile sec text).run.run m
    let lines := Text.endedLines text.toList
    let first := if m.lineStart && !lines.isEmpty then s.indent.toList else []
    (∀ handle entry, (s.answered sec handle).run.run entry = (.ok text, m) →
        (s.enclose sec handle).run.run entry = appended) ∧
      (∃ store, store.calls = m.store.calls ∧ recompiled.2 = { appended.2 with store }) ∧
      appended.2 = { m with lineStart := Text.startsLine m.lineStart text.toList } ∧
      appended.1 = .ok (.ofList (first ++ text.toList)) ∧
      recompiled.1 = .ok (.ofList (Text.indentLines s.indent.toList m.lineStart lines)) ∧
      (appended.1 = recompiled.1 ↔ s.indent = "" ∨ lines.length ≤ 1) := by
  intro appended recompiled lines first
  obtain ⟨store, calls, ran⟩ := run_recompile running opening changeTag untagged below genuine there apart
  have written : appended = _ := Stage.run_append m text
  have outcome : recompiled.1 = _ := congrArg Prod.fst ran
  have machine : recompiled.2 = _ := congrArg Prod.snd ran
  refine ⟨?_, ⟨store, calls, ?_⟩, congrArg Prod.snd written, congrArg Prod.fst written, outcome, ?_⟩
  · intro handle entry made
    rw [Stage.enclose_eq, run_bind, made]
    dsimp only
    rw [untagged, if_neg Bool.false_ne_true]
  · rw [machine, written]
  · have whole := Text.flatten_endedLines text.toList
    have same := @Text.indent_append_flatten_iff s.indent.toList m.lineStart lines
    rw [whole] at same
    rw [outcome, written, Except.ok.injEq, String.ofList_inj, same, String.toList_eq_nil_iff]

/-- A text of two lines under an indent and other delimiters. -/
theorem append_against_recompile_two_lines :
    let env : Env := ⟨{}, [], ({} : Registry).lambdas⟩
    let s : Stage := ⟨env, ⟨default, "", .custom, false, [], [], []⟩, "  ", fun _ => pure "", run env 1⟩
    let d : Delimiters := ⟨['<', '%'], ['%', '>'], by decide, by decide⟩
    let sec : Section := ⟨⟨0, 0⟩, "", d.changeTag?, d.opening, []⟩
    let m : Machine := ⟨[], [], 0, true, {}⟩
    ((s.append "a\n\x7b\x7bb").run.run m).1 = .ok "  a\n\x7b\x7bb" ∧
      ((s.recompile sec "a\n\x7b\x7bb").run.run m).1 = .ok "  a\n  \x7b\x7bb" := by
  intro env s d sec m
  let known (e : Engine) (source : String) : Prop := e = env.engine ∧ source = d.lead ++ "a\n\x7b\x7bb"
  have apart : Apart known env.engine (d.lead ++ "a\n\x7b\x7bb") := by
    rintro e source ⟨rfl, rfl⟩ -
    exact ⟨rfl, rfl⟩
  obtain ⟨-, -, -, appended, recompiled, -⟩ := append_against_recompile (show s.nested = run s.env 1 from rfl)
    (show sec.opening = d.opening from rfl) rfl (by decide) (show m.depth < s.env.engine.maxDepth by decide)
    (Genuine.fresh []) ⟨rfl, rfl⟩ apart
  refine ⟨appended.trans ?_, recompiled.trans ?_⟩
  · decide
  · decide

/-- Under an indent a text of two lines is written in two ways. -/
theorem append_ne_recompile :
    let env : Env := ⟨{}, [], ({} : Registry).lambdas⟩
    let s : Stage := ⟨env, ⟨default, "", .custom, false, [], [], []⟩, "  ", fun _ => pure "", run env 1⟩
    let sec : Section := ⟨⟨0, 0⟩, "", Delimiters.default.changeTag?, Delimiters.default.opening, []⟩
    let m : Machine := ⟨[], [], 0, true, {}⟩
    Text.contains sec.opening "a\nb".toList = false ∧ m.depth < s.env.engine.maxDepth ∧
      ((s.append "a\nb").run.run m).1 = .ok "  a\nb" ∧
      ((s.recompile sec "a\nb").run.run m).1 = .ok "  a\n  b" := by
  decide +kernel

end Mustache.Render
