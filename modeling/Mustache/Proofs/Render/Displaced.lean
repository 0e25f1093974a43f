import Mustache.Lambda.Script
import Mustache.Proofs.Render.Faultless
import Mustache.Proofs.Render.Strokes

/-! What is rendered in place of a value, in the machine of the tag, against the same rendered by
itself. The one is a level deeper than the other, and starts where the line of the tag stands. -/
namespace Mustache.Render

/-- No indent is written at a line start that something else has left. -/
def Stroke.Own (stroke : Stroke) : Prop :=
  match stroke.deed with
  | .write indent => stroke.pen.inherited = true → indent = ""
  | .refuse | .other => True

instance : DecidablePred Stroke.Own
  | ⟨pen, _, .write indent⟩ => inferInstanceAs (Decidable (pen.inherited = true → indent = ""))
  | ⟨_, _, .refuse⟩ | ⟨_, _, .other⟩ => .isTrue trivial

theorem Stroke.Own.of_fresh {stroke : Stroke} (fresh : stroke.pen.inherited = false) : stroke.Own := by
  unfold Stroke.Own
  split
  · exact fun inherited => absurd (fresh.symm.trans inherited) Bool.false_ne_true
  · trivial
  · trivial

/-- A stroke is the same by itself: nothing is refused for its depth either. -/
def Stroke.Free (stroke : Stroke) : Prop := stroke.deed ≠ .refuse ∧ stroke.Own

/-- From a line start of its own nothing comes to one that something else has left. -/
def Fresh (sheet : Machine → Pen → Sheet) : Prop :=
  ∀ m pen, pen.inherited = false →
    (∀ stroke ∈ (sheet m pen).strokes, stroke.pen.inherited = false) ∧ (sheet m pen).pen.inherited = false

theorem Fresh.still (deed : Deed) : Fresh (.still deed) :=
  fun _ _ fresh => ⟨List.forall_mem_singleton.2 fresh, fresh⟩

theorem fresh_plan {s : Stage} {t : Scribes} (each : s.Each (fun _ => Fresh) t) {α : Type} (plan : Plan α) :
    Fresh (plan.sheet s t) := by
  induction plan with
  | bind first next ih ih' =>
    intro m pen fresh
    obtain ⟨strokes, after⟩ := ih m pen fresh
    show (∀ stroke ∈ ((first >>= next).sheet s t m pen).strokes, stroke.pen.inherited = false) ∧
      ((first >>= next).sheet s t m pen).pen.inherited = false
    rw [Plan.sheet_bind]
    generalize (first.act s).run.run m = ran
    obtain ⟨cause | a, m'⟩ := ran
    · exact ⟨strokes, after⟩
    · obtain ⟨strokes', after'⟩ := ih' a m' _ after
      exact ⟨List.forall_mem_append.2 ⟨strokes, strokes'⟩, after'⟩
  | put text ends => exact fun m pen fresh => ⟨List.forall_mem_singleton.2 fresh, rfl⟩
  | located span inner ih => exact ih
  | observed inner ih => exact ih
  | keepingLineStart inner ih => exact fun m pen fresh => ⟨(ih m { pen with buffer := "" } fresh).1, fresh⟩
  | aside inner ih => exact fun m pen fresh => ⟨(ih m pen fresh).1, fresh⟩
  | within frame sec => exact fun m pen fresh => each.body sec { m with frames := frame :: m.frames } pen fresh
  | invoke invocation program instrs indent =>
    intro m pen fresh
    have sheet : (Plan.invoke invocation program instrs indent).sheet s t m pen =
        if s.env.engine.maxDepth ≤ m.depth then .still .refuse m pen
        else t.nested program instrs indent (m.enter invocation) pen := rfl
    rw [sheet]
    split
    · exact Fresh.still .refuse m pen fresh
    · exact each.nested program instrs indent (m.enter invocation) pen fresh
  | answer program =>
    exact fun m pen fresh => each.nested program program.instrs "" { m with lineStart := true } ⟨"", false⟩ rfl
  | pure | stop | reach | find | given | record | fetch => exact .still .other

theorem fresh_sheetOfRun (env : Env) (levels : Nat) (program : Program) (instrs : List Instr) (indent : String) :
    Fresh (sheetOfRun env levels program instrs indent) :=
  @holds_sheetOfRun (fun _ => Fresh) (.still .other) (fun _ _ each _ => fresh_plan each _) env levels program
    instrs indent

/-- A machine one level deeper, in the middle of a line if the line start is none of its own. -/
def Machine.lifted (inherited : Bool) (m : Machine) : Machine :=
  { m with depth := m.depth + 1, lineStart := if inherited then false else m.lineStart }

/-- What has been run in a lifted machine, against the same in the machine itself. -/
structure Lifted {α : Type} (depth : Nat) (inherited : Bool) (ran' ran : Except Stop α × Machine) : Prop where
  same : ran' = (ran.1, ran.2.lifted inherited)
  depth : ran.2.depth = depth

def Lifts {α : Type} (action : Act α) (sheet : Machine → Pen → Sheet) : Prop :=
  ∀ m pen, let lifted := m.lifted pen.inherited
    (∀ stroke ∈ (sheet lifted pen).strokes, stroke.Free) →
      Lifted m.depth (sheet lifted pen).pen.inherited (action.run.run lifted) (action.run.run m)

namespace Lifts

/-- Something that neither writes nor goes by the depth or the line start. -/
theorem still {α : Type} {action : Act α} {deed : Deed}
    (same : ∀ m inherited, Lifted m.depth inherited (action.run.run (m.lifted inherited)) (action.run.run m)) :
    Lifts action (.still deed) :=
  fun m pen _ => same m pen.inherited

theorem andFinally {α : Type} {action : Act α} {sheet : Machine → Pen → Sheet} (lifts : Lifts action sheet)
    {cleanup : Act Unit}
    (same : ∀ m inherited, Lifted m.depth inherited (cleanup.run.run (m.lifted inherited)) (cleanup.run.run m)) :
    Lifts (Render.andFinally action cleanup) sheet := by
  intro m pen lifted free
  obtain ⟨ran, depth⟩ := lifts m pen free
  rw [run_andFinally, run_andFinally, ran]
  generalize action.run.run m = ended at *
  obtain ⟨result, m'⟩ := ended
  obtain ⟨cleaned, kept⟩ := same m' (sheet lifted pen).pen.inherited
  dsimp only at *
  rw [cleaned]
  generalize cleanup.run.run m' = ended at *
  obtain ⟨_ | _, m''⟩ := ended <;> exact ⟨rfl, kept.trans depth⟩

end Lifts

theorem lifted_popFrame (m : Machine) (inherited : Bool) :
    Lifted m.depth inherited (popFrame.run.run (m.lifted inherited)) (popFrame.run.run m) := by
  unfold popFrame
  rw [run_bind, run_get, run_bind, run_get]
  obtain ⟨frames, overlay, depth, lineStart, store⟩ := m
  cases frames <;> exact ⟨rfl, rfl⟩

theorem lifted_popOverlay (m : Machine) (inherited : Bool) :
    Lifted m.depth inherited (popOverlay.run.run (m.lifted inherited)) (popOverlay.run.run m) := by
  unfold popOverlay
  rw [run_bind, run_get, run_bind, run_get]
  obtain ⟨frames, overlay, depth, lineStart, store⟩ := m
  cases overlay <;> exact ⟨rfl, rfl⟩

theorem Lifts.invoke {action : Act String} {sheet : Machine → Pen → Sheet} (lifts : Lifts action sheet)
    (limit : Nat) (invocation : Invocation) :
    Lifts (deeper limit (Plan.entering invocation action)) fun m pen =>
      if limit ≤ m.depth then .still .refuse m pen else sheet (m.enter invocation) pen := by
  intro m pen lifted free
  by_cases full : limit ≤ lifted.depth
  · dsimp only at free
    rw [if_pos full] at free
    exact absurd rfl (List.forall_mem_singleton.1 free).1
  dsimp only at free ⊢
  rw [if_neg full] at free ⊢
  -- what is not refused in the deeper machine is not refused in the other one
  have below : ¬limit ≤ m.depth := fun reached => full (Nat.le_succ_of_le reached)
  have entered : Lifted (m.depth + 1) (sheet (lifted.enter invocation) pen).pen.inherited
      ((Plan.entering invocation action).run.run { lifted with depth := lifted.depth + 1 })
      ((Plan.entering invocation action).run.run { m with depth := m.depth + 1 }) := by
    cases invocation with
    | parent program name given =>
      exact lifts.andFinally lifted_popOverlay (m.enter (.parent program name given)) pen free
    | _ => exact lifts { m with depth := m.depth + 1 } pen free
  obtain ⟨ran, depth⟩ := entered
  rw [run_deeper, run_deeper, if_neg full, if_neg below, ran]
  generalize (Plan.entering invocation action).run.run { m with depth := m.depth + 1 } = ended at depth ⊢
  obtain ⟨result, frames, overlay, deep, lineStart, store⟩ := ended
  cases depth
  exact ⟨rfl, rfl⟩

theorem lifts_plan {s : Stage} {t : Scribes} (lifts : s.Each Lifts t) {α : Type} (plan : Plan α) :
    Lifts (plan.act s) (plan.sheet s t) := by
  induction plan with
  | bind first next ih ih' =>
    intro m pen lifted free
    show Lifted _ ((first >>= next).sheet s t lifted pen).pen.inherited
      (((first >>= next).act s).run.run lifted) (((first >>= next).act s).run.run m)
    have free : ∀ stroke ∈ ((first >>= next).sheet s t lifted pen).strokes, stroke.Free := free
    rw [Plan.run_act_bind, Plan.run_act_bind]
    rw [Plan.sheet_bind] at free ⊢
    have started := ih m pen
    dsimp only at started
    generalize (first.act s).run.run lifted = ran' at *
    generalize (first.act s).run.run m = ran at *
    obtain ⟨cause | a, m'⟩ := ran'
    · obtain ⟨same, depth⟩ := started free
      obtain ⟨cause | a, m''⟩ := ran <;> cases same
      exact ⟨rfl, depth⟩
    · obtain ⟨free, free'⟩ := List.forall_mem_append.1 free
      obtain ⟨same, depth⟩ := started free
      obtain ⟨cause | a, m''⟩ := ran <;> cases same
      obtain ⟨same', depth'⟩ := ih' a m'' _ free'
      exact ⟨same', depth'.trans depth⟩
  | put text ends =>
    intro m pen lifted free
    -- only at an inherited line start the two machines differ, and there no indent is written
    have home : pen.inherited = true → s.indent = "" := (List.forall_mem_singleton.1 free).2
    have first : (if lifted.lineStart then s.indent ++ text else text) =
        if m.lineStart then s.indent ++ text else text := by
      by_cases inherited : pen.inherited
      · rw [home inherited, String.empty_append, ite_self, ite_self]
      · have kept : lifted.lineStart = m.lineStart := if_neg inherited
        rw [kept]
    refine ⟨?_, rfl⟩
    let after : Machine := { m with depth := m.depth + 1, lineStart := ends }
    exact congrArg (fun text => (Except.ok text, after)) first
  | located span inner ih =>
    intro m pen lifted free
    obtain ⟨ran, depth⟩ := ih m pen free
    show Lifted _ _ ((Render.located s.program.source span (inner.act s)).run.run lifted)
      ((Render.located s.program.source span (inner.act s)).run.run m)
    rw [run_located, run_located, ran]
    exact ⟨rfl, depth⟩
  | observed inner ih =>
    intro m pen lifted free
    obtain ⟨ran, depth⟩ := ih m pen free
    show Lifted _ _ ((Render.observed (inner.act s)).run.run lifted)
      ((Render.observed (inner.act s)).run.run m)
    rw [run_observed, run_observed, ran]
    exact ⟨rfl, depth⟩
  | keepingLineStart inner ih =>
    intro m pen lifted free
    obtain ⟨ran, depth⟩ := ih m { pen with buffer := "" } free
    let keep (lineStart : Bool) : Act Unit := modify fun ended => { ended with lineStart }
    show Lifted _ _ ((andFinally (inner.act s) (keep lifted.lineStart)).run.run lifted)
      ((andFinally (inner.act s) (keep m.lineStart)).run.run m)
    rw [run_andFinally, run_andFinally, ran]
    exact ⟨rfl, depth⟩
  | aside inner ih =>
    intro m pen lifted free
    obtain ⟨ran, -⟩ := ih m pen free
    let restore (before : Machine) : Act Unit := modify fun ended => { before with store := ended.store }
    show Lifted _ _ ((andFinally (inner.act s) (restore lifted)).run.run lifted)
      ((andFinally (inner.act s) (restore m)).run.run m)
    rw [run_andFinally, run_andFinally, ran]
    exact ⟨rfl, rfl⟩
  | within frame sec =>
    intro m pen lifted free
    exact (lifts.body sec).andFinally lifted_popFrame { m with frames := frame :: m.frames } pen free
  | invoke invocation program instrs indent =>
    exact (lifts.nested program instrs indent).invoke s.env.engine.maxDepth invocation
  | answer program =>
    intro m pen lifted free
    exact lifts.nested program program.instrs "" { m with lineStart := true } ⟨"", false⟩ free
  | fetch origin source =>
    refine .still fun m inherited => ?_
    show Lifted m.depth inherited ((inStore (s.env.engine.fetch origin source) >>= Render.ofExcept).run.run _)
      ((inStore (s.env.engine.fetch origin source) >>= Render.ofExcept).run.run m)
    rw [run_fetch, run_fetch]
    exact ⟨rfl, rfl⟩
  | pure | stop | reach | find | given | record => exact .still fun m inherited => ⟨rfl, rfl⟩

theorem lifts_sheetOfRun (env : Env) (levels : Nat) (program : Program) (instrs : List Instr)
    (indent : String) :
    Lifts (run env levels program instrs indent) (sheetOfRun env levels program instrs indent) :=
  holds_sheetOfRun (.still fun _ _ => ⟨rfl, rfl⟩) (fun _ _ lifts _ => lifts_plan lifts _) env levels program
    instrs indent

/-! ### In place of a value -/

/-- What is written for a lambda in place of a value, stroke by stroke. In the middle of a line, the line
start is inherited from the text before the tag. -/
def Stage.strokesFor (s : Stage) (levels : Nat) (span : Span) (v : Value) (m : Machine) : List Stroke :=
  let t : Scribes := ⟨fun _ => .still .other, sheetOfRun s.env levels⟩
  ((s.place.resolve span v).sheet s t m ⟨"", !m.lineStart⟩).strokes

/-- What is fetched aside is only kept. -/
theorem Stage.renderFor_eq (s : Stage) (sec : Section) (text : String) :
    s.renderFor sec text =
      s.fetchLambda sec.changeTag text >>= fun program => aside ((Plan.answer program).act s) := by
  funext m
  let restore (before : Machine) : Act Unit := modify fun ended => { before with store := ended.store }
  let answer (program : Program) : Act String := (Plan.answer program).act s
  have fetched : (s.fetchLambda sec.changeTag text).run.run m = _ :=
    run_fetch s.env.engine .lambda _ m
  show (andFinally (s.fetchLambda sec.changeTag text >>= answer) (restore m)).run.run m =
    (s.fetchLambda sec.changeTag text >>= fun program => aside (answer program)).run.run m
  rw [run_andFinally, run_bind, run_bind, fetched]
  cases ((s.env.engine.fetch .lambda _).run m.store).1 with
  | error e => rfl
  | ok program =>
    show _ = (andFinally (answer program) (restore _)).run.run _
    rw [run_andFinally]
    rfl

/-- Two actions do the same if the strokes of the first one are free, where the line start is inherited in
the middle of a line. -/
def SameAlone {α : Type} (sheet : Machine → Pen → Sheet) (action action' : Act α) : Prop :=
  ∀ m pen, pen.inherited = !m.lineStart → (∀ stroke ∈ (sheet m pen).strokes, stroke.Free) →
    action.run.run m = action'.run.run m

theorem SameAlone.after {s : Stage} {t : Scribes} {α β : Type} {first : Plan α} (silent : first.Silent)
    {next : α → Plan β} {next' : α → Act β}
    (same : ∀ a, SameAlone ((next a).sheet s t) ((next a).act s) (next' a)) :
    SameAlone ((first >>= next).sheet s t) ((first >>= next).act s) (first.act s >>= next') := by
  intro m pen left free
  have kept := (silent.run s ⟨fun _ _ => [], fun _ _ _ _ => []⟩ m).2
  rw [Plan.sheet_bind] at free
  rw [Plan.run_act_bind, run_bind]
  generalize (first.act s).run.run m = ran at *
  obtain ⟨cause | a, m'⟩ := ran
  · rfl
  · refine same a m' pen (left.trans (congrArg (!·) kept.symm)) fun stroke member => ?_
    rw [← silent.sheet s t m pen] at member
    exact free stroke (List.mem_append_right _ member)

theorem SameAlone.map {s : Stage} {t : Scribes} {α β : Type} {plan : Plan α} {action : Act α}
    (same : SameAlone (plan.sheet s t) (plan.act s) action) (f : α → β) :
    SameAlone ((plan >>= fun a => (pure (f a) : Plan β)).sheet s t)
      ((plan >>= fun a => (pure (f a) : Plan β)).act s) (action >>= fun a => pure (f a)) := by
  intro m pen left free
  have free' : ∀ stroke ∈ (plan.sheet s t m pen).strokes, stroke.Free := by
    rw [Plan.sheet_bind] at free
    generalize (plan.act s).run.run m = ran at free
    obtain ⟨cause | a, m'⟩ := ran
    · exact free
    · exact fun stroke member => free stroke (List.mem_append_left _ member)
  rw [Plan.run_act_bind, run_bind, same m pen left free']
  rfl

theorem sameAlone_invoke {s : Stage} {levels : Nat} (running : s.nested = run s.env levels) (program : Program) :
    let inner := Plan.invoke .lambda program program.instrs ""
    SameAlone ((Plan.keepingLineStart inner).sheet s ⟨fun _ => .still .other, sheetOfRun s.env levels⟩)
      ((Plan.keepingLineStart inner).act s) (aside ((Plan.answer program).act s)) := by
  intro inner m pen left free
  have sheet : ((Plan.keepingLineStart inner).sheet s ⟨fun _ => .still .other, sheetOfRun s.env levels⟩
      m pen).strokes = (if s.env.engine.maxDepth ≤ m.depth then Sheet.still .refuse m { pen with buffer := "" }
        else sheetOfRun s.env levels program program.instrs "" (m.enter .lambda) { pen with buffer := "" }).strokes :=
    rfl
  rw [sheet] at free
  by_cases full : s.env.engine.maxDepth ≤ m.depth
  · rw [if_pos full] at free
    exact absurd rfl (List.forall_mem_singleton.1 free).1
  rw [if_neg full] at free
  -- the same machine, by itself
  let alone : Machine := { m with lineStart := true }
  have lifted : alone.lifted pen.inherited = m.enter .lambda := by
    unfold Machine.lifted Machine.enter
    rw [left]
    cases m.lineStart <;> rfl
  have ran := lifts_sheetOfRun s.env levels program program.instrs "" alone { pen with buffer := "" }
  have steady := steady_run s.env levels program program.instrs "" alone
  dsimp only at ran
  rw [lifted] at ran
  have ran := (ran free).same
  let keep : Act Unit := modify fun ended => { ended with lineStart := m.lineStart }
  let restore : Act Unit := modify fun ended => { m with store := ended.store }
  show (andFinally (deeper s.env.engine.maxDepth (s.nested program program.instrs "")) keep).run.run m =
    (andFinally ((Plan.answer program).act s) restore).run.run m
  have answered : ((Plan.answer program).act s).run.run m =
      (run s.env levels program program.instrs "").run.run alone := by
    rw [← running]
    rfl
  have entered : (run s.env levels program program.instrs "").run.run { m with depth := m.depth + 1 } = _ := ran
  rw [run_andFinally, run_andFinally, run_deeper, if_neg full, running, answered, entered]
  generalize (run s.env levels program program.instrs "").run.run alone = ended at steady ⊢
  obtain ⟨result, frames, overlay, depth, lineStart, store⟩ := ended
  obtain ⟨rfl, rfl, rfl, -⟩ := steady
  rfl

/-- A lambda in place of a value is the text that it returns, rendered by itself in the frames and with the
arguments in force, as a lambda around a section has a text rendered. It does not matter how deeply it
stands or what is written before it, as long as nothing is refused for its depth, but for one thing: if
the tag is not at the start of a line, then until something is written, what is called under an indent
goes without it. Where no indent is lost in this way both are shown to be the same; that they can differ
where one is, the example below shows for one text. -/
theorem resolve_as_rendered {s : Stage} {levels : Nat} (running : s.nested = run s.env levels) (span : Span)
    {v : Value} {handle : Lambda} (callable : v.callable? s.program.strictCallables = some handle)
    {sec : Section} (default : sec.changeTag = none) {m : Machine}
    (unrefused : ∀ stroke ∈ s.strokesFor levels span v m, stroke.deed ≠ .refuse)
    (own : m.lineStart = false → ∀ stroke ∈ s.strokesFor levels span v m, stroke.Own) :
    (s.resolve span v).run.run m = (do
      let result ← located s.program.source span (callInterpolation s.env.lambdas handle)
      let text ← s.textOf span result
      let rendered ← s.renderFor sec text
      pure (.string rendered) : Act Value).run.run m := by
  let t : Scribes := ⟨fun _ => .still .other, sheetOfRun s.env levels⟩
  let call : Plan Value := .located span (Plan.callInterpolation s.env.lambdas handle)
  let rendered (text : String) : Plan Value := Plan.fetchLambda none text >>= fun program =>
    Plan.keepingLineStart (.invoke .lambda program program.instrs "") >>= fun rendered => pure (.string rendered)
  have planned : s.place.resolve span v = call >>= fun result => s.place.textOf span result >>= rendered := by
    unfold Place.resolve
    have callable : v.callable? s.place.program.strictCallables = some handle := callable
    rw [callable]
    rfl
  have alone (text : String) : SameAlone ((rendered text).sheet s t) ((rendered text).act s)
      (s.renderFor sec text >>= fun rendered => pure (.string rendered)) := by
    rw [Stage.renderFor_eq, bind_assoc, default]
    have fetched : (Plan.fetchLambda none text).Silent := trivial
    exact .after fetched fun program => (sameAlone_invoke running program).map _
  have called : call.Silent := Plan.silent_callInterpolation _ handle
  have whole : SameAlone ((s.place.resolve span v).sheet s t) ((s.place.resolve span v).act s) (do
      let result ← located s.program.source span (callInterpolation s.env.lambdas handle)
      let text ← s.textOf span result
      let rendered ← s.renderFor sec text
      pure (.string rendered)) := by
    have acted : call.act s = located s.program.source span (callInterpolation s.env.lambdas handle) :=
      congrArg (located _ _) (Plan.act_callInterpolation s _ handle)
    rw [planned, ← acted]
    refine .after called fun result => ?_
    rw [← Place.act_textOf]
    exact .after (s.place.silent_textOf span result) alone
  have free (stroke : Stroke) (member : stroke ∈ s.strokesFor levels span v m) : stroke.Free := by
    refine ⟨unrefused stroke member, ?_⟩
    cases start : m.lineStart with
    | false => exact own start stroke member
    | true =>
      have each : s.Each (fun _ => Fresh) t := ⟨fun _ => .still .other, fresh_sheetOfRun s.env levels⟩
      have fresh := (fresh_plan each (s.place.resolve span v) m ⟨"", !m.lineStart⟩ (congrArg (!·) start)).1
      exact .of_fresh (fresh stroke member)
  rw [← Place.act_resolve]
  exact whole m ⟨"", !m.lineStart⟩ rfl free

/-- A partial with an indent on the second line of what a lambda returns, in the middle of a line. -/
theorem resolve_as_rendered_second_line :
    let registry := ({} : Registry).add (Script.always (.string "y\n  \x7b\x7b>p\x7d\x7d\n")).behaviour
    let env : Env := ⟨{ partials := some (.fixed [("p", "x")]) }, [], registry.2.lambdas⟩
    let s : Stage := ⟨env, ⟨default, "", .custom, false, [], [], []⟩, "", fun _ => pure "", run env 2⟩
    let m : Machine := ⟨[], [], 0, false, {}⟩
    let outcome := ((s.resolve ⟨0, 0⟩ (.lambda registry.1)).run.run m).1
    outcome.map Value.text? = .ok (.ok "y\n  x") := by
  intro registry env s m outcome
  let sec : Section := ⟨⟨0, 0⟩, "", none, Delimiters.default.opening, []⟩
  have strokes : ∀ stroke ∈ s.strokesFor 2 ⟨0, 0⟩ (.lambda registry.1) m,
      stroke.deed ≠ .refuse ∧ stroke.Own := by
    decide +kernel
  have same := resolve_as_rendered (show s.nested = run s.env 2 from rfl) ⟨0, 0⟩
    (show (Value.lambda registry.1).callable? s.program.strictCallables = some registry.1 from rfl)
    (show sec.changeTag = none from rfl) (fun stroke member => (strokes stroke member).1)
    fun _ stroke member => (strokes stroke member).2
  have rendered : outcome = _ := congrArg Prod.fst same
  rw [rendered]
  decide +kernel

/-- On the first line the indent is lost in the middle of a line. -/
example :
    let text := "  \x7b\x7b>p\x7d\x7d\n"
    let registry := ({} : Registry).add (Script.always (.string text)).behaviour
    let env : Env := ⟨{ partials := some (.fixed [("p", "x")]) }, [], registry.2.lambdas⟩
    let s : Stage := ⟨env, ⟨default, "", .custom, false, [], [], []⟩, "", fun _ => pure "", run env 2⟩
    let sec : Section := ⟨⟨0, 0⟩, "", none, Delimiters.default.opening, []⟩
    let m : Machine := ⟨[], [], 0, false, {}⟩
    ((s.resolve ⟨0, 0⟩ (.lambda registry.1)).run.run m).1.map Value.text? = .ok (.ok "x") ∧
      ((s.renderFor sec text).run.run m).1 = .ok "  x" := by
  decide +kernel

end Mustache.Render
