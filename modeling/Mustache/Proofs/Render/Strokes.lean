import Mustache.Proofs.Render.Indented

/-! Runs with the buffer that they write, stroke by stroke. What is rendered in place of a value or for
a lambda is written to a buffer of its own. -/
namespace Mustache.Render

inductive Deed
  /-- Writes a text, after the indent if it starts a line. -/
  | write (indent : String)
  /-- Refuses what would be nested too deeply. -/
  | refuse
  | other
  deriving DecidableEq

/-- The state of the writing beside the machine. -/
structure Pen where
  buffer : String
  /-- Whether the line start is still one that something else has left. -/
  inherited : Bool

structure Stroke where
  pen : Pen
  lineStart : Bool
  deed : Deed

/-- What has been written, stroke by stroke, and the pen afterwards. -/
structure Sheet where
  strokes : List Stroke
  pen : Pen

/-- How bodies, and what is nested one level deeper, are written. -/
structure Scribes where
  body : Section → Machine → Pen → Sheet
  nested : Program → List Instr → String → Machine → Pen → Sheet

/-- More strokes after something has been run, unless it has stopped. -/
def Sheet.continued {α : Type} (before : Sheet) (more : α → Machine → Pen → Sheet) :
    Except Stop α × Machine → Sheet
  | (.ok a, m) => ⟨before.strokes ++ (more a m before.pen).strokes, (more a m before.pen).pen⟩
  | (.error _, _) => before

/-- One stroke that leaves the pen as it is. -/
def Sheet.still (deed : Deed) (m : Machine) (pen : Pen) : Sheet := ⟨[⟨pen, m.lineStart, deed⟩], pen⟩

def Plan.sheet (s : Stage) (t : Scribes) : {α : Type} → Plan α → Machine → Pen → Sheet
  | _, .bind first next, m, pen =>
    (sheet s t first m pen).continued (fun a => sheet s t (next a)) ((first.act s).run.run m)
  | _, .put text _, m, pen =>
    ⟨[⟨pen, m.lineStart, .write s.indent⟩],
      ⟨pen.buffer ++ (if m.lineStart then s.indent ++ text else text), false⟩⟩
  | _, .located _ inner, m, pen => sheet s t inner m pen
  | _, .observed inner, m, pen => sheet s t inner m pen
  | _, .keepingLineStart inner, m, pen => ⟨(sheet s t inner m { pen with buffer := "" }).strokes, pen⟩
  | _, .aside inner, m, pen => ⟨(sheet s t inner m pen).strokes, pen⟩
  | _, .within frame sec, m, pen => t.body sec { m with frames := frame :: m.frames } pen
  | _, .invoke invocation program instrs indent, m, pen =>
    if s.env.engine.maxDepth ≤ m.depth then .still .refuse m pen
    else t.nested program instrs indent (m.enter invocation) pen
  | _, .answer program, m, _ =>
    t.nested program program.instrs "" { m with lineStart := true } ⟨"", false⟩
  | _, .pure _, m, pen | _, .stop _, m, pen | _, .reach _, m, pen | _, .find _, m, pen
  | _, .given _, m, pen | _, .record _, m, pen | _, .fetch _ _, m, pen => .still .other m pen

namespace Plan

variable {α β : Type} (s : Stage) (t : Scribes)

theorem run_act_bind (first : Plan α) (next : α → Plan β) (m : Machine) :
    ((first >>= next).act s).run.run m =
      match (first.act s).run.run m with
      | (.ok a, m') => ((next a).act s).run.run m'
      | (.error cause, m') => (.error cause, m') :=
  run_bind m (first.act s) fun a => (next a).act s

theorem sheet_bind (first : Plan α) (next : α → Plan β) (m : Machine) (pen : Pen) :
    (first >>= next).sheet s t m pen =
      (first.sheet s t m pen).continued (fun a => (next a).sheet s t) ((first.act s).run.run m) := rfl

end Plan

/-- What is silent leaves the pen as it is. -/
theorem Plan.Silent.sheet {α : Type} {plan : Plan α} (silent : plan.Silent) (s : Stage) (t : Scribes)
    (m : Machine) (pen : Pen) : (plan.sheet s t m pen).pen = pen := by
  induction plan generalizing m pen with
  | bind first next ih ih' =>
    show ((first >>= next).sheet s t m pen).pen = pen
    rw [sheet_bind]
    generalize (first.act s).run.run m = ran
    obtain ⟨_ | a, m'⟩ := ran
    · exact ih silent.1 m pen
    · exact (ih' a (silent.2 a) m' _).trans (ih silent.1 m pen)
  | located span inner ih => exact ih silent m pen
  | observed inner ih => exact ih silent m pen
  | given | put | within | invoke | answer => exact silent.elim
  | keepingLineStart | aside | pure | stop | reach | find | record | fetch => rfl

def sheetOfBody (env : Env) (runner : Runner)
    (nested : Program → List Instr → String → Machine → Pen → Sheet) (program : Program) (indent : String) : Nat → List Instr → Machine → Pen → Sheet
  | 0, _ => .still .other
  | budget + 1, instrs =>
    let body (sec : Section) := runBody env runner program indent budget sec.instrs
    let written (sec : Section) := sheetOfBody env runner nested program indent budget sec.instrs
    ((⟨env, program, indent⟩ : Place).steps instrs 0 none).sheet ⟨env, program, indent, body, runner⟩
      ⟨written, nested⟩

/-- A run with the buffer that it writes. -/
def sheetOfRun (env : Env) : Nat → Program → List Instr → String → Machine → Pen → Sheet
  | 0 => fun _ _ _ => .still .other
  | levels + 1 => fun program instrs indent =>
    sheetOfBody env (run env levels) (sheetOfRun env levels) program indent (program.source.length + 2) instrs

/-- Bodies and nested programs have a property. -/
structure Stage.Each (holds : Act String → (Machine → Pen → Sheet) → Prop) (s : Stage) (t : Scribes) :
    Prop where
  body : ∀ sec, holds (s.body sec) (t.body sec)
  nested : ∀ program instrs indent, holds (s.nested program instrs indent) (t.nested program instrs indent)

/-- What holds of instructions if it holds of all that they call for holds of runs. -/
theorem holds_sheetOfRun {holds : Act String → (Machine → Pen → Sheet) → Prop}
    (stop : holds (fail .exhausted) (.still .other))
    (steps : ∀ (s : Stage) (t : Scribes), s.Each holds t → ∀ instrs, holds ((s.place.steps instrs 0 none).act s)
      ((s.place.steps instrs 0 none).sheet s t))
    (env : Env) (levels : Nat) (program : Program) (instrs : List Instr) (indent : String) :
    holds (run env levels program instrs indent) (sheetOfRun env levels program instrs indent) := by
  induction levels generalizing program instrs indent with
  | zero => exact stop
  | succ levels ih =>
    have bodies (budget : Nat) (instrs : List Instr) :
        holds (runBody env (run env levels) program indent budget instrs)
          (sheetOfBody env (run env levels) (sheetOfRun env levels) program indent budget instrs) := by
      induction budget generalizing instrs with
      | zero => exact stop
      | succ budget ih' =>
        let body (sec : Section) := runBody env (run env levels) program indent budget sec.instrs
        let written (sec : Section) :=
          sheetOfBody env (run env levels) (sheetOfRun env levels) program indent budget sec.instrs
        let s : Stage := ⟨env, program, indent, body, run env levels⟩
        have step := steps s ⟨written, sheetOfRun env levels⟩ ⟨fun sec => ih' sec.instrs, ih⟩ instrs
        rw [Place.act_steps] at step
        exact step
    exact bodies _ instrs

/-! ### Texts that end lines -/

namespace Plan

/-- A text is only told to end a line if it does. -/
def Truthful : {α : Type} → Plan α → Prop
  | _, .bind first next => Truthful first ∧ ∀ a, Truthful (next a)
  | _, .put text ends => ends = true → Stage.endsLine text = true
  | _, .located _ inner => Truthful inner
  | _, .observed inner => Truthful inner
  | _, .keepingLineStart inner => Truthful inner
  | _, .aside inner => Truthful inner
  | _, .pure _ | _, .stop _ | _, .reach _ | _, .find _ | _, .given _ | _, .record _ | _, .fetch _ _
  | _, .within _ _ | _, .invoke _ _ _ _ | _, .answer _ => True

theorem truthful_ofExcept {α : Type} (result : Except Error α) : (ofExcept result).Truthful := by
  cases result <;> trivial

theorem truthful_callInterpolation (lambdas : Lambdas) (handle : Lambda) :
    (callInterpolation lambdas handle).Truthful := by
  unfold callInterpolation
  cases handle.shape with
  | interpolation => exact ⟨trivial, fun earlier => truthful_ofExcept _⟩
  | enclosing => trivial
  | filter => trivial

theorem truthful_callFilter (lambdas : Lambdas) (handle : Lambda) (v : Value) :
    (callFilter lambdas handle v).Truthful := by
  unfold callFilter
  cases handle.shape with
  | interpolation => exact truthful_callInterpolation lambdas handle
  | enclosing => trivial
  | filter => exact ⟨trivial, fun earlier => truthful_ofExcept _⟩

theorem truthful_converse {render : String → Plan String} (truthful : ∀ text, (render text).Truthful)
    (dialogue : Dialogue) : (converse render dialogue).Truthful := by
  induction dialogue with
  | done result => exact truthful_ofExcept result
  | render text next ih => exact ⟨truthful text, ih⟩

theorem truthful_callEnclosing (lambdas : Lambdas) {render : String → Plan String}
    (truthful : ∀ text, (render text).Truthful) (handle : Lambda) (text : String) :
    (callEnclosing lambdas render handle text).Truthful := by
  unfold callEnclosing
  cases handle.shape with
  | interpolation => exact truthful_callInterpolation lambdas handle
  | enclosing => exact ⟨trivial, fun earlier => truthful_converse truthful _⟩
  | filter => exact truthful_callFilter lambdas handle _

theorem truthful_forFrames (sec : Section) (frames : List Value) : (forFrames sec frames).Truthful := by
  induction frames with
  | nil => trivial
  | cons frame rest ih => exact ⟨trivial, fun first => ⟨ih, fun more => trivial⟩⟩

end Plan

namespace Place

variable (p : Place)

theorem truthful_textOf (span : Span) (v : Value) : (p.textOf span v).Truthful := by
  unfold textOf
  cases v.text? <;> trivial

theorem truthful_resolve (span : Span) (v : Value) : (p.resolve span v).Truthful := by
  unfold resolve
  cases v.callable? p.program.strictCallables with
  | none => trivial
  | some handle =>
    refine ⟨Plan.truthful_callInterpolation _ handle, fun result => ⟨p.truthful_textOf span result, ?_⟩⟩
    exact fun text => ⟨trivial, fun program => ⟨trivial, fun rendered => trivial⟩⟩

theorem truthful_apply (ref : Ref) (v : Value) : (p.apply ref v).Truthful := by
  refine ⟨trivial, fun found => ?_⟩
  dsimp only
  cases found.callable? p.program.strictCallables with
  | none => trivial
  | some handle => exact Plan.truthful_callFilter _ handle v

theorem truthful_enclose (sec : Section) (handle : Lambda) : (p.enclose sec handle).Truthful := by
  have rendered (text : String) : (renderFor sec text).Truthful := ⟨trivial, fun program => trivial⟩
  refine ⟨Plan.truthful_callEnclosing _ rendered handle _, fun result => ?_⟩
  refine ⟨p.truthful_textOf _ result, fun text => ?_⟩
  beta_reduce
  split
  · exact ⟨trivial, fun program => trivial⟩
  · split
    · trivial
    · exact id

theorem truthful_repeated (key : Key) (v : Value) : (p.repeated key v).Truthful := by
  unfold Place.repeated
  cases Entries.get? key p.program.sections with
  | none => trivial
  | some sec =>
    dsimp only
    cases v.callable? p.program.strictCallables with
    | some handle => exact p.truthful_enclose sec handle
    | none =>
      dsimp only
      split
      · trivial
      · exact Plan.truthful_forFrames sec v.frames

theorem truthful_fetchPartial (name : String) : (p.fetchPartial name).Truthful := by
  unfold fetchPartial
  cases p.env.engine.partials.bind (·.load p.env.shelves name) with
  | none => trivial
  | some source => exact ⟨trivial, fun program => trivial⟩

theorem truthful_partialCall (name indent : String) : (p.partialCall name indent).Truthful := by
  refine ⟨p.truthful_fetchPartial name, fun found => ?_⟩
  cases found <;> trivial

theorem truthful_parentCall (name indent : String) (given : List (String × Key)) :
    (p.parentCall name indent given).Truthful := by
  refine ⟨p.truthful_fetchPartial name, fun found => ?_⟩
  cases found <;> trivial

theorem truthful_slot (name : String) : (slot name).Truthful := by
  refine ⟨trivial, fun found => ?_⟩
  cases found with
  | none => trivial
  | some override =>
    dsimp only
    cases Entries.get? override.key override.program.blocks with
    | none => trivial
    | some instrs => exact ⟨trivial, fun text => trivial⟩

theorem truthful_step (instr : Instr) (expression : Option Value) : (p.step instr expression).Truthful := by
  have done {α : Type} {plan : Plan α} (truthful : plan.Truthful) (outcome : α → Outcome) :
      (plan >>= fun a => pure (outcome a)).Truthful := ⟨truthful, fun a => trivial⟩
  cases instr with
  | text text => exact ⟨id, fun text => trivial⟩
  | lookup ref =>
    cases expression with
    | none => exact ⟨trivial, fun v => trivial⟩
    | some v => trivial
  | resolve span =>
    cases expression with
    | none => trivial
    | some v => exact done (p.truthful_resolve span v) _
  | apply ref =>
    cases expression with
    | none => trivial
    | some v => exact done (p.truthful_apply ref v) _
  | emit isEscaped span =>
    cases expression with
    | none => trivial
    | some v => exact ⟨p.truthful_textOf span v, fun text => ⟨nofun, fun text => trivial⟩⟩
  | «repeated» key =>
    cases expression with
    | none => trivial
    | some v => exact done (p.truthful_repeated key v) _
  | unlessEmpty skip => cases expression <;> trivial
  | partialCall name indent => exact done (p.truthful_partialCall name indent) _
  | parentCall name indent given => exact done (p.truthful_parentCall name indent given) _
  | slot name skip =>
    refine ⟨truthful_slot name, fun found => ?_⟩
    cases found <;> trivial
  | strayArgument name => trivial

theorem truthful_steps (instrs : List Instr) (skip : Nat) (expression : Option Value) :
    (p.steps instrs skip expression).Truthful := by
  induction instrs generalizing skip expression with
  | nil =>
    cases skip with
    | zero => cases expression <;> trivial
    | succ skip => trivial
  | cons instr rest ih =>
    cases skip with
    | succ skip => exact ih skip expression
    | zero =>
      refine ⟨trivial, fun _ => ⟨p.truthful_step instr expression, fun outcome => ?_⟩⟩
      exact ⟨ih _ _, fun more => trivial⟩

end Place

/-! ### Where lines start -/

/-- A text that ends a line does so wherever it starts. -/
theorem startsLine_of_endsLine {text : String} (ends : Stage.endsLine text = true) (start : Bool) :
    Text.startsLine start text.toList = true := by
  rw [endsLine_eq] at ends
  have weaker : false = true → start = true := nofun
  exact Text.startsLine_mono weaker ends

/-- Nothing has been written to the buffer, or the end of a line. -/
def Pen.AtLine (pen : Pen) : Prop := Text.startsLine true pen.buffer.toList = true

/-- Lines are started only where the buffer is empty or ends a line. -/
def Aligned {α : Type} (action : Act α) (sheet : Machine → Pen → Sheet) : Prop :=
  ∀ m pen, (m.lineStart = true → pen.AtLine) →
    (∀ stroke ∈ (sheet m pen).strokes, stroke.lineStart = true → stroke.pen.AtLine) ∧
      ((action.run.run m).2.lineStart = true → (sheet m pen).pen.AtLine)

namespace Aligned

theorem still {α : Type} {action : Act α} {deed : Deed}
    (kept : ∀ m, (action.run.run m).2.lineStart = m.lineStart) : Aligned action (.still deed) := by
  intro m pen aligned
  rw [kept]
  exact ⟨List.forall_mem_singleton.2 aligned, aligned⟩

theorem andFinally {α : Type} {action : Act α} {cleanup : Act Unit} {sheet : Machine → Pen → Sheet}
    (kept : ∀ m, (cleanup.run.run m).2.lineStart = m.lineStart) (aligned : Aligned action sheet) :
    Aligned (Render.andFinally action cleanup) sheet := by
  intro m pen before
  obtain ⟨strokes, after⟩ := aligned m pen before
  refine ⟨strokes, ?_⟩
  rw [run_andFinally]
  generalize action.run.run m = ran at *
  obtain ⟨result, m'⟩ := ran
  have same := kept m'
  dsimp only
  generalize cleanup.run.run m' = cleaned at *
  obtain ⟨_ | _, m''⟩ := cleaned <;> exact fun starts => after (same ▸ starts)

theorem entering {action : Act String} {sheet : Machine → Pen → Sheet} (aligned : Aligned action sheet)
    (invocation : Invocation) (m : Machine) (pen : Pen) (before : m.lineStart = true → pen.AtLine) :
    (∀ stroke ∈ (sheet { m with overlay := invocation.overlay m.overlay } pen).strokes,
      stroke.lineStart = true → stroke.pen.AtLine) ∧
      (((Plan.entering invocation action).run.run m).2.lineStart = true →
        (sheet { m with overlay := invocation.overlay m.overlay } pen).pen.AtLine) := by
  cases invocation with
  | parent program name keys =>
    exact aligned.andFinally popOverlay_lineStart { m with overlay := _ } pen before
  | _ => exact aligned m pen before

end Aligned

theorem aligned_plan {s : Stage} {t : Scribes} (aligned : s.Each Aligned t) {α : Type} {plan : Plan α}
    (truthful : plan.Truthful) : Aligned (plan.act s) (plan.sheet s t) := by
  induction plan with
  | bind first next ih ih' =>
    intro m pen before
    obtain ⟨strokes, after⟩ := ih truthful.1 m pen before
    show (∀ stroke ∈ ((first >>= next).sheet s t m pen).strokes,
        stroke.lineStart = true → stroke.pen.AtLine) ∧
      ((((first >>= next).act s).run.run m).2.lineStart = true → ((first >>= next).sheet s t m pen).pen.AtLine)
    rw [Plan.run_act_bind, Plan.sheet_bind]
    generalize (first.act s).run.run m = ran at *
    obtain ⟨cause | a, m'⟩ := ran
    · exact ⟨strokes, after⟩
    · obtain ⟨strokes', after'⟩ := ih' a (truthful.2 a) m' _ after
      exact ⟨List.forall_mem_append.2 ⟨strokes, strokes'⟩, after'⟩
  | put text ends =>
    intro m pen before
    refine ⟨List.forall_mem_singleton.2 before, fun ended => ?_⟩
    have starts := startsLine_of_endsLine (truthful ended)
    show Text.startsLine true (pen.buffer ++ (if m.lineStart then s.indent ++ text else text)).toList = true
    split
    · rw [String.toList_append, String.toList_append, Text.startsLine_append, Text.startsLine_append, starts]
    · rw [String.toList_append, Text.startsLine_append, starts]
  | located span inner ih =>
    intro m pen before
    obtain ⟨strokes, after⟩ := ih truthful m pen before
    refine ⟨strokes, ?_⟩
    show ((Render.located s.program.source span (inner.act s)).run.run m).2.lineStart = true → _
    rw [run_located]
    exact after
  | observed inner ih =>
    intro m pen before
    obtain ⟨strokes, after⟩ := ih truthful m pen before
    refine ⟨strokes, ?_⟩
    show ((Render.observed (inner.act s)).run.run m).2.lineStart = true → _
    rw [run_observed]
    exact after
  | keepingLineStart inner ih =>
    intro m pen before
    obtain ⟨strokes, -⟩ := ih truthful m { pen with buffer := "" } fun _ => rfl
    let cleanup : Act Unit := modify fun ended => { ended with lineStart := m.lineStart }
    refine ⟨strokes, ?_⟩
    show ((andFinally (inner.act s) cleanup).run.run m).2.lineStart = true → _
    rw [run_andFinally]
    exact before
  | aside inner ih =>
    intro m pen before
    obtain ⟨strokes, -⟩ := ih truthful m pen before
    let cleanup : Act Unit := modify fun ended => { m with store := ended.store }
    refine ⟨strokes, ?_⟩
    show ((andFinally (inner.act s) cleanup).run.run m).2.lineStart = true → _
    rw [run_andFinally]
    exact before
  | within frame sec =>
    intro m pen before
    exact (aligned.body sec).andFinally popFrame_lineStart { m with frames := frame :: m.frames } pen before
  | invoke invocation program instrs indent =>
    intro m pen before
    have sheet : (Plan.invoke invocation program instrs indent).sheet s t m pen =
        if s.env.engine.maxDepth ≤ m.depth then .still .refuse m pen
        else t.nested program instrs indent (m.enter invocation) pen := rfl
    have ran : ((Plan.invoke invocation program instrs indent).act s).run.run m = _ :=
      run_deeper s.env.engine.maxDepth (Plan.entering invocation (s.nested program instrs indent)) m
    rw [sheet, ran]
    by_cases full : s.env.engine.maxDepth ≤ m.depth
    · rw [if_pos full, if_pos full]
      exact ⟨List.forall_mem_singleton.2 before, before⟩
    · rw [if_neg full, if_neg full]
      exact (aligned.nested program instrs indent).entering invocation { m with depth := m.depth + 1 } pen before
  | answer program =>
    intro m pen _
    exact aligned.nested program program.instrs "" { m with lineStart := true } ⟨"", false⟩ fun _ => rfl
  | fetch origin source =>
    refine .still fun m => ?_
    show ((inStore (s.env.engine.fetch origin source) >>= Render.ofExcept).run.run m).2.lineStart = _
    rw [run_fetch]
  | pure | stop | reach | find | given | record => exact .still fun m => rfl

theorem aligned_sheetOfRun (env : Env) (levels : Nat) (program : Program) (instrs : List Instr)
    (indent : String) :
    Aligned (run env levels program instrs indent) (sheetOfRun env levels program instrs indent) :=
  holds_sheetOfRun (.still fun _ => rfl)
    (fun s _ aligned instrs => aligned_plan aligned (s.place.truthful_steps instrs 0 none)) env levels program
    instrs indent

end Mustache.Render
