import Mustache.Proofs.Render.Noted
import Mustache.Proofs.Render.Paired

/-! Runs of programs that are alike, side by side. They have the same outcome, apart from the places of
errors, and leave the same store. -/
namespace Mustache.Render

theorem unplaced_located {α : Type} (source : String) (span : Span) (action : Act α) (m : Machine) :
    ((located source span action).run.run m).1.mapError Stop.unplaced =
      (action.run.run m).1.mapError Stop.unplaced := by
  rw [run_located]
  generalize (action.run.run m).1 = result
  cases result with
  | ok a => rfl
  | error stop =>
    cases stop with
    | fault f => rfl
    | error e =>
      have cause : (e.orAt source span).cause = e.cause := by
        unfold Error.orAt
        cases e.site <;> rfl
      show Except.error (Stop.error { cause := (e.orAt source span).cause }) = _
      rw [cause]
      rfl

/-- Actions with one outcome, places aside, from machines that are alike, which they leave alike: as long as
the notes of the first one tell of no section that is a lambda. -/
def Abreast {α : Type} (action action' : Act α) (notes : Machine → List Note) : Prop :=
  ∀ m m', m.Paired m' → (∀ note ∈ notes m, note.callable? = none) →
    (action.run.run m).1.mapError Stop.unplaced = (action'.run.run m').1.mapError Stop.unplaced ∧
      (action.run.run m).2.Paired (action'.run.run m').2

namespace Abreast

variable {α β : Type} {notes : Machine → List Note}

theorem bind {first first' : Act α} {next next' : α → Act β} {more : α → Machine → List Note}
    (before : Abreast first first' notes) (after : ∀ a, Abreast (next a) (next' a) (more a)) :
    Abreast (first >>= next) (first' >>= next') fun m => notes m ++ afterwards more (first.run.run m) := by
  intro m m' paired quiet
  have quiet : ∀ note ∈ notes m ++ afterwards more (first.run.run m), note.callable? = none := quiet
  have start := before m m' paired fun note member => quiet note (List.mem_append_left _ member)
  rw [run_bind, run_bind]
  generalize first.run.run m = ran at start quiet ⊢
  generalize first'.run.run m' = ran' at start ⊢
  obtain ⟨result, ended⟩ := ran
  obtain ⟨result', ended'⟩ := ran'
  obtain ⟨same, left⟩ := start
  cases result with
  | error stop =>
    cases result' with
    | error stop' => exact ⟨congrArg Except.error (Except.error.inj same), left⟩
    | ok b => cases same
  | ok a =>
    cases result' with
    | error stop' => cases same
    | ok b =>
      obtain rfl := Except.ok.inj same
      exact after a ended ended' left fun note member => quiet note (List.mem_append_right _ member)

theorem map {action action' : Act α} (abreast : Abreast action action' notes) (f : α → β) :
    Abreast (action >>= fun a => pure (f a)) (action' >>= fun a => pure (f a)) notes := by
  intro m m' paired quiet
  have ended : Abreast (action >>= fun a => pure (f a)) (action' >>= fun a => pure (f a))
      fun m => notes m ++ afterwards (fun _ _ => []) (action.run.run m) :=
    abreast.bind fun a _ _ left _ => ⟨rfl, left⟩
  refine ended m m' paired fun note member => ?_
  rcases List.mem_append.1 member with here | later
  · exact quiet note here
  · generalize action.run.run m = ran at later
    obtain ⟨_ | a, ended⟩ := ran <;> cases later

theorem fail (stop : Stop) : Abreast (throw stop : Act α) (throw stop) notes :=
  fun _ _ paired _ => ⟨rfl, paired⟩

theorem located (source source' : String) (span span' : Span) {action action' : Act α}
    (abreast : Abreast action action' notes) :
    Abreast (Render.located source span action) (Render.located source' span' action') notes := by
  intro m m' paired quiet
  obtain ⟨same, left⟩ := abreast m m' paired quiet
  rw [unplaced_located, unplaced_located, run_located, run_located]
  exact ⟨same, left⟩

theorem keepingLineStart {action action' : Act α} (abreast : Abreast action action' notes) :
    Abreast (Render.keepingLineStart action) (Render.keepingLineStart action') notes := by
  intro m m' paired quiet
  obtain ⟨same, left⟩ := abreast m m' paired quiet
  exact ⟨same, left.frames, left.overlay, left.depth, paired.lineStart, left.store⟩

theorem withFrame (frame : Value) {action action' : Act α} (abreast : Abreast action action' notes)
    (steady : ∀ m, Steady m (action.run.run m).2) (steady' : ∀ m, Steady m (action'.run.run m).2) :
    Abreast (Render.withFrame frame action) (Render.withFrame frame action')
      fun m => notes { m with frames := frame :: m.frames } := by
  intro m m' paired quiet
  have pushed : Machine.Paired { m with frames := frame :: m.frames } { m' with frames := frame :: m'.frames } :=
    ⟨congrArg (frame :: ·) paired.frames, paired.overlay, paired.depth, paired.lineStart, paired.store⟩
  obtain ⟨same, left⟩ := abreast _ _ pushed quiet
  rw [run_withFrame frame (steady _).frames, run_withFrame frame (steady' _).frames]
  exact ⟨same, paired.frames, left.overlay, left.depth, left.lineStart, left.store⟩

theorem invoke (limit : Nat) {invocation invocation' : Invocation} (supplies : invocation.Paired invocation')
    {action action' : Act String} (abreast : Abreast action action' notes)
    (steady : ∀ m, Steady m (action.run.run m).2) (steady' : ∀ m, Steady m (action'.run.run m).2) :
    Abreast (deeper limit (Plan.entering invocation action)) (deeper limit (Plan.entering invocation' action'))
      fun m => if limit ≤ m.depth then [] else notes (m.enter invocation) := by
  intro m m' paired quiet
  have quiet : ∀ note ∈ (if limit ≤ m.depth then [] else notes (m.enter invocation)),
      note.callable? = none := quiet
  rw [run_invoke limit invocation (steady _).overlay, run_invoke limit invocation' (steady' _).overlay,
    paired.depth]
  split
  · exact ⟨rfl, paired⟩
  · rename_i below
    rw [if_neg below] at quiet
    obtain ⟨same, left⟩ := abreast _ _ (paired.enter supplies) quiet
    exact ⟨same, left.frames, paired.overlay, congrArg (· - 1) left.depth, left.lineStart, left.store⟩

end Abreast

/-- Two stages for programs that are alike, in which bodies that match and lists that are alike run abreast. -/
structure Stage.Abreast (matched : Section → Section → Prop) (s : Stage) (n : Noters) (s' : Stage) : Prop where
  env : s'.env = s.env
  indent : s'.indent = s.indent
  steadyBody : ∀ sec m, Steady m ((s.body sec).run.run m).2
  steadyBody' : ∀ sec m, Steady m ((s'.body sec).run.run m).2
  steadyNested : ∀ program instrs indent m, Steady m ((s.nested program instrs indent).run.run m).2
  steadyNested' : ∀ program instrs indent m, Steady m ((s'.nested program instrs indent).run.run m).2
  body : ∀ sec sec', matched sec sec' → Render.Abreast (s.body sec) (s'.body sec') (n.body sec)
  nested : ∀ program instrs program' instrs' indent, program.Paired instrs program' instrs' →
    Render.Abreast (s.nested program instrs indent) (s'.nested program' instrs' indent)
      (n.nested program instrs indent)

namespace Stage.Abreast

variable {matched : Section → Section → Prop} {s s' : Stage} {n : Noters}
  (abreast : s.Abreast matched n s')

include abreast

theorem plan {α : Type} {plan plan' : Plan α} (paired : Plan.Paired matched plan plan') :
    Render.Abreast (plan.act s) (plan'.act s') (plan.notes s n) := by
  induction paired with
  | pure a => exact fun _ _ left _ => ⟨rfl, left⟩
  | bind first first' next next' _ _ ih ih' => exact ih.bind ih'
  | stop stop stop' same => exact fun _ _ left _ => ⟨congrArg Except.error same, left⟩
  | find ref ref' same =>
    intro m m' left _
    refine ⟨?_, left⟩
    show Except.ok (m.frames.find ref) = Except.ok (m'.frames.find ref')
    rw [left.frames, same]
  | given name next next' _ ih =>
    intro m m' left quiet
    exact ih _ _ (left.overlay name) m m' left quiet
  | put text ends =>
    intro m m' left _
    refine ⟨?_, left.frames, left.overlay, left.depth, rfl, left.store⟩
    show Except.ok (if m.lineStart then s.indent ++ text else text) =
      Except.ok (if m'.lineStart then s'.indent ++ text else text)
    rw [left.lineStart, abreast.indent]
  | record call =>
    intro m m' left _
    refine ⟨?_, left.frames, left.overlay, left.depth, left.lineStart, ?_⟩
    · show Except.ok (m.store.callCount call.id) = Except.ok (m'.store.callCount call.id)
      rw [left.store]
    · show { m'.store with calls := call :: m'.store.calls } = { m.store with calls := call :: m.store.calls }
      rw [left.store]
  | fetch origin source =>
    intro m m' left _
    show ((inStore (s.env.engine.fetch origin source) >>= Render.ofExcept).run.run m).1.mapError _ =
      ((inStore (s'.env.engine.fetch origin source) >>= Render.ofExcept).run.run m').1.mapError _ ∧
      ((inStore (s.env.engine.fetch origin source) >>= Render.ofExcept).run.run m).2.Paired
        ((inStore (s'.env.engine.fetch origin source) >>= Render.ofExcept).run.run m').2
    rw [run_fetch, run_fetch, abreast.env, left.store]
    exact ⟨rfl, left.frames, left.overlay, left.depth, left.lineStart, rfl⟩
  | located span span' inner inner' _ ih => exact .located _ _ span span' ih
  | keepingLineStart inner inner' _ ih => exact .keepingLineStart ih
  | within frame sec sec' same =>
    exact .withFrame frame (abreast.body sec sec' same) (abreast.steadyBody sec) (abreast.steadyBody' sec')
  | invoke invocation invocation' program program' instrs instrs' indent supplies alike =>
    show Render.Abreast
      (deeper s.env.engine.maxDepth (Plan.entering invocation (s.nested program instrs indent)))
      (deeper s'.env.engine.maxDepth (Plan.entering invocation' (s'.nested program' instrs' indent))) _
    rw [abreast.env]
    exact .invoke _ supplies (abreast.nested program instrs program' instrs' indent alike)
      (abreast.steadyNested program instrs indent) (abreast.steadyNested' program' instrs' indent)

theorem step {link : Link} (mates : s.program.Mates link s'.program) {instr instr' : Instr}
    (linked : instr.Linked link instr') {expression : Option Value}
    (plain : (Note.came s.program instr expression).callable? = none)
    (sections : ∀ key key', instr = .repeated key → instr' = .repeated key' →
      Option.Rel matched (Entries.get? key s.program.sections) (Entries.get? key' s'.program.sections)) :
    Render.Abreast (s.step instr expression) (s'.step instr' expression)
      ((s.place.step instr expression).notes s n) := by
  have paired := Place.paired_step s.env s.indent mates linked expression (by
    rintro key v rfl rfl
    exact plain) sections
  have place : s'.place = ⟨s.env, s'.program, s.indent⟩ := by
    rw [← abreast.env, ← abreast.indent]
    rfl
  have run := abreast.plan paired
  rw [← place] at run
  rw [← Place.act_step, ← Place.act_step]
  exact run

/-- Lists that are alike run abreast if the bodies match that they call for. -/
theorem steps {link : Link} (mates : s.program.Mates link s'.program) {instrs instrs' : List Instr}
    (linked : Instr.AllLinked link instrs instrs')
    (sections : ∀ key key', .repeated key ∈ instrs → .repeated key' ∈ instrs' → link.sections key key' →
      Option.Rel matched (Entries.get? key s.program.sections) (Entries.get? key' s'.program.sections))
    (skip : Nat) (expression : Option Value) :
    Render.Abreast (s.steps instrs skip expression) (s'.steps instrs' skip expression)
      (s.notes n instrs skip expression) := by
  induction linked generalizing skip expression with
  | nil =>
    cases skip with
    | zero =>
      cases expression with
      | none => exact fun _ _ left _ => ⟨rfl, left⟩
      | some v => exact .fail _
    | succ skip => exact .fail _
  | @cons instr instr' rest rest' first later ih =>
    have ih := ih fun key key' member member' =>
      sections key key' (List.mem_cons_of_mem _ member) (List.mem_cons_of_mem _ member')
    cases skip with
    | succ skip => exact ih skip expression
    | zero =>
      intro m m' left quiet
      obtain ⟨plain, quiet⟩ := List.forall_mem_cons.1 quiet
      have stepped := abreast.step mates first plain (by
        rintro key key' rfl rfl
        cases first with
        | «repeated» _ _ keys => exact sections key key' List.mem_cons_self List.mem_cons_self keys)
      exact (stepped.bind fun outcome =>
        (ih outcome.skip outcome.expression).map (outcome.text ++ ·)) m m' left quiet

end Stage.Abreast

theorem abreast_runBody {env : Env} {levels : Nat}
    (nested : ∀ program instrs program' instrs' indent, program.Paired instrs program' instrs' →
      Abreast (run env levels program instrs indent) (run env levels program' instrs' indent)
        (notesOfRun env levels program instrs indent))
    {link : Link} {program program' : Program} (mates : program.Mates link program') (indent : String)
    {budget budget' : Nat} {instrs instrs' : List Instr} (linked : Instr.AllLinked link instrs instrs')
    (budgets : Budgets program program' budget instrs budget' instrs') :
    Abreast (runBody env (run env levels) program indent budget instrs)
      (runBody env (run env levels) program' indent budget' instrs')
      (notesOfBody env (run env levels) (notesOfRun env levels) program indent budget instrs) := by
  induction budget generalizing budget' instrs instrs' with
  | zero =>
    cases budgets with
    | shared => exact .fail _
    | enough _ _ _ room room' => exact False.elim room
  | succ budget ih =>
    cases budget' with
    | zero =>
      cases budgets with
      | enough _ _ _ room room' => exact False.elim room'
    | succ budget' =>
      let s : Stage := ⟨env, program, indent,
        fun sec => runBody env (run env levels) program indent budget sec.instrs, run env levels⟩
      let s' : Stage := ⟨env, program', indent,
        fun sec => runBody env (run env levels) program' indent budget' sec.instrs, run env levels⟩
      let n : Noters := ⟨fun sec => notesOfBody env (run env levels) (notesOfRun env levels) program indent
        budget sec.instrs, notesOfRun env levels⟩
      have abreast : s.Abreast (Section.Paired link program program' budget budget') n s' :=
        { env := rfl
          indent := rfl
          steadyBody := fun sec => steady_runBody env levels program indent budget sec.instrs
          steadyBody' := fun sec => steady_runBody env levels program' indent budget' sec.instrs
          steadyNested := steady_run env levels
          steadyNested' := steady_run env levels
          body := fun sec sec' paired => ih paired.1 paired.2
          nested := nested }
      exact abreast.steps mates linked (fun key key' => budgets.sections mates.toLinked) 0 none

theorem abreast_run (env : Env) (levels : Nat) {program program' : Program} {instrs instrs' : List Instr}
    (indent : String) (paired : program.Paired instrs program' instrs') :
    Abreast (run env levels program instrs indent) (run env levels program' instrs' indent)
      (notesOfRun env levels program instrs indent) := by
  induction levels generalizing program program' instrs instrs' indent with
  | zero => exact .fail _
  | succ levels ih =>
    obtain ⟨link, mates, linked, budgets⟩ := paired
    exact abreast_runBody (fun _ _ _ _ indent paired => ih indent paired) mates indent linked budgets

/-- Programs that are alike render alike where no section is a lambda. -/
theorem render_of_paired {env : Env} {program program' : Program} {context : Value} {store : Store}
    (paired : program.Paired program.instrs program' program'.instrs)
    (quiet : ∀ note ∈ notesOfRender env program context store, note.callable? = none) :
    (render env program' context store).1.mapError Stop.unplaced =
        (render env program context store).1.mapError Stop.unplaced ∧
      (render env program' context store).2 = (render env program context store).2 := by
  have start : (initial env context store).Paired (initial env context store) :=
    ⟨rfl, fun _ => .none, rfl, rfl, rfl⟩
  obtain ⟨same, left⟩ := abreast_run env (env.engine.maxDepth + lambdaAllowance + 1) "" paired _ _ start quiet
  exact ⟨same.symm, left.store⟩

end Mustache.Render
