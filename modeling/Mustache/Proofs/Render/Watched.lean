import Mustache.Proofs.Render.Plan

/-! Runs that are watched: the same runs, with a record of the instructions that are reached and of
what is invoked, each under all that is being rendered at that time. -/
namespace Mustache.Render

inductive Event
  /-- An instruction of a program, with those after it in its list. -/
  | reached (program : Program) (instrs : List Instr)
  /-- A partial, parent, block argument or lambda template is about to be rendered, if it is not
  nested too deeply. -/
  | invoked (invocation : Invocation)

structure Moment where
  /-- What is being rendered, the innermost first. -/
  active : List Invocation
  machine : Machine
  event : Event

structure Watched (α : Type) where
  outcome : Except Stop α
  machine : Machine
  moments : List Moment

def Watch (α : Type) : Type := List Invocation → Machine → Watched α

namespace Watch

variable {α β : Type}

def pure (a : α) : Watch α := fun _ m => ⟨.ok a, m, []⟩

def bind (first : Watch α) (next : α → Watch β) : Watch β := fun active m =>
  let before := first active m
  match before.outcome with
  | .ok a =>
    let after := next a active before.machine
    { after with moments := before.moments ++ after.moments }
  | .error stop => ⟨.error stop, before.machine, before.moments⟩

instance : Monad Watch where
  pure := Watch.pure
  bind := Watch.bind

/-- An action in which nothing is to be seen. -/
def unseen (action : Act α) : Watch α := fun _ m =>
  let (outcome, machine) := action.run.run m
  ⟨outcome, machine, []⟩

def see (event : Event) : Watch Unit := fun active m => ⟨.ok (), m, [⟨active, m, event⟩]⟩

def under (invocation : Invocation) (inner : Watch α) : Watch α := fun active m =>
  inner (invocation :: active) m

def located (source : String) (span : Span) (inner : Watch α) : Watch α := fun active m =>
  let before := inner active m
  { before with
    outcome := match before.outcome with
      | .error (.error e) => .error (.error (e.orAt source span))
      | outcome => outcome }

def observed (inner : Watch α) : Watch (Except Error α) := fun active m =>
  let before := inner active m
  ⟨match before.outcome with
    | .ok a => .ok (.ok a)
    | .error (.error e) => .ok (.error e)
    | .error (.fault f) => .error (.fault f), before.machine, before.moments⟩

def andFinally (inner : Watch α) (cleanup : Act Unit) : Watch α := fun active m =>
  let before := inner active m
  match cleanup.run.run before.machine with
  | (.ok (), machine) => ⟨before.outcome, machine, before.moments⟩
  | (.error stop, machine) => ⟨.error stop, machine, before.moments⟩

def withFrame (frame : Value) (inner : Watch α) : Watch α := do
  unseen (modify fun m => { m with frames := frame :: m.frames })
  andFinally inner popFrame

def withArguments (given : List (String × Override)) (inner : Watch α) : Watch α := do
  unseen (modify fun m => { m with overlay := m.overlay.push given })
  andFinally inner popOverlay

def deeper (limit : Nat) (invocation : Invocation) (inner : Watch α) : Watch α := do
  see (.invoked invocation)
  unseen do if limit ≤ (← get).depth then raise (.tooDeep limit)
  unseen (modify fun m => { m with depth := m.depth + 1 })
  andFinally (under invocation inner) (modify fun m => { m with depth := m.depth - 1 })

def keepingLineStart (inner : Watch α) : Watch α := do
  let before ← unseen get
  andFinally inner (modify fun m => { m with lineStart := before.lineStart })

def aside (inner : Watch α) : Watch α := do
  let before ← unseen get
  andFinally inner (modify fun m => { before with store := m.store })

/-- The action that is watched. -/
def act (w : Watch α) (active : List Invocation) : Act α :=
  ExceptT.mk fun m => ((w active m).outcome, (w active m).machine)

theorem run_act (w : Watch α) (active : List Invocation) (m : Machine) :
    (w.act active).run.run m = ((w active m).outcome, (w active m).machine) := rfl

theorem act_bind (first : Watch α) (next : α → Watch β) (active : List Invocation) :
    (first >>= next).act active = first.act active >>= fun a => (next a).act active := by
  apply ExceptT.ext
  funext m
  show _ = (first.act active >>= fun a => (next a).act active).run.run m
  rw [run_bind, run_act]
  show ((Watch.bind first next active m).outcome, (Watch.bind first next active m).machine) = _
  unfold Watch.bind
  dsimp only
  cases (first active m).outcome <;> rfl

theorem act_unseen (action : Act α) (active : List Invocation) : (unseen action).act active = action := rfl

theorem act_andFinally (inner : Watch α) (cleanup : Act Unit) (active : List Invocation) :
    (andFinally inner cleanup).act active = Render.andFinally (inner.act active) cleanup := by
  apply ExceptT.ext
  funext m
  show _ = (Render.andFinally (inner.act active) cleanup).run.run m
  rw [run_andFinally, run_act]
  show ((andFinally inner cleanup active m).outcome, (andFinally inner cleanup active m).machine) = _
  unfold andFinally
  dsimp only
  rcases cleanup.run.run (inner active m).machine with ⟨result, m'⟩
  cases result <;> rfl

theorem act_located (source : String) (span : Span) (inner : Watch α) (active : List Invocation) :
    (located source span inner).act active = Render.located source span (inner.act active) := by
  apply ExceptT.ext
  funext m
  show _ = (Render.located source span (inner.act active)).run.run m
  rw [run_located, run_act]
  show ((located source span inner active m).outcome, (inner active m).machine) = _
  unfold located
  generalize inner active m = ran
  obtain ⟨(_ | _) | _, machine, moments⟩ := ran <;> rfl

theorem act_observed (inner : Watch α) (active : List Invocation) :
    (observed inner).act active = Render.observed (inner.act active) := by
  apply ExceptT.ext
  funext m
  show _ = (Render.observed (inner.act active)).run.run m
  rw [run_observed, run_act]
  show ((observed inner active m).outcome, (inner active m).machine) = _
  unfold observed
  generalize inner active m = ran
  obtain ⟨(_ | _) | _, machine, moments⟩ := ran <;> rfl

theorem act_withFrame (frame : Value) (inner : Watch α) (active : List Invocation) :
    (withFrame frame inner).act active = Render.withFrame frame (inner.act active) := by
  unfold withFrame Render.withFrame
  rw [act_bind, act_unseen]
  exact bind_congr fun _ => act_andFinally _ _ _

theorem act_withArguments (given : List (String × Override)) (inner : Watch α)
    (active : List Invocation) :
    (withArguments given inner).act active = Render.withArguments given (inner.act active) := by
  unfold withArguments Render.withArguments
  rw [act_bind, act_unseen]
  exact bind_congr fun _ => act_andFinally _ _ _

theorem act_deeper (limit : Nat) (invocation : Invocation) (inner : Watch α)
    (active : List Invocation) :
    (deeper limit invocation inner).act active =
      Render.deeper limit (inner.act (invocation :: active)) := by
  have guarded (next : Unit → Act α) :
      ((unseen do if limit ≤ (← get).depth then raise (.tooDeep limit)).act active >>= next) =
        (get >>= fun m : Machine => if limit ≤ m.depth then raise (.tooDeep limit) >>= next else next ()) := by
    rw [act_unseen, bind_assoc]
    refine bind_congr fun m => ?_
    split <;> rfl
  unfold deeper
  rw [act_bind]
  show (Pure.pure () >>= fun _ => _) = _
  rw [pure_bind, act_bind, guarded]
  unfold Render.deeper
  refine bind_congr fun m => ?_
  split
  · rfl
  · rw [act_bind, act_andFinally]
    rfl

theorem act_keepingLineStart (inner : Watch α) (active : List Invocation) :
    (keepingLineStart inner).act active = Render.keepingLineStart (inner.act active) := by
  unfold keepingLineStart Render.keepingLineStart
  rw [act_bind, act_unseen]
  exact bind_congr fun _ => act_andFinally _ _ _

theorem act_aside (inner : Watch α) (active : List Invocation) :
    (aside inner).act active = Render.aside (inner.act active) := by
  unfold aside Render.aside
  rw [act_bind, act_unseen]
  exact bind_congr fun _ => act_andFinally _ _ _

theorem deeper_apply (limit : Nat) (invocation : Invocation) (inner : Watch α)
    (active : List Invocation) (m : Machine) :
    deeper limit invocation inner active m =
      if limit ≤ m.depth then
        ⟨.error (.error { cause := .tooDeep limit }), m, [⟨active, m, .invoked invocation⟩]⟩
      else
        let ran := inner (invocation :: active) { m with depth := m.depth + 1 }
        ⟨ran.outcome, { ran.machine with depth := ran.machine.depth - 1 },
          ⟨active, m, .invoked invocation⟩ :: ran.moments⟩ := by
  have guard (action : Machine → Act Unit) : (unseen (get >>= action) : Watch Unit) active m =
      unseen (action m) active m := rfl
  unfold deeper
  show Watch.bind (see _) (fun _ => Watch.bind (unseen _) _) active m = _
  unfold Watch.bind
  dsimp only [see]
  rw [guard]
  by_cases full : limit ≤ m.depth
  · rw [if_pos full, if_pos full]
    rfl
  · rw [if_neg full, if_neg full]
    rfl

end Watch

structure Watchers where
  body : Section → Watch String
  nested : Program → List Instr → String → Watch String

structure Watchers.Of (w : Watchers) (s : Stage) : Prop where
  body : ∀ sec active, (w.body sec).act active = s.body sec
  nested : ∀ program instrs indent active,
    (w.nested program instrs indent).act active = s.nested program instrs indent

namespace Plan

def watchEntering {α : Type} (invocation : Invocation) (inner : Watch α) : Watch α :=
  match invocation with
  | .parent program _ keys => .withArguments (Invocation.overrides program keys) inner
  | _ => inner

def watch (p : Place) (w : Watchers) : {α : Type} → Plan α → Watch α
  | _, .pure a => Watch.pure a
  | _, .bind first next => Watch.bind (watch p w first) fun a => watch p w (next a)
  | _, .stop cause => .unseen (throw cause)
  | _, .reach instrs => .see (.reached p.program instrs)
  | _, .find ref => .unseen do Pure.pure ((← get).frames.find ref)
  | _, .given name => .unseen do Pure.pure ((← get).overlay.find? name)
  | _, .put text ends => .unseen do
    let m ← get
    set { m with lineStart := ends }
    Pure.pure (if m.lineStart then p.indent ++ text else text)
  | _, .record call => .unseen (Render.record call)
  | _, .fetch origin source => .unseen do
    Render.ofExcept (← inStore (p.env.engine.fetch origin source))
  | _, .located span inner => .located p.program.source span (watch p w inner)
  | _, .observed inner => .observed (watch p w inner)
  | _, .keepingLineStart inner => .keepingLineStart (watch p w inner)
  | _, .aside inner => .aside (watch p w inner)
  | _, .within frame sec => .withFrame frame (w.body sec)
  | _, .invoke invocation program instrs indent =>
    .deeper p.env.engine.maxDepth invocation
      (watchEntering invocation (w.nested program instrs indent))
  | _, .answer program =>
    Watch.bind (.unseen (modify fun m => { m with lineStart := true })) fun _ =>
      w.nested program program.instrs ""

theorem act_watchEntering (invocation : Invocation) (inner : Watch String)
    (active : List Invocation) :
    (watchEntering invocation inner).act active = entering invocation (inner.act active) := by
  cases invocation with
  | parent program name keys => exact Watch.act_withArguments _ _ _
  | _ => rfl

theorem act_watch {s : Stage} {w : Watchers} (watches : w.Of s) {α : Type} (plan : Plan α)
    (active : List Invocation) : (plan.watch s.place w).act active = plan.act s := by
  induction plan generalizing active with
  | pure a => rfl
  | bind first next ih ih' =>
    have split := Watch.act_bind (watch s.place w first) (fun a => watch s.place w (next a)) active
    refine split.trans ?_
    rw [ih]
    exact bind_congr fun a => ih' a active
  | stop cause => rfl
  | reach instrs => rfl
  | find ref => rfl
  | given name => rfl
  | put text ends => rfl
  | record call => rfl
  | fetch origin source => rfl
  | located span inner ih =>
    refine (Watch.act_located _ _ _ _).trans ?_
    rw [ih]
    rfl
  | observed inner ih =>
    refine (Watch.act_observed _ _).trans ?_
    rw [ih]
    rfl
  | keepingLineStart inner ih =>
    refine (Watch.act_keepingLineStart _ _).trans ?_
    rw [ih]
    rfl
  | aside inner ih =>
    refine (Watch.act_aside _ _).trans ?_
    rw [ih]
    rfl
  | within frame sec =>
    refine (Watch.act_withFrame _ _ _).trans ?_
    exact congrArg _ (watches.body sec active)
  | invoke invocation program instrs indent =>
    refine (Watch.act_deeper _ _ _ _).trans ?_
    rw [act_watchEntering, watches.nested]
    rfl
  | answer program =>
    have split := Watch.act_bind (.unseen (modify fun m : Machine => { m with lineStart := true }))
      (fun _ => w.nested program program.instrs "") active
    refine split.trans (bind_congr fun _ => ?_)
    exact watches.nested program program.instrs "" active

end Plan

/-! ### Watched runs -/

def watchBody (env : Env) (nested : Program → List Instr → String → Watch String)
    (program : Program) (indent : String) : Nat → List Instr → Watch String
  | 0, _ => .unseen (fail .exhausted)
  | budget + 1, instrs =>
    ((⟨env, program, indent⟩ : Place).steps instrs 0 none).watch ⟨env, program, indent⟩
      ⟨fun sec => watchBody env nested program indent budget sec.instrs, nested⟩

def watchRun (env : Env) : Nat → Program → List Instr → String → Watch String
  | 0 => fun _ _ _ => .unseen (fail .exhausted)
  | levels + 1 => fun program instrs indent =>
    watchBody env (watchRun env levels) program indent (program.source.length + 2) instrs

theorem act_watchBody {env : Env} {nested : Program → List Instr → String → Watch String}
    {runner : Runner}
    (watches : ∀ program instrs indent active,
      (nested program instrs indent).act active = runner program instrs indent)
    (program : Program) (indent : String) (budget : Nat) (instrs : List Instr)
    (active : List Invocation) :
    (watchBody env nested program indent budget instrs).act active =
      runBody env runner program indent budget instrs := by
  induction budget generalizing instrs active with
  | zero => rfl
  | succ budget ih =>
    let body (sec : Section) := runBody env runner program indent budget sec.instrs
    let s : Stage := ⟨env, program, indent, body, runner⟩
    have of : Watchers.Of ⟨fun sec => watchBody env nested program indent budget sec.instrs, nested⟩ s :=
      ⟨fun sec => ih sec.instrs, watches⟩
    exact (Plan.act_watch of _ active).trans (Place.act_steps s instrs 0 none)

/-- What is watched is the run itself. -/
theorem act_watchRun (env : Env) (levels : Nat) (program : Program) (instrs : List Instr)
    (indent : String) (active : List Invocation) :
    (watchRun env levels program instrs indent).act active = run env levels program instrs indent := by
  induction levels generalizing program instrs indent active with
  | zero => rfl
  | succ levels ih => exact act_watchBody ih program indent _ instrs active

def watchRender (env : Env) (program : Program) (context : Value) (store : Store) : Watched String :=
  watchRun env (env.engine.maxDepth + lambdaAllowance + 1) program program.instrs "" []
    (initial env context store)

theorem render_eq_watchRender (env : Env) (program : Program) (context : Value) (store : Store) :
    render env program context store = ((watchRender env program context store).outcome,
      (watchRender env program context store).machine.store) := by
  have same := act_watchRun env (env.engine.maxDepth + lambdaAllowance + 1) program program.instrs "" []
  unfold render
  dsimp only
  rw [← same]
  rfl

end Mustache.Render
