import Mustache.Proofs.Engine.Growing
import Mustache.Proofs.Render.Watched

/-! What a run leaves behind: the frames, the overlay and the depth as they were, and a store that has
grown. What holds wherever something can be entered holds at all moments of a run. -/
namespace Mustache.Render

namespace Invocation

/-- The argument that a tag gives for a name, the last one if it gives two. -/
def supplies? (name : String) : Invocation → Option Override
  | parent program _ given =>
    (given.reverse.find? fun entry => entry.1 = name).map fun (_, key) => ⟨program, key⟩
  | _ => none

def overlay (outer : Overlay) : Invocation → Overlay
  | parent program _ given => outer.push (overrides program given)
  | _ => outer

theorem find?_overlay (invocation : Invocation) (outer : Overlay) (name : String) :
    (invocation.overlay outer).find? name = (outer.find? name <|> invocation.supplies? name) := by
  cases invocation with
  | parent program tag given =>
    unfold overlay supplies? overrides
    rw [Overlay.find?_push, Entries.get?_ofList, ← List.map_reverse, List.find?_map, Option.map_map]
    rfl
  | _ =>
    show outer.find? name = _
    cases outer.find? name <;> rfl

end Invocation

def Machine.enter (invocation : Invocation) (m : Machine) : Machine :=
  { m with depth := m.depth + 1, overlay := invocation.overlay m.overlay }

theorem ok_of_entering {invocation : Invocation} {action : Act String} {m : Machine} {text : String}
    (ok : ((Plan.entering invocation action).run.run m).1 = .ok text) :
    (action.run.run { m with overlay := invocation.overlay m.overlay }).1 = .ok text := by
  cases invocation with
  | parent program name given => exact ok_of_andFinally popOverlay ok
  | _ => exact ok

theorem Watch.withFrame_apply {α : Type} (frame : Value) {inner : Watch α} {active : List Invocation}
    {m : Machine} {ran : Watched α} (same : inner active { m with frames := frame :: m.frames } = ran)
    (frames : ran.machine.frames = frame :: m.frames) :
    withFrame frame inner active m =
      ⟨ran.outcome, { ran.machine with frames := m.frames }, ran.moments⟩ := by
  -- what was pushed is on top again, or there would be nothing to pop
  have popped : popFrame.run.run ran.machine = (.ok (), { ran.machine with frames := m.frames }) := by
    unfold popFrame
    rw [run_bind, run_get]
    dsimp only
    rw [frames]
    rfl
  show andFinally inner popFrame active { m with frames := frame :: m.frames } = _
  unfold andFinally
  dsimp only
  rw [same, popped]

theorem Plan.watchEntering_apply {invocation : Invocation} {inner : Watch String}
    {active : List Invocation} {m : Machine} {ran : Watched String}
    (same : inner active { m with overlay := invocation.overlay m.overlay } = ran)
    (overlay : ran.machine.overlay = invocation.overlay m.overlay) :
    watchEntering invocation inner active m =
      ⟨ran.outcome, { ran.machine with overlay := m.overlay }, ran.moments⟩ := by
  have unchanged (kept : ran.machine.overlay = m.overlay) :
      ran = ⟨ran.outcome, { ran.machine with overlay := m.overlay }, ran.moments⟩ := by
    rw [← kept]
  cases invocation with
  | parent program tag given =>
    have popped : popOverlay.run.run ran.machine =
        (.ok (), { ran.machine with overlay := m.overlay }) := by
      unfold popOverlay
      rw [run_bind, run_get]
      dsimp only
      rw [overlay]
      rfl
    let pushed : Machine := { m with overlay := m.overlay.push (Invocation.overrides program given) }
    have same : inner active pushed = ran := same
    show Watch.andFinally inner popOverlay active pushed = _
    unfold Watch.andFinally
    dsimp only
    rw [same, popped]
  | _ => exact same.trans (unchanged overlay)

/-- What is invoked below the limit runs entered, and is left again. -/
theorem Plan.invoke_apply {invocation : Invocation} {inner : Watch String} {limit : Nat}
    {active : List Invocation} {m : Machine} (below : m.depth < limit) {ran : Watched String}
    (same : inner (invocation :: active) (m.enter invocation) = ran)
    (overlay : ran.machine.overlay = (m.enter invocation).overlay) :
    Watch.deeper limit invocation (watchEntering invocation inner) active m =
      ⟨ran.outcome, { ran.machine with overlay := m.overlay, depth := ran.machine.depth - 1 },
        ⟨active, m, .invoked invocation⟩ :: ran.moments⟩ := by
  rw [Watch.deeper_apply, if_neg (Nat.not_le_of_lt below),
    watchEntering_apply (m := { m with depth := m.depth + 1 }) same overlay]

/-- What was pushed is on top again when the action is done. -/
theorem run_withFrame {α : Type} (frame : Value) {action : Act α} {m : Machine}
    (kept : (action.run.run { m with frames := frame :: m.frames }).2.frames = frame :: m.frames) :
    (withFrame frame action).run.run m =
      ((action.run.run { m with frames := frame :: m.frames }).1,
        { (action.run.run { m with frames := frame :: m.frames }).2 with frames := m.frames }) := by
  rw [← Watch.act_unseen action [], ← Watch.act_withFrame frame (.unseen action) [], Watch.run_act,
    Watch.withFrame_apply frame rfl kept]
  rfl

/-- What is invoked runs entered, unless it is nested too deeply. -/
theorem run_invoke (limit : Nat) (invocation : Invocation) {action : Act String} {m : Machine}
    (kept : (action.run.run (m.enter invocation)).2.overlay = (m.enter invocation).overlay) :
    (deeper limit (Plan.entering invocation action)).run.run m =
      if limit ≤ m.depth then (.error (.error { cause := .tooDeep limit }), m)
      else
        ((action.run.run (m.enter invocation)).1,
          { (action.run.run (m.enter invocation)).2 with
            overlay := m.overlay
            depth := (action.run.run (m.enter invocation)).2.depth - 1 }) := by
  rw [← Watch.act_unseen action (invocation :: []), ← Plan.act_watchEntering invocation (.unseen action),
    ← Watch.act_deeper limit invocation, Watch.run_act]
  split
  · rename_i full
    rw [Watch.deeper_apply, if_pos full]
  · rename_i below
    rw [Plan.invoke_apply (Nat.lt_of_not_le below) rfl kept]
    rfl

theorem run_fetch (e : Engine) (origin : Engine.Origin) (source : String) (m : Machine) :
    (inStore (e.fetch origin source) >>= ofExcept).run.run m =
      (((e.fetch origin source).run m.store).1.mapError .error,
        { m with store := ((e.fetch origin source).run m.store).2 }) := by
  have kept : (inStore (e.fetch origin source)).run.run m =
      (.ok ((e.fetch origin source).run m.store).1,
        { m with store := ((e.fetch origin source).run m.store).2 }) := rfl
  rw [run_bind, kept]
  dsimp only
  cases ((e.fetch origin source).run m.store).1 <;> rfl

/-- A machine as another one, but for where its line starts and for its store, which comes after the
other one's. -/
structure Steady (m m' : Machine) : Prop where
  frames : m'.frames = m.frames
  overlay : m'.overlay = m.overlay
  depth : m'.depth = m.depth
  store : m.store.Follows m'.store

namespace Steady

theorem refl (m : Machine) : Steady m m := ⟨rfl, rfl, rfl, .refl _⟩

theorem trans {first second third : Machine} (before : Steady first second)
    (after : Steady second third) : Steady first third :=
  ⟨after.frames.trans before.frames, after.overlay.trans before.overlay,
    after.depth.trans before.depth, before.store.trans after.store⟩

end Steady

/-- What holds of a machine by its overlay and its depth, and holds on when something is entered. -/
structure Invariant (limit : Nat) (holds : List Invocation → Machine → Prop) : Prop where
  kept : ∀ active m m', holds active m → m'.overlay = m.overlay → m'.depth = m.depth → holds active m'
  entered : ∀ active m invocation, holds active m → m.depth < limit →
    holds (invocation :: active) (m.enter invocation)

/-- Watched from where something holds, a machine is left as it was, and it holds at every moment. -/
def Keeps (holds : List Invocation → Machine → Prop) {α : Type} (w : Watch α) : Prop :=
  ∀ active m, holds active m →
    Steady m (w active m).machine ∧
      ∀ moment ∈ (w active m).moments, holds moment.active moment.machine

namespace Keeps

variable {limit : Nat} {holds : List Invocation → Machine → Prop} {α β : Type}

theorem pure (a : α) : Keeps holds (Watch.pure a) :=
  fun _ m _ => ⟨.refl m, nofun⟩

theorem unseen {action : Act α} (steady : ∀ m, Steady m (action.run.run m).2) :
    Keeps holds (.unseen action) :=
  fun _ m _ => ⟨steady m, nofun⟩

theorem see (event : Event) : Keeps holds (.see event) := by
  intro active m here
  refine ⟨.refl m, ?_⟩
  intro moment member
  rw [List.mem_singleton.1 member]
  exact here

theorem located (source : String) (span : Span) {inner : Watch α} (keeps : Keeps holds inner) :
    Keeps holds (.located source span inner) := keeps

theorem observed {inner : Watch α} (keeps : Keeps holds inner) : Keeps holds (.observed inner) := keeps

theorem andFinally {inner : Watch α} (keeps : Keeps holds inner) {cleanup : Act Unit}
    (steady : ∀ m, Steady m (cleanup.run.run m).2) : Keeps holds (.andFinally inner cleanup) := by
  intro active m here
  obtain ⟨before, moments⟩ := keeps active m here
  have after := steady (inner active m).machine
  unfold Watch.andFinally
  dsimp only
  generalize cleanup.run.run (inner active m).machine = ended at after ⊢
  obtain ⟨_ | _, m'⟩ := ended <;> exact ⟨before.trans after, moments⟩

theorem aside {inner : Watch α} (keeps : Keeps holds inner) : Keeps holds (.aside inner) := by
  intro active m here
  obtain ⟨steady, moments⟩ := keeps active m here
  exact ⟨⟨rfl, rfl, rfl, steady.store⟩, moments⟩

variable (invariant : Invariant limit holds)

include invariant

theorem bind {first : Watch α} {next : α → Watch β} (before : Keeps holds first)
    (after : ∀ a, Keeps holds (next a)) : Keeps holds (Watch.bind first next) := by
  intro active m here
  obtain ⟨steady, moments⟩ := before active m here
  unfold Watch.bind
  dsimp only
  cases (first active m).outcome with
  | error stop => exact ⟨steady, moments⟩
  | ok a =>
    obtain ⟨steady', moments'⟩ :=
      after a active _ (invariant.kept _ _ _ here steady.overlay steady.depth)
    refine ⟨steady.trans steady', ?_⟩
    intro moment member
    exact (List.mem_append.1 member).elim (moments moment) (moments' moment)

theorem keepingLineStart {inner : Watch α} (keeps : Keeps holds inner) :
    Keeps holds (.keepingLineStart inner) :=
  bind invariant (unseen .refl) fun _ => andFinally keeps fun _ => ⟨rfl, rfl, rfl, .refl _⟩

theorem withFrame (frame : Value) {inner : Watch α} (keeps : Keeps holds inner) :
    Keeps holds (.withFrame frame inner) := by
  intro active m here
  obtain ⟨steady, moments⟩ := keeps active _
    (invariant.kept _ _ { m with frames := frame :: m.frames } here rfl rfl)
  rw [Watch.withFrame_apply frame rfl steady.frames]
  exact ⟨⟨rfl, steady.overlay, steady.depth, steady.store⟩, moments⟩

theorem invoke (invocation : Invocation) {inner : Watch String} (keeps : Keeps holds inner) :
    Keeps holds (.deeper limit invocation (Plan.watchEntering invocation inner)) := by
  intro active m here
  by_cases below : m.depth < limit
  · obtain ⟨steady, moments⟩ := keeps _ _ (invariant.entered active m invocation here below)
    rw [Plan.invoke_apply below rfl steady.overlay]
    refine ⟨⟨steady.frames, rfl, ?_, steady.store⟩, ?_⟩
    · show _ - 1 = m.depth
      rw [steady.depth]
      rfl
    · intro moment member
      obtain rfl | later := List.mem_cons.1 member
      · exact here
      · exact moments moment later
  · rw [Watch.deeper_apply, if_pos (Nat.le_of_not_lt below)]
    refine ⟨.refl m, ?_⟩
    intro moment member
    rw [List.mem_singleton.1 member]
    exact here

theorem plan {place : Place} {w : Watchers} (same : place.env.engine.maxDepth = limit)
    (body : ∀ sec, Keeps holds (w.body sec))
    (nested : ∀ program instrs indent, Keeps holds (w.nested program instrs indent))
    (plan : Plan α) : Keeps holds (plan.watch place w) := by
  induction plan with
  | pure a => exact pure a
  | bind first next ih ih' => exact bind invariant ih ih'
  | stop cause => exact unseen .refl
  | reach instrs => exact see _
  | find ref => exact unseen .refl
  | given name => exact unseen .refl
  | put text ends => exact unseen fun _ => ⟨rfl, rfl, rfl, .refl _⟩
  | record call => exact unseen fun m => ⟨rfl, rfl, rfl, .calls m.store _⟩
  | fetch origin source =>
    refine unseen fun m => ?_
    rw [run_fetch]
    exact ⟨rfl, rfl, rfl, (Engine.fetch_answers _ _ _ _).follows⟩
  | located span inner ih => exact located _ _ ih
  | observed inner ih => exact observed ih
  | keepingLineStart inner ih => exact keepingLineStart invariant ih
  | aside inner ih => exact aside ih
  | within frame sec => exact withFrame invariant frame (body sec)
  | invoke invocation program instrs indent =>
    subst same
    exact invoke invariant invocation (nested program instrs indent)
  | answer program =>
    exact bind invariant (unseen fun _ => ⟨rfl, rfl, rfl, .refl _⟩) fun _ =>
      nested program program.instrs ""

end Keeps

section

variable {env : Env} {holds : List Invocation → Machine → Prop}
  (invariant : Invariant env.engine.maxDepth holds)

include invariant

theorem keeps_watchBody {nested : Program → List Instr → String → Watch String}
    (keeps : ∀ program instrs indent, Keeps holds (nested program instrs indent))
    (program : Program) (indent : String) (budget : Nat) (instrs : List Instr) :
    Keeps holds (watchBody env nested program indent budget instrs) := by
  induction budget generalizing instrs with
  | zero => exact .unseen .refl
  | succ budget ih =>
    refine .plan invariant ?_ ?_ ?_ _
    · rfl
    · exact fun sec => ih sec.instrs
    · exact keeps

theorem keeps_watchRun (levels : Nat) (program : Program) (instrs : List Instr) (indent : String) :
    Keeps holds (watchRun env levels program instrs indent) := by
  induction levels generalizing program instrs indent with
  | zero => exact .unseen .refl
  | succ levels ih => exact keeps_watchBody invariant ih program indent _ instrs

end

/-- Nothing more than that a run leaves its machine steady. -/
abbrev Steadies {α : Type} (w : Watch α) : Prop := Keeps (fun _ _ => True) w

theorem always (limit : Nat) : Invariant limit fun _ _ => True :=
  ⟨fun _ _ _ _ _ _ => trivial, fun _ _ _ _ _ => trivial⟩

/-- However a run ends, it leaves its machine steady. -/
theorem steady_run (env : Env) (levels : Nat) (program : Program) (instrs : List Instr) (indent : String)
    (m : Machine) : Steady m ((run env levels program instrs indent).run.run m).2 := by
  rw [← act_watchRun env levels program instrs indent []]
  exact (keeps_watchRun (always _) levels program instrs indent [] m trivial).1

theorem steady_runBody (env : Env) (levels : Nat) (program : Program) (indent : String) (budget : Nat)
    (instrs : List Instr) (m : Machine) :
    Steady m ((runBody env (run env levels) program indent budget instrs).run.run m).2 := by
  rw [← act_watchBody (act_watchRun env levels) program indent budget instrs []]
  exact (keeps_watchBody (always _) (keeps_watchRun (always _) levels) program indent budget instrs [] m
    trivial).1

end Mustache.Render
