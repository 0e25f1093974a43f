import Mustache.Proofs.Program.Forward
import Mustache.Proofs.Render.Balanced

/-! Runs with a helper that nothing looks for, and without it. Helpers are the frame at the bottom, so
that the same is found by name in both runs; only where nothing is above them do they show as a whole. -/
namespace Mustache

/-- The name that is looked for in the entries of frames; a point alone looks for none. -/
def Ref.root? (ref : Ref) : Option String :=
  match ref.lookup with
  | .top => none
  | .anywhere => some ref.name
  | .path => (Frames.segments ref.name.toList).head?
  | .anchored => (Frames.anchoredPath ref.name.toList).head?

namespace Frames

/-- The frame of helpers, if there are any. -/
def ofHelpers (helpers : List (String × Value)) : Frames :=
  if helpers.isEmpty then [] else [.map helpers]

theorem exists_segments_eq (name : List Char) : ∃ first rest, segments name = first :: rest := by
  unfold segments
  cases parts : Text.pieces (· == '.') name with
  | nil => exact absurd parts (Text.pieces_ne_nil _ _)
  | cons first rest => exact ⟨_, _, rfl⟩

section

variable (helpers : List (String × Value)) (first : String) (rest : List String)

theorem findSome?_ofHelpers :
    (ofHelpers helpers).findSome? (·.index? first) = Entries.get? first helpers := by
  cases helpers with
  | nil => rfl
  | cons entry more => exact List.findSome?_singleton

theorem path?_ofHelpers :
    (ofHelpers helpers).head?.bind (·.path? (first :: rest)) =
      (Entries.get? first helpers).bind (·.path? rest) := by
  cases helpers <;> rfl

theorem followPath_ofHelpers :
    followPath (ofHelpers helpers) (first :: rest) =
      (Entries.get? first helpers).bind (·.path? rest) := by
  cases helpers with
  | nil => rfl
  | cons entry more =>
    have only : (Value.map (entry :: more)).path? [first] = Entries.get? first (entry :: more) :=
      Option.bind_fun_some _
    show followPath [Value.map (entry :: more)] (first :: rest) = _
    rw [followPath, List.take_succ_cons, List.take_zero, only]
    cases found : Entries.get? first (entry :: more) with
    | none => rfl
    | some v =>
      show (Entries.get? first (entry :: more)).bind (·.path? rest) = _
      rw [found]

end

theorem followPath_append {inner base base' : Frames} {parts : List String}
    (same : followPath base' parts = followPath base parts) :
    followPath (inner ++ base') parts = followPath (inner ++ base) parts := by
  induction inner with
  | nil => exact same
  | cons frame outer ih =>
    rw [List.cons_append, List.cons_append, followPath, followPath, ih]

/-- A helper shows only to those who look for its name, or for all that is on top. -/
theorem find_ofHelpers_put {name : String} (v : Value) (helpers : List (String × Value))
    {inner : Frames} {ref : Ref} (unused : ref.root? ≠ some name)
    (covered : ref.lookup = .top → inner ≠ []) :
    find (inner ++ ofHelpers (Entries.put name v helpers)) ref =
      find (inner ++ ofHelpers helpers) ref := by
  have other {first : String} (apart : first ≠ name) :
      Entries.get? first (Entries.put name v helpers) = Entries.get? first helpers := by
    rw [Entries.get?_put, if_neg apart]
  unfold find find?
  unfold Ref.root? at unused
  cases lookup : ref.lookup with
  | top =>
    cases inner with
    | nil => exact absurd rfl (covered lookup)
    | cons frame outer => rfl
  | anywhere =>
    rw [lookup] at unused
    have apart : ref.name ≠ name := fun same => unused (congrArg some same)
    dsimp only
    rw [List.findSome?_append, List.findSome?_append, findSome?_ofHelpers, findSome?_ofHelpers,
      other apart]
  | path =>
    rw [lookup] at unused
    obtain ⟨first, rest, parts⟩ := exists_segments_eq ref.name.toList
    rw [parts] at unused
    have apart : first ≠ name := fun same => unused (congrArg some same)
    dsimp only
    rw [parts, followPath_append]
    rw [followPath_ofHelpers, followPath_ofHelpers, other apart]
  | anchored =>
    rw [lookup] at unused
    obtain ⟨first, rest, parts⟩ :=
      exists_segments_eq (if ref.name.toList.head? = some '.' then ref.name.toList.tail else ref.name.toList)
    have parts : anchoredPath ref.name.toList = first :: rest := parts
    rw [parts] at unused
    have apart : first ≠ name := fun same => unused (congrArg some same)
    dsimp only
    rw [parts]
    cases inner with
    | nil =>
      rw [List.nil_append, List.nil_append, path?_ofHelpers, path?_ofHelpers, other apart]
    | cons frame outer => rfl

/-- Helpers as a whole are not what calls a lambda. -/
theorem callable?_ofHelpers_put {name : String} (v : Value) (helpers : List (String × Value))
    {inner : Frames} {ref : Ref} (unused : ref.root? ≠ some name) (strict : Bool) :
    (find (inner ++ ofHelpers (Entries.put name v helpers)) ref).callable? strict =
      (find (inner ++ ofHelpers helpers) ref).callable? strict := by
  by_cases bare : ref.lookup = .top ∧ inner = []
  · obtain ⟨lookup, rfl⟩ := bare
    have quiet (helpers : List (String × Value)) :
        (find ([] ++ ofHelpers helpers) ref).callable? strict = none := by
      unfold find find?
      rw [lookup]
      cases helpers <;> rfl
    rw [quiet, quiet]
  · rw [find_ofHelpers_put v helpers unused fun lookup none => bare ⟨lookup, none⟩]

end Frames

namespace Render

/-- An environment with one more helper. -/
def Env.withHelper (env : Env) (name : String) (v : Value) : Env :=
  { env with engine := env.engine.addHelper name v }

def Place.withHelper (p : Place) (name : String) (v : Value) : Place :=
  { p with env := p.env.withHelper name v }

/-- What a step sets out to do does not depend on the helpers. -/
theorem Place.step_withHelper (p : Place) (name : String) (v : Value) (instr : Instr)
    (expression : Option Value) :
    (p.withHelper name v).step instr expression = p.step instr expression := by
  cases instr <;> cases expression <;> rfl

theorem Place.steps_withHelper (p : Place) (name : String) (v : Value) (instrs : List Instr)
    (skip : Nat) (expression : Option Value) :
    (p.withHelper name v).steps instrs skip expression = p.steps instrs skip expression := by
  induction instrs generalizing skip expression with
  | nil => cases skip <;> cases expression <;> rfl
  | cons instr rest ih =>
    cases skip with
    | succ skip => exact ih skip expression
    | zero => simp only [steps, step_withHelper, ih]

/-! ### Plans that look at no frame -/

def Plan.Blind : {α : Type} → Plan α → Prop
  | _, .bind first next => first.Blind ∧ ∀ a, (next a).Blind
  | _, .find _ => False
  | _, .located _ inner => inner.Blind
  | _, .observed inner => inner.Blind
  | _, .keepingLineStart inner => inner.Blind
  | _, .aside inner => inner.Blind
  | _, .pure _ | _, .stop _ | _, .reach _ | _, .given _ | _, .put _ _ | _, .record _ | _, .fetch _ _
  | _, .within _ _ | _, .invoke _ _ _ _ | _, .answer _ => True

namespace Plan

theorem blind_ofExcept {α : Type} (result : Except Error α) : (ofExcept result).Blind := by
  cases result <;> exact trivial

theorem blind_callInterpolation (lambdas : Lambdas) (handle : Lambda) :
    (callInterpolation lambdas handle).Blind := by
  unfold callInterpolation
  cases handle.shape with
  | interpolation => exact ⟨trivial, fun _ => blind_ofExcept _⟩
  | enclosing => exact trivial
  | filter => exact trivial

theorem blind_callFilter (lambdas : Lambdas) (handle : Lambda) (v : Value) :
    (callFilter lambdas handle v).Blind := by
  unfold callFilter
  cases handle.shape with
  | interpolation => exact blind_callInterpolation lambdas handle
  | enclosing => exact trivial
  | filter => exact ⟨trivial, fun _ => blind_ofExcept _⟩

theorem blind_converse {render : String → Plan String} (texts : ∀ text, (render text).Blind)
    (dialogue : Dialogue) : (converse render dialogue).Blind := by
  induction dialogue with
  | done result => exact blind_ofExcept result
  | render text next ih => exact ⟨texts text, ih⟩

theorem blind_callEnclosing (lambdas : Lambdas) {render : String → Plan String}
    (texts : ∀ text, (render text).Blind) (handle : Lambda) (text : String) :
    (callEnclosing lambdas render handle text).Blind := by
  unfold callEnclosing
  cases handle.shape with
  | interpolation => exact blind_callInterpolation lambdas handle
  | enclosing => exact ⟨trivial, fun _ => blind_converse texts _⟩
  | filter => exact blind_callFilter lambdas handle _

theorem blind_forFrames (sec : Section) (frames : List Value) : (forFrames sec frames).Blind := by
  induction frames with
  | nil => exact trivial
  | cons frame rest ih => exact ⟨trivial, fun _ => ⟨ih, fun _ => trivial⟩⟩

end Plan

namespace Place

variable (p : Place)

theorem blind_textOf (span : Span) (v : Value) : (p.textOf span v).Blind := by
  unfold textOf
  cases v.text? <;> exact trivial

theorem blind_resolve (span : Span) (v : Value) : (p.resolve span v).Blind := by
  unfold resolve
  cases v.callable? p.program.strictCallables with
  | none => exact trivial
  | some handle =>
    refine ⟨Plan.blind_callInterpolation _ _, fun result => ⟨blind_textOf p span result, fun text => ?_⟩⟩
    exact ⟨trivial, fun _ => ⟨trivial, fun _ => trivial⟩⟩

theorem blind_enclose (sec : Section) (handle : Lambda) : (p.enclose sec handle).Blind := by
  have texts (text : String) : (renderFor sec text).Blind := ⟨trivial, fun _ => trivial⟩
  refine ⟨Plan.blind_callEnclosing _ texts _ _, fun result => ⟨blind_textOf p sec.span result, ?_⟩⟩
  intro text
  dsimp only
  split
  · exact ⟨trivial, fun _ => trivial⟩
  · split <;> exact trivial

theorem blind_repeated (key : Key) (v : Value) : (p.repeated key v).Blind := by
  unfold «repeated»
  cases Entries.get? key p.program.sections with
  | none => exact trivial
  | some sec =>
    dsimp only
    cases v.callable? p.program.strictCallables with
    | some handle => exact blind_enclose p sec handle
    | none =>
      dsimp only
      split
      · exact trivial
      · exact Plan.blind_forFrames sec _

theorem blind_fetchPartial (name : String) : (p.fetchPartial name).Blind := by
  unfold fetchPartial
  cases p.env.engine.partials.bind (·.load p.env.shelves name) with
  | none => exact trivial
  | some source => exact ⟨trivial, fun _ => trivial⟩

theorem blind_partialCall (name indent : String) : (p.partialCall name indent).Blind := by
  refine ⟨blind_fetchPartial p name, fun found => ?_⟩
  cases found <;> exact trivial

theorem blind_parentCall (name indent : String) (given : List (String × Key)) :
    (p.parentCall name indent given).Blind := by
  refine ⟨blind_fetchPartial p name, fun found => ?_⟩
  cases found <;> exact trivial

theorem blind_slot (name : String) : (slot name).Blind := by
  refine ⟨trivial, fun found => ?_⟩
  cases found with
  | none => exact trivial
  | some override =>
    dsimp only
    cases Entries.get? override.key override.program.blocks with
    | none => exact trivial
    | some instrs => exact ⟨trivial, fun _ => trivial⟩

/-- Only look-ups and filters look at frames. -/
theorem blind_step {instr : Instr} (elsewhere : instr.ref? = none) (expression : Option Value) :
    (p.step instr expression).Blind := by
  cases instr with
  | text text => exact ⟨trivial, fun _ => trivial⟩
  | lookup ref => cases elsewhere
  | resolve span =>
    cases expression with
    | none => exact trivial
    | some v => exact ⟨blind_resolve p span v, fun _ => trivial⟩
  | apply ref => cases elsewhere
  | emit isEscaped span =>
    cases expression with
    | none => exact trivial
    | some v => exact ⟨blind_textOf p span v, fun _ => ⟨trivial, fun _ => trivial⟩⟩
  | «repeated» key =>
    cases expression with
    | none => exact trivial
    | some v => exact ⟨blind_repeated p key v, fun _ => trivial⟩
  | unlessEmpty skip => cases expression <;> exact trivial
  | partialCall name indent => exact ⟨blind_partialCall p name indent, fun _ => trivial⟩
  | parentCall name indent given => exact ⟨blind_parentCall p name indent given, fun _ => trivial⟩
  | slot name skip =>
    refine ⟨blind_slot name, fun found => ?_⟩
    cases found <;> exact trivial
  | strayArgument name => exact trivial

end Place

/-! ### Runs over other frames at the bottom -/

def Machine.above (m : Machine) (inner base : Frames) : Machine := { m with frames := inner ++ base }

section

variable (ok : Moment → Prop) (base base' : Frames)

/-- If all that is seen of the one run is as it should be, the other one ends like it. -/
def ConcursAt {α : Type} (inner : Frames) (active : List Invocation) (m : Machine)
    (w w' : Watch α) : Prop :=
  (∀ moment ∈ (w active m).moments, ok moment) →
    (w' active (m.above inner base')).outcome = (w active m).outcome ∧
      (w' active (m.above inner base')).machine = (w active m).machine.above inner base'

def Concurs {α : Type} (w w' : Watch α) : Prop :=
  ∀ inner active m, m.frames = inner ++ base → ConcursAt ok base' inner active m w w'

end

section

variable {ok : Moment → Prop} {base base' : Frames} {α β : Type}

namespace ConcursAt

variable {inner : Frames} {active : List Invocation} {m : Machine}

theorem bind {first first' : Watch α} {next next' : α → Watch β}
    (before : ConcursAt ok base' inner active m first first')
    (after : ∀ a, ConcursAt ok base' inner active (first active m).machine (next a) (next' a)) :
    ConcursAt ok base' inner active m (Watch.bind first next) (Watch.bind first' next') := by
  unfold ConcursAt Watch.bind at *
  dsimp only
  generalize first active m = ran at before after ⊢
  obtain ⟨outcome, m', moments⟩ := ran
  intro seen
  cases outcome with
  | error stop =>
    obtain ⟨outcome, machine⟩ := before seen
    rw [outcome]
    exact ⟨rfl, machine⟩
  | ok a =>
    obtain ⟨outcome, machine⟩ := before fun moment member => seen moment (List.mem_append_left _ member)
    rw [outcome, machine]
    exact after a fun moment member => seen moment (List.mem_append_right _ member)

/-- What does the same on any frames and leaves them alone. -/
theorem unseen {action : Act α}
    (same : action.run.run (m.above inner base') =
      ((action.run.run m).1, (action.run.run m).2.above inner base')) :
    ConcursAt ok base' inner active m (.unseen action) (.unseen action) := by
  intro _
  show (action.run.run (m.above inner base')).1 = _ ∧ (action.run.run (m.above inner base')).2 = _
  rw [same]
  exact ⟨rfl, rfl⟩

end ConcursAt

namespace Concurs

theorem bind {first first' : Watch α} {next next' : α → Watch β} (steady : Steadies first)
    (before : Concurs ok base base' first first') (after : ∀ a, Concurs ok base base' (next a) (next' a)) :
    Concurs ok base base' (Watch.bind first next) (Watch.bind first' next') := by
  intro inner active m frames
  refine (before inner active m frames).bind fun a => after a inner active _ ?_
  rw [(steady active m trivial).1.frames, frames]

theorem located (source : String) (span : Span) {w w' : Watch α} (concurs : Concurs ok base base' w w') :
    Concurs ok base base' (.located source span w) (.located source span w') := by
  intro inner active m frames seen
  obtain ⟨outcome, machine⟩ := concurs inner active m frames seen
  refine ⟨?_, machine⟩
  unfold Watch.located
  dsimp only
  rw [outcome]

theorem observed {w w' : Watch α} (concurs : Concurs ok base base' w w') :
    Concurs ok base base' (.observed w) (.observed w') := by
  intro inner active m frames seen
  obtain ⟨outcome, machine⟩ := concurs inner active m frames seen
  refine ⟨?_, machine⟩
  unfold Watch.observed
  dsimp only
  rw [outcome]

theorem keepingLineStart {w w' : Watch α} (concurs : Concurs ok base base' w w') :
    Concurs ok base base' (.keepingLineStart w) (.keepingLineStart w') := by
  intro inner active m frames seen
  obtain ⟨outcome, machine⟩ := concurs inner active m frames seen
  refine ⟨outcome, ?_⟩
  show { (w' active (m.above inner base')).machine with lineStart := m.lineStart } = _
  rw [machine]
  rfl

theorem aside {w w' : Watch α} (concurs : Concurs ok base base' w w') :
    Concurs ok base base' (.aside w) (.aside w') := by
  intro inner active m frames seen
  obtain ⟨outcome, machine⟩ := concurs inner active m frames seen
  refine ⟨outcome, ?_⟩
  show { m.above inner base' with store := (w' active (m.above inner base')).machine.store } = _
  rw [machine]
  rfl

theorem withFrame (frame : Value) {w w' : Watch α} (steady : Steadies w)
    (concurs : Concurs ok base base' w w') :
    Concurs ok base base' (.withFrame frame w) (.withFrame frame w') := by
  intro inner active m frames seen
  let pushed : Machine := { m with frames := frame :: m.frames }
  have there : pushed.frames = (frame :: inner) ++ base := congrArg (frame :: ·) frames
  rw [Watch.withFrame_apply frame rfl (steady active pushed trivial).1.frames] at seen ⊢
  obtain ⟨outcome, machine⟩ := concurs (frame :: inner) active pushed there seen
  have left : (w' active (pushed.above (frame :: inner) base')).machine.frames =
      frame :: (m.above inner base').frames := by
    rw [machine]
    rfl
  rw [Watch.withFrame_apply frame rfl left]
  refine ⟨outcome, ?_⟩
  show { (w' active (pushed.above (frame :: inner) base')).machine with
    frames := (m.above inner base').frames } = _
  rw [machine]
  rfl

theorem invoke (limit : Nat) (invocation : Invocation) {w w' : Watch String} (steady : Steadies w)
    (concurs : Concurs ok base base' w w') :
    Concurs ok base base' (.deeper limit invocation (Plan.watchEntering invocation w))
      (.deeper limit invocation (Plan.watchEntering invocation w')) := by
  intro inner active m frames seen
  by_cases below : m.depth < limit
  · have kept := (steady (invocation :: active) (m.enter invocation) trivial).1.overlay
    rw [Plan.invoke_apply below rfl kept] at seen ⊢
    obtain ⟨outcome, machine⟩ := concurs inner (invocation :: active) (m.enter invocation) frames
      fun moment member => seen moment (List.mem_cons_of_mem _ member)
    have left : (w' (invocation :: active) ((m.enter invocation).above inner base')).machine.overlay =
        (m.enter invocation).overlay := by
      rw [machine]
      exact kept
    have below' : (m.above inner base').depth < limit := below
    have entered : w' (invocation :: active) ((m.above inner base').enter invocation) =
        w' (invocation :: active) ((m.enter invocation).above inner base') := rfl
    rw [Plan.invoke_apply below' entered left]
    refine ⟨outcome, ?_⟩
    dsimp only
    rw [machine]
    rfl
  · have full := Nat.le_of_not_lt below
    have full' : limit ≤ (m.above inner base').depth := full
    rw [Watch.deeper_apply, Watch.deeper_apply, if_pos full, if_pos full']
    exact ⟨rfl, rfl⟩

/-- A plan that looks at no frame. -/
theorem plan {p : Place} (name : String) (v : Value) {w w' : Watchers}
    (steadyBody : ∀ sec, Steadies (w.body sec))
    (steadyNested : ∀ program instrs indent, Steadies (w.nested program instrs indent))
    (body : ∀ sec, Concurs ok base base' (w.body sec) (w'.body sec))
    (nested : ∀ program instrs indent,
      Concurs ok base base' (w.nested program instrs indent) (w'.nested program instrs indent))
    {plan : Plan α} (blind : plan.Blind) :
    Concurs ok base base' (plan.watch p w) (plan.watch (p.withHelper name v) w') := by
  induction plan with
  | pure a => exact fun _ _ _ _ _ => ⟨rfl, rfl⟩
  | bind first next ih ih' =>
    exact bind (.plan (always _) rfl steadyBody steadyNested first) (ih blind.1) fun a => ih' a (blind.2 a)
  | stop cause => exact fun _ _ _ _ => .unseen rfl
  | reach instrs => exact fun _ _ _ _ _ => ⟨rfl, rfl⟩
  | find ref => exact blind.elim
  | given name => exact fun _ _ _ _ => .unseen rfl
  | put text ends => exact fun _ _ _ _ => .unseen rfl
  | record call => exact fun _ _ _ _ => .unseen rfl
  | fetch origin source =>
    intro inner active m frames
    refine ConcursAt.unseen ?_
    rw [run_fetch, run_fetch]
    rfl
  | located span inner ih => exact located _ span (ih blind)
  | observed inner ih => exact observed (ih blind)
  | keepingLineStart inner ih => exact keepingLineStart (ih blind)
  | aside inner ih => exact aside (ih blind)
  | within frame sec => exact withFrame frame (steadyBody sec) (body sec)
  | invoke invocation program instrs indent =>
    exact invoke _ invocation (steadyNested program instrs indent) (nested program instrs indent)
  | answer program =>
    intro inner active m frames
    have start : ConcursAt ok base' inner active m
        (.unseen (modify fun m : Machine => { m with lineStart := true }))
        (.unseen (modify fun m : Machine => { m with lineStart := true })) := .unseen rfl
    exact start.bind fun _ => nested program program.instrs "" inner active _ frames

end Concurs

end

/-! ### Runs without the helper -/

/-- What an instruction that is reached looks up for a value. -/
def Event.lookup? : Event → Option Ref
  | .reached _ (.lookup ref :: _) => some ref
  | _ => none

/-- What an instruction that is reached looks up for a filter. -/
def Event.filter? : Event → Option Ref
  | .reached _ (.apply ref :: _) => some ref
  | _ => none

/-- A moment at which a helper of some name does not show: its name is not looked for, and if a value is
all that is on top, there is more above than the helpers. -/
structure Moment.Overlooks (moment : Moment) (helpers : List (String × Value)) (name : String) : Prop where
  lookup : ∀ ref ∈ moment.event.lookup?, ref.root? ≠ some name
  filter : ∀ ref ∈ moment.event.filter?, ref.root? ≠ some name
  covered : ∀ ref ∈ moment.event.lookup?, ref.lookup = .top →
    (Frames.ofHelpers helpers).length < moment.machine.frames.length

instance (moment : Moment) (helpers : List (String × Value)) (name : String) :
    Decidable (moment.Overlooks helpers name) :=
  decidable_of_iff
    ((∀ ref ∈ moment.event.lookup?, ref.root? ≠ some name) ∧
      (∀ ref ∈ moment.event.filter?, ref.root? ≠ some name) ∧
      ∀ ref ∈ moment.event.lookup?, ref.lookup = .top →
        (Frames.ofHelpers helpers).length < moment.machine.frames.length)
    ⟨fun ⟨lookup, filter, covered⟩ => ⟨lookup, filter, covered⟩,
      fun overlooks => ⟨overlooks.lookup, overlooks.filter, overlooks.covered⟩⟩

section

variable {helpers : List (String × Value)} {name : String} {v : Value}

/-- Runs over helpers and over those with one more, if that does not show in the first one. -/
abbrev Overlooked (helpers : List (String × Value)) (name : String) (v : Value) {α : Type}
    (w w' : Watch α) : Prop :=
  Concurs (fun moment => moment.Overlooks helpers name) (Frames.ofHelpers helpers)
    (Frames.ofHelpers (Entries.put name v helpers)) w w'

/-- Watchers of runs that leave their machine steady, and of the runs with the helper. -/
structure Watchers.Overlook (helpers : List (String × Value)) (name : String) (v : Value)
    (w w' : Watchers) : Prop where
  steadyBody : ∀ sec, Steadies (w.body sec)
  steadyNested : ∀ program instrs indent, Steadies (w.nested program instrs indent)
  body : ∀ sec, Overlooked helpers name v (w.body sec) (w'.body sec)
  nested : ∀ program instrs indent,
    Overlooked helpers name v (w.nested program instrs indent) (w'.nested program instrs indent)

namespace Watchers.Overlook

variable {p : Place} {w w' : Watchers} (overlook : w.Overlook helpers name v w') {α : Type}
  {active : List Invocation} {m : Machine} {inner : Frames}

include overlook

theorem plan {plan : Plan α} (blind : plan.Blind) :
    Overlooked helpers name v (plan.watch p w) (plan.watch (p.withHelper name v) w') :=
  .plan name v overlook.steadyBody overlook.steadyNested overlook.body overlook.nested blind

/-- Looking at frames does not matter if the plan goes on alike with what is found on either. -/
theorem find {ref : Ref} {next : Value → Plan α} (frames : m.frames = inner ++ Frames.ofHelpers helpers)
    (blind : ∀ found, (next found).Blind)
    (same : next (Frames.find (inner ++ Frames.ofHelpers (Entries.put name v helpers)) ref) =
      next (Frames.find (inner ++ Frames.ofHelpers helpers) ref)) :
    ConcursAt (fun moment => moment.Overlooks helpers name)
      (Frames.ofHelpers (Entries.put name v helpers)) inner active m
      ((Plan.find ref >>= next).watch p w) ((Plan.find ref >>= next).watch (p.withHelper name v) w') := by
  have later := overlook.plan (p := p) (blind (m.frames.find ref)) inner active m frames
  intro seen
  show ((next (Frames.find (inner ++ Frames.ofHelpers (Entries.put name v helpers)) ref)).watch
      (p.withHelper name v) w' active (m.above inner _)).outcome = _ ∧
    ((next (Frames.find (inner ++ Frames.ofHelpers (Entries.put name v helpers)) ref)).watch
      (p.withHelper name v) w' active (m.above inner _)).machine = _
  rw [same, ← frames]
  exact later seen

theorem step (frames : m.frames = inner ++ Frames.ofHelpers helpers) {instr : Instr} {rest : List Instr}
    (here : Moment.Overlooks ⟨active, m, .reached p.program (instr :: rest)⟩ helpers name)
    (expression : Option Value) :
    ConcursAt (fun moment => moment.Overlooks helpers name)
      (Frames.ofHelpers (Entries.put name v helpers)) inner active m
      ((p.step instr expression).watch p w)
      ((p.step instr expression).watch (p.withHelper name v) w') := by
  cases instr with
  | lookup ref =>
    cases expression with
    | some v => exact .unseen rfl
    | none =>
      have above (top : ref.lookup = .top) : inner ≠ [] := by
        rintro rfl
        have more := here.covered ref rfl top
        dsimp only at more
        rw [frames] at more
        exact Nat.lt_irrefl _ more
      refine overlook.find frames (fun _ => trivial) ?_
      rw [Frames.find_ofHelpers_put v helpers (here.lookup ref rfl) above]
  | apply ref =>
    cases expression with
    | none => exact .unseen rfl
    | some given =>
      have applied : ConcursAt (fun moment => moment.Overlooks helpers name)
          (Frames.ofHelpers (Entries.put name v helpers)) inner active m
          ((p.apply ref given).watch p w) ((p.apply ref given).watch (p.withHelper name v) w') := by
        refine overlook.find frames ?_ ?_
        · intro found
          cases found.callable? p.program.strictCallables with
          | none => exact trivial
          | some handle => exact Plan.blind_callFilter _ handle given
        · rw [Frames.callable?_ofHelpers_put v helpers (here.filter ref rfl)]
      exact applied.bind fun _ _ => ⟨rfl, rfl⟩
  | _ => exact overlook.plan (p.blind_step rfl expression) inner active m frames

theorem steps (instrs : List Instr) (skip : Nat) (expression : Option Value) :
    Overlooked helpers name v ((p.steps instrs skip expression).watch p w)
      ((p.steps instrs skip expression).watch (p.withHelper name v) w') := by
  induction instrs generalizing skip expression with
  | nil => cases skip <;> cases expression <;> exact overlook.plan trivial
  | cons instr rest ih =>
    cases skip with
    | succ skip => exact ih skip expression
    | zero =>
      intro inner active m frames seen
      have here := seen _ List.mem_cons_self
      have first := overlook.step frames here expression
      have steady : Steadies ((p.step instr expression).watch p w) :=
        .plan (always _) rfl overlook.steadyBody overlook.steadyNested _
      have kept := (steady active m trivial).1.frames.trans frames
      have later (outcome : Outcome) := ih outcome.skip outcome.expression inner active _ kept
      have joined (outcome : Outcome) : ConcursAt (fun moment => moment.Overlooks helpers name)
          (Frames.ofHelpers (Entries.put name v helpers)) inner active _
          (Watch.bind _ fun more => Watch.pure (outcome.text ++ more))
          (Watch.bind _ fun more => Watch.pure (outcome.text ++ more)) :=
        (later outcome).bind fun _ _ => ⟨rfl, rfl⟩
      exact first.bind joined fun moment member => seen moment (List.mem_cons_of_mem _ member)

end Watchers.Overlook

theorem overlooked_watchRun (env : Env) (name : String) (v : Value) (levels : Nat) (program : Program)
    (instrs : List Instr) (indent : String) :
    Overlooked env.engine.helpers name v (watchRun env levels program instrs indent)
      (watchRun (env.withHelper name v) levels program instrs indent) := by
  induction levels generalizing program instrs indent with
  | zero => exact fun _ _ _ _ => .unseen rfl
  | succ levels ih =>
    have bodies (budget : Nat) (instrs : List Instr) : Overlooked env.engine.helpers name v
        (watchBody env (watchRun env levels) program indent budget instrs)
        (watchBody (env.withHelper name v) (watchRun (env.withHelper name v) levels) program indent budget
          instrs) := by
      induction budget generalizing instrs with
      | zero => exact fun _ _ _ _ => .unseen rfl
      | succ budget ih' =>
        let p : Place := ⟨env, program, indent⟩
        have overlook : Watchers.Overlook env.engine.helpers name v
            ⟨fun sec => watchBody env (watchRun env levels) program indent budget sec.instrs,
              watchRun env levels⟩
            ⟨fun sec => watchBody (env.withHelper name v) (watchRun (env.withHelper name v) levels)
              program indent budget sec.instrs, watchRun (env.withHelper name v) levels⟩ :=
          ⟨fun sec => keeps_watchBody (always _) (keeps_watchRun (always _) levels) program indent budget
            sec.instrs, keeps_watchRun (always _) levels, fun sec => ih' sec.instrs, ih⟩
        show Overlooked _ name v ((p.steps instrs 0 none).watch p _)
          (((p.withHelper name v).steps instrs 0 none).watch (p.withHelper name v) _)
        rw [p.steps_withHelper]
        exact overlook.steps instrs 0 none
    exact bodies _ instrs

end

/-- A helper does not matter to a template, whatever it includes and its lambdas give, if no tag, filter
or path that is come to looks for its name, and no point by itself is looked up for a value where nothing
is above the helpers: neither to the result, nor to what the engine keeps. -/
theorem render_addHelper {env : Env} {program : Program} {context : Value} {store : Store} {name : String}
    (v : Value)
    (unused : ∀ moment ∈ (watchRender env program context store).moments,
      moment.Overlooks env.engine.helpers name) :
    render { env with engine := env.engine.addHelper name v } program context store =
      render env program context store := by
  let context? : Frames := if context.isEmpty then [] else [context]
  have concurs := overlooked_watchRun env name v (env.engine.maxDepth + lambdaAllowance + 1) program
    program.instrs "" context? [] (initial env context store) rfl unused
  obtain ⟨outcome, machine⟩ := concurs
  rw [render_eq_watchRender, render_eq_watchRender]
  have stored := congrArg Machine.store machine
  exact congrArg₂ Prod.mk outcome stored

/-- Over an empty context a point stands for a helper that a section shows, and a path and a partial look
for other names. -/
theorem render_addHelper_shown :
    ∃ (env : Env) (program : Program),
      Program.compile env.engine.dialect default
        "\x7b\x7b#g\x7d\x7d\x7b\x7b.\x7d\x7d\x7b\x7b/g\x7d\x7d\x7b\x7ba.h\x7d\x7d\x7b\x7b>h\x7d\x7d" =
        .ok program ∧
      (∀ moment ∈ (watchRender env program (.map []) {}).moments,
        moment.Overlooks env.engine.helpers "h") ∧
      (render env program (.map []) {}).1 = .ok "x-x" ∧
      render { env with engine := env.engine.addHelper "h" (.string "y") } program (.map []) {} =
        render env program (.map []) {} := by
  let partials : Loader := .fixed [("h", "-\x7b\x7bg\x7d\x7d")]
  let env : Env := ⟨{ partials := some partials, helpers := [("g", .string "x")] }, [], ({} : Registry).lambdas⟩
  let source := "\x7b\x7b#g\x7d\x7d\x7b\x7b.\x7d\x7d\x7b\x7b/g\x7d\x7d\x7b\x7ba.h\x7d\x7d\x7b\x7b>h\x7d\x7d"
  have ran : (Program.compile env.engine.dialect default source).map (fun program =>
      (decide (∀ moment ∈ (watchRender env program (.map []) {}).moments,
        moment.Overlooks env.engine.helpers "h"), (render env program (.map []) {}).1)) =
      .ok (true, .ok "x-x") := by
    decide +kernel
  obtain ⟨program, compiled, told⟩ := ok_of_map ran
  obtain ⟨overlooks, rendered⟩ := Prod.mk.inj told
  have unused := of_decide_eq_true overlooks
  exact ⟨env, program, compiled, unused, rendered, render_addHelper (.string "y") unused⟩

/-- Where there is no helper and the context is empty, a point finds nothing, and with a helper that no
tag names it finds the helpers, which are not to be rendered. -/
theorem bare_point_finds_helpers :
    ∃ program : Program,
      let env : Env := ⟨{}, [], ({} : Registry).lambdas⟩
      Program.compile env.engine.dialect default "\x7b\x7b.\x7d\x7d" = .ok program ∧
      Entries.get? "h" env.engine.helpers = none ∧
      (∀ ref ∈ Instr.refs program.instrs, ref.root? ≠ some "h") ∧
      (render env program (.map []) {}).1 = .ok "" ∧
      (render { env with engine := env.engine.addHelper "h" (.string "x") } program (.map []) {}).1 =
        .error (.error ⟨.notRenderable "map", some ⟨"\x7b\x7b.\x7d\x7d", ⟨0, 5⟩⟩⟩) := by
  let point : Ref := ⟨.top, ".", ⟨0, 5⟩⟩
  refine ⟨⟨default, "\x7b\x7b.\x7d\x7d", .html .compat, false,
    [.lookup point, .resolve ⟨0, 5⟩, .emit true ⟨0, 5⟩], [], []⟩, ?_⟩
  decide +kernel

end Render
end Mustache
