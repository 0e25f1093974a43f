import Mustache.Proofs.Engine.Configured
import Mustache.Proofs.Session.Answers

/-! What engines have in memory does not show in a session: each step is answered as by new engines
without a cache. -/
namespace Mustache

open Markup

/-- Whether a step asks what is in memory. -/
def Step.inspects : Step → Bool
  | .report _ => true
  | .ask _ (.describe _) => true
  | _ => false

namespace Session

/-- The session with new engines, configured as those it has but without a cache. -/
def forget (s : Session) : Session :=
  { s with desks := s.desks.map fun (id, desk) => (id, { desk with memo := [], cache := none }) }

/-- The answers to steps that are each taken by new engines. -/
def runForgetting : List Step → Session → Except Refusal (List Answer)
  | [], _ => .ok []
  | first :: rest, s => do
    let (reply, s) ← s.forget.step first
    return reply :: (← runForgetting rest s)

def stepReads (s : Session) : Step → List (Engine × String)
  | .ask id request =>
    match Entries.get? id s.desks with
    | some desk => (request.reads ⟨desk.engine, s.shelves, s.lambdas⟩ s.calls).map (desk.engine, ·)
    | none => []
  | _ => []

/-- The sources that engines read in steps taken one after another. -/
def reads : List Step → Session → List (Engine × String)
  | [], _ => []
  | first :: rest, s => s.stepReads first ++
    match s.step first with
    | .ok (_, s) => reads rest s
    | .error _ => []

/-- Sessions that differ in what their engines have in memory, and in whether they use a cache. -/
structure Alike (s t : Session) : Prop where
  lambdas : s.lambdas = t.lambdas
  shelves : s.shelves = t.shelves
  loaders : s.loaders = t.loaders
  calls : s.calls = t.calls
  caches : ∀ name, Entries.has name s.caches = Entries.has name t.caches
  engines : ∀ id, (Entries.get? id s.desks).map (·.engine) = (Entries.get? id t.desks).map (·.engine)

/-- All programs in memory were made by known engines, and engines use caches that there are. -/
structure Kept (known : Engine → String → Prop) (s : Session) : Prop where
  memos : ∀ id desk, Entries.get? id s.desks = some desk →
    ∀ key program, Entries.get? key desk.memo = some program → Made known key program
  caches : ∀ name cache, Entries.get? name s.caches = some cache → cache.policy ≠ .pinned ∧
    ∀ key program, cache.find? key = some program → Made known key program
  used : ∀ id desk, Entries.get? id s.desks = some desk →
    ∀ name, desk.cache = some name → Entries.has name s.caches = true

inductive Matches (known : Engine → String → Prop) :
    Except Refusal (Answer × Session) → Except Refusal (Answer × Session) → Prop
  | ok (reply : Answer) (s t : Session) (alike : s.Alike t) (kept : s.Kept known) :
    Matches known (.ok (reply, s)) (.ok (reply, t))
  | error (refusal : Refusal) : Matches known (.error refusal) (.error refusal)

variable {known : Engine → String → Prop} {s t : Session}

theorem Matches.bind {α : Type} {first : Except Refusal α}
    {next next' : α → Except Refusal (Answer × Session)}
    (later : ∀ a, first = .ok a → Matches known (next a) (next' a)) :
    Matches known (first >>= next) (first >>= next') := by
  cases first with
  | error refusal => exact .error refusal
  | ok a => exact later a rfl

theorem get?_forget (s : Session) (id : String) :
    Entries.get? id s.forget.desks =
      (Entries.get? id s.desks).map fun desk => { desk with memo := [], cache := none } := by
  unfold forget
  dsimp only
  induction s.desks with
  | nil => rfl
  | cons entry rest ih =>
    obtain ⟨other, desk⟩ := entry
    simp only [List.map_cons, Entries.get?]
    split
    · rfl
    · exact ih

theorem Alike.forget (alike : s.Alike t) : s.Alike t.forget where
  lambdas := alike.lambdas
  shelves := alike.shelves
  loaders := alike.loaders
  calls := alike.calls
  caches := alike.caches
  engines := by
    intro id
    rw [get?_forget, Option.map_map, alike.engines id]
    rfl

theorem Alike.loader (alike : s.Alike t) : s.loader = t.loader := by
  funext name
  unfold Session.loader
  rw [alike.loaders]

theorem Alike.configure (alike : s.Alike t) : s.configure = t.configure := by
  have same : s.applySetting = t.applySetting := by
    funext builder setting
    cases setting <;> simp only [applySetting, alike.loader, alike.caches]
  funext settings
  unfold Session.configure
  rw [same]

theorem cache_of_applySetting {builder next : Builder} {setting : Setting}
    (applied : s.applySetting builder setting = .ok next) :
    next.cache = builder.cache ∨ ∃ name, next.cache = some name ∧ Entries.has name s.caches = true := by
  cases setting with
  | cache name =>
    unfold applySetting at applied
    dsimp only at applied
    split at applied
    · rename_i there
      cases applied
      exact .inr ⟨name, rfl, there⟩
    · cases applied
  | loader name | partialsLoader name =>
    obtain ⟨loader, -, set⟩ := bind_eq_ok applied
    cases set
    exact .inl rfl
  | pragmas names =>
    cases applied
    left
    induction names generalizing builder with
    | nil => rfl
    | cons name rest ih => exact ih
  | _ =>
    cases applied
    exact .inl rfl

/-- An engine is built to use a cache that there is. -/
theorem has_of_configure {settings : List Setting} {builder : Builder}
    (configured : s.configure settings = .ok builder) {name : String}
    (uses : builder.cache = some name) : Entries.has name s.caches = true := by
  have general (first : Builder)
      (before : ∀ name, first.cache = some name → Entries.has name s.caches = true)
      (folded : settings.foldlM s.applySetting first = .ok builder) :
      Entries.has name s.caches = true := by
    clear configured
    induction settings generalizing first with
    | nil =>
      cases folded
      exact before name uses
    | cons setting rest ih =>
      rw [List.foldlM_cons] at folded
      obtain ⟨next, applied, later⟩ := bind_eq_ok folded
      refine ih next ?_ later
      intro name uses
      rcases cache_of_applySetting applied with same | ⟨other, set, there⟩
      · exact before name (same.symm.trans uses)
      · rw [set] at uses
        cases uses
        exact there
  exact general {} nofun configured

theorem Kept.store (kept : s.Kept known) {id : String} {desk : Desk}
    (there : Entries.get? id s.desks = some desk) : Genuine known (s.storeOf desk) := by
  have cache : (s.storeOf desk).cache.policy ≠ .pinned ∧
      ∀ key program, (s.storeOf desk).cache.find? key = some program → Made known key program := by
    unfold storeOf
    dsimp only
    cases found : desk.cache.bind (Entries.get? · s.caches) with
    | none => exact ⟨nofun, nofun⟩
    | some cache =>
      obtain ⟨name, -, entry⟩ := Option.bind_eq_some_iff.1 found
      exact kept.caches name cache entry
  exact ⟨kept.memos id desk there, cache.2, cache.1⟩

theorem Alike.keep (alike : s.Alike t) {id : String} {desk desk' : Desk} {store store' : Store}
    (engine : desk.engine = desk'.engine) (calls : store.calls = store'.calls)
    (used : ∀ name, desk.cache = some name → Entries.has name s.caches = true)
    (used' : desk'.cache = none) : (s.keep id desk store).Alike (t.keep id desk' store') := by
  refine ⟨alike.lambdas, alike.shelves, alike.loaders, calls, ?_, ?_⟩
  · intro name
    unfold Session.keep
    dsimp only
    rw [used', ← alike.caches name]
    cases uses : desk.cache with
    | none => rfl
    | some own =>
      have there := used own uses
      dsimp only
      unfold Entries.has at there ⊢
      rw [Entries.get?_put]
      split
      · rename_i same
        rw [same, there]
        rfl
      · rfl
  · intro other
    unfold Session.keep
    dsimp only
    rw [Entries.get?_put, Entries.get?_put]
    split
    · exact congrArg some engine
    · exact alike.engines other

theorem Kept.keep (kept : s.Kept known) {id : String} {desk : Desk} {store : Store}
    (genuine : Genuine known store)
    (used : ∀ name, desk.cache = some name → Entries.has name s.caches = true) :
    (s.keep id desk store).Kept known := by
  have still : ∀ name, Entries.has name s.caches = true →
      Entries.has name (s.keep id desk store).caches = true := by
    intro name there
    unfold Session.keep
    dsimp only
    cases desk.cache with
    | none => exact there
    | some own =>
      unfold Entries.has at there ⊢
      dsimp only
      rw [Entries.get?_put]
      split
      · rfl
      · exact there
  constructor
  · intro other found there
    unfold Session.keep at there
    dsimp only at there
    rw [Entries.get?_put] at there
    split at there
    · cases there
      exact genuine.memo
    · exact kept.memos other found there
  · intro name cache there
    unfold Session.keep at there
    dsimp only at there
    cases uses : desk.cache with
    | none =>
      rw [uses] at there
      exact kept.caches name cache there
    | some own =>
      rw [uses] at there
      dsimp only at there
      rw [Entries.get?_put] at there
      split at there
      · cases there
        exact ⟨genuine.policy, genuine.cache⟩
      · exact kept.caches name cache there
  · intro other found there name uses
    unfold Session.keep at there
    dsimp only at there
    rw [Entries.get?_put] at there
    split at there
    · cases there
      exact still name (used name uses)
    · exact still name (kept.used other found there name uses)

theorem ask_of_yields {id : String} {desk : Desk} (there : Entries.get? id s.desks = some desk)
    {request : Request} {reply : Answer} {engine : Engine} {calls : List Call}
    (yields : Yields known s.calls (answer ⟨desk.engine, s.shelves, s.lambdas⟩ request) (reply, engine)
      calls)
    (genuine : Genuine known (s.storeOf desk)) :
    ∃ store, s.ask id request = .ok (reply, s.keep id { desk with engine } store) ∧
      store.calls = calls ∧ Genuine known store := by
  have left := yields (s.storeOf desk) genuine rfl
  unfold ask
  rw [there]
  dsimp only
  generalize (answer ⟨desk.engine, s.shelves, s.lambdas⟩ request).run (s.storeOf desk) = ran at left ⊢
  obtain ⟨⟨given, changed⟩, store⟩ := ran
  obtain ⟨result, calls, genuine⟩ := left
  cases result
  exact ⟨store, rfl, calls, genuine⟩

theorem matches_ask (alike : s.Alike t) (kept : s.Kept known) {id : String} {request : Request}
    (shown : ∀ source, request ≠ .describe source)
    (readable : ∀ desk, Entries.get? id s.desks = some desk →
      ∀ text ∈ request.reads ⟨desk.engine, s.shelves, s.lambdas⟩ s.calls,
        Render.Readable ⟨⟨desk.engine, s.shelves, s.lambdas⟩, known, .late⟩ text) :
    Matches known (s.ask id request) (t.forget.ask id request) := by
  have engines := alike.forget.engines id
  cases there : Entries.get? id s.desks with
  | none =>
    rw [there] at engines
    have there' : Entries.get? id t.forget.desks = none := Option.map_eq_none_iff.1 engines.symm
    unfold ask
    rw [there, there']
    exact .error _
  | some desk =>
    rw [there] at engines
    obtain ⟨desk', there', engine⟩ := Option.map_eq_some_iff.1 engines.symm
    dsimp only at engine
    obtain ⟨memo, cache⟩ : desk'.memo = [] ∧ desk'.cache = none := by
      rw [get?_forget] at there'
      obtain ⟨old, -, rfl⟩ := Option.map_eq_some_iff.1 there'
      exact ⟨rfl, rfl⟩
    have store : t.forget.storeOf desk' = { calls := t.forget.calls } := by
      unfold storeOf
      rw [memo, cache]
      rfl
    have used := kept.used id desk there
    obtain ⟨reply, calls, yields⟩ := exists_answer shown (readable desk there)
    have yields' := yields
    rw [← engine, alike.forget.shelves, alike.forget.lambdas, alike.forget.calls] at yields'
    obtain ⟨left, asked, after, genuine⟩ := ask_of_yields there yields (kept.store there)
    obtain ⟨left', asked', after', -⟩ := ask_of_yields there' yields' (by rw [store]; exact .fresh _)
    rw [asked, asked']
    have same : request.engine desk.engine = request.engine desk'.engine :=
      congrArg (Request.engine · request) engine.symm
    exact .ok _ _ _ (alike.forget.keep same (after.trans after'.symm) used cache)
      (kept.keep genuine used)

theorem matches_build (alike : s.Alike t) (kept : s.Kept known) (id : String)
    (settings : List Setting) : Matches known (s.build id settings) (t.forget.build id settings) := by
  unfold Session.build
  rw [← alike.forget.configure]
  apply Matches.bind
  intro builder configured
  cases builder.build with
  | error e => exact .ok _ _ _ alike.forget kept
  | ok engine =>
    refine .ok _ _ _ ⟨alike.lambdas, alike.shelves, alike.loaders, alike.calls, alike.caches, ?_⟩
      ⟨?_, kept.caches, ?_⟩
    · intro other
      dsimp only
      rw [Entries.get?_put, Entries.get?_put]
      split
      · rfl
      · exact alike.forget.engines other
    · intro other desk there
      dsimp only at there
      rw [Entries.get?_put] at there
      split at there
      · cases there
        rintro _ _ ⟨⟩
      · exact kept.memos other desk there
    · intro other desk there name uses
      dsimp only at there
      rw [Entries.get?_put] at there
      split at there
      · cases there
        exact has_of_configure configured uses
      · exact kept.used other desk there name uses

theorem matches_setTemplate (alike : s.Alike t) (kept : s.Kept known) (loader name source : String) :
    Matches known (s.setTemplate loader name source) (t.forget.setTemplate loader name source) := by
  unfold setTemplate
  rw [← alike.forget.loader, ← alike.forget.shelves]
  apply Matches.bind
  intro found _
  cases found with
  | shelf shelf =>
    exact .ok _ _ _ ⟨alike.lambdas, rfl, alike.loaders, alike.calls, alike.caches,
      alike.forget.engines⟩ ⟨kept.memos, kept.caches, kept.used⟩
  | verbatim | fixed templates | cascade loaders => exact .error _

theorem Alike.hasTemplate (alike : s.Alike t) (loader name : String) :
    s.hasTemplate loader name = t.hasTemplate loader name := by
  unfold Session.hasTemplate
  rw [alike.loader, alike.shelves]

theorem matches_step (alike : s.Alike t) (kept : s.Kept known) {step : Step}
    (shown : step.inspects = false)
    (readable : ∀ id request, step = .ask id request → ∀ desk, Entries.get? id s.desks = some desk →
      ∀ text ∈ request.reads ⟨desk.engine, s.shelves, s.lambdas⟩ s.calls,
        Render.Readable ⟨⟨desk.engine, s.shelves, s.lambdas⟩, known, .late⟩ text) :
    Matches known (s.step step) (t.forget.step step) := by
  cases step with
  | build id settings => exact matches_build alike kept id settings
  | setTemplate loader name source => exact matches_setTemplate alike kept loader name source
  | hasTemplate loader name =>
    unfold Session.step
    dsimp only
    rw [← alike.forget.hasTemplate]
    apply Matches.bind
    intro reply _
    exact .ok _ _ _ alike.forget kept
  | load loader name =>
    unfold Session.step
    dsimp only
    rw [← alike.forget.loader, ← alike.forget.shelves]
    apply Matches.bind
    intro found _
    exact .ok _ _ _ alike.forget kept
  | report cache => cases shown
  | ask id request =>
    have undescribed : ∀ source, request ≠ .describe source := by
      rintro source rfl
      cases shown
    exact matches_ask alike kept undescribed (readable id request rfl)

/-- Engines are configured with names of character sets. -/
def Named (s : Session) : Prop :=
  ∀ id desk, Entries.get? id s.desks = some desk → isCharset desk.engine.charset = true

theorem charset_engine (e : Engine) (request : Request) : (request.engine e).charset = e.charset := by
  cases request <;> rfl

theorem Named.put (named : s.Named) {id : String} {after : Session} {engine : Engine}
    {cache : Option String} {memo : List (Key × Program)} (valid : isCharset engine.charset = true)
    (desks : after.desks = Entries.put id ⟨engine, cache, memo⟩ s.desks) : after.Named := by
  intro other found there
  rw [desks, Entries.get?_put] at there
  split at there
  · cases there
    exact valid
  · exact named other found there

theorem Named.keep (named : s.Named) {id : String} {desk : Desk} {store : Store}
    (valid : isCharset desk.engine.charset = true) : (s.keep id desk store).Named :=
  named.put valid rfl

theorem Named.step (named : s.Named) {step : Step} {reply : Answer} {after : Session}
    (stepped : s.step step = .ok (reply, after)) : after.Named := by
  cases step with
  | build id settings =>
    obtain ⟨builder, -, built⟩ := bind_eq_ok stepped
    cases engine : builder.build with
    | error e =>
      rw [engine] at built
      cases built
      exact named
    | ok e =>
      rw [engine] at built
      cases built
      exact named.put ((Builder.builds_of_build engine).isCharset) rfl
  | setTemplate loader name source =>
    obtain ⟨found, -, later⟩ := bind_eq_ok stepped
    cases found <;> cases later
    exact named
  | hasTemplate loader name | load loader name =>
    obtain ⟨reply, -, later⟩ := bind_eq_ok stepped
    cases later
    exact named
  | report cache =>
    unfold Session.step Session.report at stepped
    dsimp only at stepped
    cases found : Entries.get? cache s.caches with
    | none =>
      rw [found] at stepped
      cases stepped
    | some entry =>
      rw [found] at stepped
      cases stepped
      exact named
  | ask id request =>
    cases there : Entries.get? id s.desks with
    | none =>
      rw [Session.step, ask, there] at stepped
      cases stepped
    | some desk =>
      have engine := engine_of_answer ⟨desk.engine, s.shelves, s.lambdas⟩ request (s.storeOf desk)
      unfold Session.step ask at stepped
      dsimp only at stepped
      rw [there] at stepped
      dsimp only at stepped
      generalize (answer ⟨desk.engine, s.shelves, s.lambdas⟩ request).run (s.storeOf desk) = ran
        at engine stepped
      cases stepped
      refine named.keep ?_
      dsimp only at engine ⊢
      rw [engine, charset_engine]
      exact named id desk there

theorem isCharset_of_mem_reads {steps : List Step} (named : s.Named) {e : Engine} {source : String}
    (member : (e, source) ∈ s.reads steps) : isCharset e.charset = true := by
  induction steps generalizing s with
  | nil => cases member
  | cons first rest ih =>
    unfold reads at member
    rcases List.mem_append.1 member with here | later
    · cases first with
      | ask id request =>
        unfold stepReads at here
        dsimp only at here
        cases there : Entries.get? id s.desks with
        | none =>
          rw [there] at here
          cases here
        | some desk =>
          rw [there] at here
          obtain ⟨text, -, same⟩ := List.mem_map.1 here
          cases same
          exact named id desk there
      | _ => cases here
    · cases stepped : s.step first with
      | error refusal =>
        rw [stepped] at later
        cases later
      | ok result =>
        obtain ⟨reply, after⟩ := result
        rw [stepped] at later
        exact ih (named.step stepped) later

theorem run_of_alike (distinct : Hash.Distinct (Hashed known))
    (valid : ∀ e source, known e source → isCharset e.charset = true) {steps : List Step}
    (shown : ∀ step ∈ steps, step.inspects = false) (alike : s.Alike t) (kept : s.Kept known)
    (among : ∀ pair ∈ s.reads steps, known pair.1 pair.2) : s.run steps = t.runForgetting steps := by
  induction steps generalizing s t with
  | nil => rfl
  | cons first rest ih =>
    have readable : ∀ id request, first = .ask id request → ∀ desk,
        Entries.get? id s.desks = some desk →
        ∀ text ∈ request.reads ⟨desk.engine, s.shelves, s.lambdas⟩ s.calls,
          Render.Readable ⟨⟨desk.engine, s.shelves, s.lambdas⟩, known, .late⟩ text := by
      rintro id request rfl desk there text member
      have listed : (desk.engine, text) ∈ s.reads (.ask id request :: rest) := by
        unfold reads stepReads
        dsimp only
        rw [there]
        exact List.mem_append_left _ (List.mem_map_of_mem member)
      have isKnown : known desk.engine text := among _ listed
      exact ⟨isKnown, apart_of_distinct distinct valid isKnown,
        fun tree parsed => distinct_of_known distinct isKnown parsed, .inl rfl⟩
    have stepped := matches_step alike kept (shown first List.mem_cons_self) readable
    unfold run runForgetting
    unfold reads at among
    generalize s.step first = here at stepped among ⊢
    generalize t.forget.step first = there at stepped ⊢
    cases stepped with
    | error refusal => rfl
    | ok reply s t alike kept =>
      have later := ih (fun step member => shown step (List.mem_cons_of_mem first member)) alike kept
        fun pair member => among pair (List.mem_append_right _ member)
      dsimp only [bind, Except.bind]
      rw [later]

/-- Whatever engines have in memory, they answer each step as new engines would that have no cache,
with the helpers, templates and earlier calls that there are by then. -/
theorem run_eq_runForgetting {steps : List Step} (shown : ∀ step ∈ steps, step.inspects = false)
    (engines : s.desks = [])
    (caches : ∀ name cache, Entries.get? name s.caches = some cache →
      cache.programs = [] ∧ cache.policy ≠ .pinned)
    (distinct : Hash.Distinct (Hashed fun e source => (e, source) ∈ s.reads steps)) :
    s.run steps = s.runForgetting steps := by
  have empty (id : String) : Entries.get? id s.desks = none := by rw [engines]; rfl
  have named : s.Named := by
    intro id desk there
    rw [empty] at there
    cases there
  have alike : s.Alike s := ⟨rfl, rfl, rfl, rfl, fun _ => rfl, fun _ => rfl⟩
  have kept : s.Kept fun e source => (e, source) ∈ s.reads steps := by
    constructor
    · intro id desk there
      rw [empty] at there
      cases there
    · intro name cache there
      obtain ⟨programs, policy⟩ := caches name cache there
      refine ⟨policy, ?_⟩
      intro key program found
      unfold Cache.find? at found
      rw [programs] at found
      split at found <;> cases found
    · intro id desk there
      rw [empty] at there
      cases there
  exact run_of_alike distinct (fun e source => isCharset_of_mem_reads named) shown
    alike kept fun pair member => member

/-- A template that is replaced after an engine with a cache has rendered it. -/
theorem run_eq_runForgetting_replaced :
    ∃ (s : Session) (steps : List Step), s.run steps = s.runForgetting steps ∧
      ((s.run steps).map fun answers => answers.filterMap fun
        | .output text => some text
        | _ => none) = .ok ["x", "y"] := by
  let s : Session := {
    lambdas := ({} : Registry).lambdas
    shelves := [("l", [])]
    loaders := [("l", .shelf "l")]
    caches := [("m", { policy := .memory })] }
  let ask : Step := .ask "a" (.render "t" ⟨.null, false⟩)
  let steps : List Step := [.build "a" [.loader "l", .cache "m"], .setTemplate "l" "t" "x", ask,
    .setTemplate "l" "t" "y", ask]
  have shown : ∀ step ∈ steps, step.inspects = false := by decide
  have caches : ∀ name cache, Entries.get? name s.caches = some cache →
      cache.programs = [] ∧ cache.policy ≠ .pinned := by
    intro name cache there
    unfold Entries.get? at there
    split at there
    · cases there
      exact ⟨rfl, by decide⟩
    · cases there
  -- Neither template has a body, so only what their keys are digests of is hashed.
  have hashed : ∀ pair ∈ s.reads steps,
      (pair.1.identity pair.2 = ({} : Engine).identity "x" ∨
        pair.1.identity pair.2 = ({} : Engine).identity "y") ∧
      ((parse pair.1.pragmas pair.2).toOption.map fun tree =>
        (Node.bodiesOf false pair.1.pragmas tree).length) = some 0 := by
    decide +kernel
  have either (text : String) (there : Hashed (fun e source => (e, source) ∈ s.reads steps) text) :
      text = ({} : Engine).identity "x" ∨ text = ({} : Engine).identity "y" := by
    obtain ⟨e, source, member, rfl | ⟨tree, parsed, o, within, rfl⟩⟩ := there
    · exact (hashed _ member).1
    · have none := (hashed _ member).2
      rw [parsed] at none
      rw [List.length_eq_zero_iff.1 (Option.some.inj none)] at within
      cases within
  have distinct : Hash.Distinct (Hashed fun e source => (e, source) ∈ s.reads steps) := by
    have digests : Hash.sha256 (({} : Engine).identity "x") ≠ Hash.sha256 (({} : Engine).identity "y") := by
      decide +kernel
    intro a b here there same
    rcases either a here with rfl | rfl <;> rcases either b there with rfl | rfl
    · rfl
    · exact absurd same digests
    · exact absurd same.symm digests
    · rfl
  have outputs : ((s.run steps).map fun answers => answers.filterMap fun
      | .output text => some text
      | _ => none) = .ok ["x", "y"] := by
    decide +kernel
  exact ⟨s, steps, run_eq_runForgetting shown rfl caches distinct, outputs⟩

end Session
end Mustache
