import Mustache.Proofs.Engine.Attended
import Mustache.Proofs.Session.Stocked

/-! How the engines of a session treat their caches, and what the caches keep of it. An engine turns
to its cache for a key until it has a program for it, and never again. -/
namespace Mustache

/-- The errands to answer a request, in order. -/
def Request.errands (env : Render.Env) (store : Store) (request : Request) : List Errand :=
  env.engine.errands (request.fetches env store) store

namespace Engine

variable {e : Engine} {store : Store} {errands : List Errand}

theorem dialect_engine (e : Engine) (request : Request) : (request.engine e).dialect = e.dialect := by
  cases request <;> rfl

theorem fails_engine {errand : Errand} (fails : errand.Fails e) (request : Request) :
    errand.Fails (request.engine e) := by
  cases fails with
  | missed origin source flaw uses failed =>
    refine .missed origin source flaw ?_ ?_
    · rw [usesCache_engine, uses]
    · rw [dialect_engine, templateKey_engine, failed]
  | apart origin source flaw uses failed =>
    refine .apart origin source flaw ?_ ?_
    · rw [usesCache_engine, uses]
    · rw [dialect_engine, templateKey_engine, failed]

theorem finds_engine {errand : Errand} (finds : errand.Finds e) (request : Request) :
    errand.Finds (request.engine e) := by
  have same := usesCache_engine e request
  cases finds with
  | hit origin source program uses => exact .hit origin source program (by rw [same, uses])
  | stored origin source program uses key own =>
    refine .stored origin source program (by rw [same, uses]) ?_ own
    rw [templateKey_engine, key]
  | apart origin source program uses => exact .apart origin source program (by rw [same, uses])

theorem Protocol.engine {key : Key} {known : Bool} (protocol : e.Protocol key known errands)
    (request : Request) : (request.engine e).Protocol key known errands := by
  have fails (errands : List Errand) (failed : ∀ errand ∈ errands, errand.Fails e) :
      ∀ errand ∈ errands, errand.Fails (request.engine e) :=
    fun errand member => fails_engine (failed errand member) request
  cases protocol with
  | lacks _ failed => exact .lacks errands (fails errands failed)
  | has before errand after failed found idle =>
    exact .has before errand after (fails before failed) (finds_engine found request) idle

theorem Attended.engine (attended : e.Attended errands store) (request : Request) :
    (request.engine e).Attended errands store := by
  constructor
  · rw [templateKey_engine]
    exact fun key => (attended.protocol key).engine request
  · rw [templateKey_engine]
    exact attended.kept

end Engine

namespace Session

/-- The errands of each engine since it was built, after one more step. -/
def attending (s : Session) (seen : String → List Errand) : Step → Answer → String → List Errand
  | .build id _, .built => fun other => if other = id then [] else seen other
  | .ask id request, _ => fun other =>
    if other = id then
      seen other ++ match Entries.get? id s.desks with
        | some desk => request.errands ⟨desk.engine, s.shelves, s.lambdas⟩ (s.storeOf desk)
        | none => []
    else seen other
  | _, _ => seen

/-- A session that others steps have led to, with the errands of each engine. -/
inductive Followed (start : Session) : (String → List Errand) → Session → Prop
  | nil : Followed start (fun _ => []) start
  | step (seen : String → List Errand) (s : Session) (step : Step) (reply : Answer) (after : Session)
      (before : Followed start seen s) (stepped : s.step step = .ok (reply, after)) :
      Followed start (s.attending seen step reply) after

variable {s after : Session} {seen : String → List Errand}

theorem grown_keep (id : String) {desk : Desk} (request : Request) {made : List Fetch} {store : Store}
    (fetches : desk.engine.Fetches (s.storeOf desk) made store) (other : Desk) :
    (s.storeOf other).cache.Grown
      ((s.keep id { desk with engine := request.engine desk.engine } store).storeOf other).cache := by
  rw [cache_storeOf_keep]
  split
  · rename_i shared
    rw [s.cache_storeOf_eq shared.1]
    exact fetches.cache_grown
  · exact .refl _

theorem grown_report {name : String} {reply : Answer} (reported : s.report name = .ok (reply, after))
    (desk : Desk) : (s.storeOf desk).cache.Grown (after.storeOf desk).cache := by
  unfold report at reported
  cases found : Entries.get? name s.caches with
  | none =>
    rw [found] at reported
    cases reported
  | some cache =>
    rw [found] at reported
    cases reported
    unfold storeOf
    dsimp only
    cases desk.cache with
    | none => exact .refl _
    | some own =>
      simp only [Option.bind_some, Entries.get?_put]
      split
      · rename_i same
        rw [same, found]
        exact ⟨rfl, fun _ _ _ there => there⟩
      · exact .refl _

/-- Whatever step is taken, a cache that keeps programs keeps each as it is. -/
theorem grown_step {step : Step} {reply : Answer} (stepped : s.step step = .ok (reply, after))
    (desk : Desk) : (s.storeOf desk).cache.Grown (after.storeOf desk).cache := by
  cases step with
  | build id settings =>
    obtain ⟨builder, -, built⟩ := bind_eq_ok stepped
    cases engine : builder.build <;> rw [engine] at built <;> cases built <;> exact .refl _
  | setTemplate loader name source =>
    obtain ⟨found, -, later⟩ := bind_eq_ok stepped
    cases found <;> cases later
    exact .refl _
  | hasTemplate loader name | load loader name =>
    obtain ⟨reply, -, later⟩ := bind_eq_ok stepped
    cases later
    exact .refl _
  | report name => exact grown_report stepped desk
  | ask id request =>
    obtain ⟨own, -, -, rfl⟩ := exists_desk_of_ask stepped
    exact grown_keep id request (fetches_answer ⟨own.engine, s.shelves, s.lambdas⟩ request _) desk

theorem Followed.grown {start : Session} (followed : start.Followed seen s) (desk : Desk) :
    (start.storeOf desk).cache.Grown (s.storeOf desk).cache := by
  induction followed with
  | nil => exact .refl _
  | step seen s step reply after before stepped ih => exact ih.trans (grown_step stepped desk)

/-- A cache that keeps programs is there for as long as the session lasts. -/
theorem Followed.exists_cache {start : Session} (followed : start.Followed seen s) {name : String}
    {cache : Cache} (configured : Entries.get? name start.caches = some cache)
    (memory : cache.policy = .memory) :
    ∃ later, Entries.get? name s.caches = some later ∧ cache.Grown later := by
  have grown := followed.grown { engine := {}, cache := some name }
  rw [start.cache_storeOf rfl configured] at grown
  cases found : Entries.get? name s.caches with
  | some later =>
    rw [s.cache_storeOf rfl found] at grown
    exact ⟨later, rfl, grown⟩
  | none =>
    have policy := grown.policy
    unfold storeOf at policy
    dsimp only at policy
    rw [Option.bind_some, found, memory] at policy
    cases policy

/-- What the engines have, and their caches, is accounted for by their errands. -/
def Attends (seen : String → List Errand) (s : Session) : Prop :=
  ∀ id desk, Entries.get? id s.desks = some desk → desk.engine.Attended (seen id) (s.storeOf desk)

theorem Attends.keep (attends : s.Attends seen) {id : String} {desk : Desk}
    (there : Entries.get? id s.desks = some desk) (request : Request) {made : List Fetch} {store : Store}
    (fetches : desk.engine.Fetches (s.storeOf desk) made store) :
    (s.keep id { desk with engine := request.engine desk.engine } store).Attends fun other =>
      if other = id then seen other ++ desk.engine.errands made (s.storeOf desk) else seen other := by
  intro other found there'
  dsimp only
  have grown := grown_keep id request fetches found
  have cache := s.cache_storeOf_keep id { desk with engine := request.engine desk.engine } found store
  unfold Session.keep at there'
  dsimp only at there' cache
  rw [Entries.get?_put] at there'
  split at there'
  · rename_i same
    subst same
    cases there'
    rw [if_pos rfl]
    refine ((attends other desk there).after fetches).engine request |>.of_cache rfl ?_
    rw [cache]
    split
    · exact .refl _
    · rename_i unused
      have none : desk.cache = none := by simpa using unused
      have policy := fetches.policy
      unfold storeOf at policy ⊢
      dsimp only at policy ⊢
      rw [none] at policy ⊢
      refine ⟨policy.symm, fun memory => ?_⟩
      rw [policy] at memory
      cases memory
  · rename_i different
    rw [if_neg different]
    exact (attends other found there').of_cache rfl grown

theorem Attends.step (attends : s.Attends seen) {step : Step} {reply : Answer}
    (stepped : s.step step = .ok (reply, after)) : after.Attends (s.attending seen step reply) := by
  have grown := grown_step stepped
  cases step with
  | build id settings =>
    obtain ⟨builder, -, built⟩ := bind_eq_ok stepped
    cases engine : builder.build with
    | error e =>
      rw [engine] at built
      cases built
      exact attends
    | ok e =>
      rw [engine] at built
      cases built
      intro other desk there
      dsimp only at there
      unfold attending
      dsimp only
      rw [Entries.get?_put] at there
      split at there
      · rename_i same
        cases there
        rw [if_pos same]
        exact .new e rfl
      · rename_i different
        rw [if_neg different]
        exact (attends other desk there).of_cache rfl (grown desk)
  | setTemplate loader name source =>
    obtain ⟨found, -, later⟩ := bind_eq_ok stepped
    cases found <;> cases later
    exact fun other desk there => (attends other desk there).of_cache rfl (grown desk)
  | hasTemplate loader name | load loader name =>
    obtain ⟨reply, -, later⟩ := bind_eq_ok stepped
    cases later
    exact attends
  | report name =>
    have desks : after.desks = s.desks := by
      unfold Session.step Session.report at stepped
      dsimp only at stepped
      cases found : Entries.get? name s.caches with
      | none =>
        rw [found] at stepped
        cases stepped
      | some cache =>
        rw [found] at stepped
        cases stepped
        rfl
    intro other desk there
    rw [desks] at there
    exact (attends other desk there).of_cache rfl (grown desk)
  | ask id request =>
    obtain ⟨desk, there, -, rfl⟩ := exists_desk_of_ask stepped
    unfold attending
    dsimp only
    rw [there]
    exact attends.keep there request (fetches_answer ⟨desk.engine, s.shelves, s.lambdas⟩ request _)

theorem Followed.attends {start : Session} (new : start.desks = []) (followed : start.Followed seen s) :
    s.Attends seen := by
  induction followed with
  | nil =>
    intro id desk there
    rw [new] at there
    cases there
  | step seen s step reply after before stepped ih => exact ih.step stepped

/-- A session and the errands of its engines, after one more step. -/
def follow (followed : (String → List Errand) × Session) (step : Step) :
    Except Refusal ((String → List Errand) × Session) := do
  let ended ← followed.2.step step
  return (followed.2.attending followed.1 step ended.1, ended.2)

theorem Followed.run {start : Session} (followed : start.Followed seen s) {steps : List Step}
    {ended : (String → List Errand) × Session} (ran : steps.foldlM follow (seen, s) = .ok ended) :
    start.Followed ended.1 ended.2 := by
  induction steps generalizing seen s with
  | nil =>
    cases ran
    exact followed
  | cons first rest ih =>
    rw [List.foldlM_cons] at ran
    obtain ⟨middle, once, ran⟩ := bind_eq_ok ran
    obtain ⟨⟨reply, after⟩, stepped, once⟩ := bind_eq_ok once
    cases once
    exact ih (followed.step seen s first reply after stepped) ran

/-- The log of a cache tells the errands of an engine that has used it. -/
theorem log_of_ask {id : String} {request : Request} {reply : Answer}
    (asked : s.ask id request = .ok (reply, after)) {desk : Desk}
    (there : Entries.get? id s.desks = some desk) {name : String} {cache : Cache}
    (uses : desk.cache = some name) (configured : Entries.get? name s.caches = some cache) :
    ∃ later, Entries.get? name after.caches = some later ∧
      later.log = ((request.errands ⟨desk.engine, s.shelves, s.lambdas⟩ (s.storeOf desk)).flatMap
        desk.engine.calls).reverse ++ cache.log := by
  obtain ⟨own, there', -, rfl⟩ := exists_desk_of_ask asked
  obtain rfl : own = desk := Option.some.inj (there'.symm.trans there)
  have told := (fetches_answer ⟨own.engine, s.shelves, s.lambdas⟩ request (s.storeOf own)).log
  rw [s.cache_storeOf uses configured] at told
  refine ⟨_, ?_, told⟩
  unfold Session.keep
  dsimp only
  rw [uses]
  exact (Entries.get?_put ..).trans (if_pos rfl)

/-- How each engine has treated its cache since it was built, for each key: it was told that there is
no program, and then the source did not compile, any number of times; then at most once it was given
a program or, when there was none, gave the one that it compiled; and it made no more calls. The log
of the cache tells these calls. A source that does not compile leaves nothing behind. The text of a
lambda leads to no call if it is not to be cached and the engine has not met it otherwise. A cache
that keeps programs has for all its engines, and for all time, the one that it was given first. -/
theorem cache_protocol {start s : Session} {seen : String → List Errand} (new : start.desks = [])
    (followed : start.Followed seen s) :
    (∀ id desk, Entries.get? id s.desks = some desk →
      (∀ key, desk.engine.Protocol key (Entries.has key desk.memo)
        ((seen id).filter fun errand => desk.engine.templateKey errand.source = key)) ∧
      (∀ request reply after name cache, s.step (.ask id request) = .ok (reply, after) →
        desk.cache = some name → Entries.get? name s.caches = some cache →
        ∃ later, Entries.get? name after.caches = some later ∧
          later.log = ((request.errands ⟨desk.engine, s.shelves, s.lambdas⟩ (s.storeOf desk)).flatMap
            desk.engine.calls).reverse ++ cache.log) ∧
      (∀ origin source store flaw, ((desk.engine.fetch origin source).run store).1 = .error flaw →
        ((desk.engine.fetch origin source).run store).2.memo = store.memo ∧
          ((desk.engine.fetch origin source).run store).2.cache.programs = store.cache.programs) ∧
      (desk.engine.cacheLambdaTemplates = false → ∀ source,
        (∀ errand ∈ seen id, errand.source = source → errand.origin = .lambda) →
        ∀ errand ∈ seen id, errand.source = source → desk.engine.calls errand = [])) ∧
    ∀ name cache, Entries.get? name s.caches = some cache → cache.policy = .memory →
      (∀ id desk, Entries.get? id s.desks = some desk → desk.cache = some name →
        (∀ errand ∈ seen id, ∀ program,
          .hit program ∈ errand.events ∨ .stored program ∈ errand.events →
          Entries.get? (desk.engine.templateKey errand.source) cache.programs = some program) ∧
        ∀ origin source program, desk.engine.usesCache origin = true →
          Entries.has (desk.engine.templateKey source) desk.memo = false →
          Entries.get? (desk.engine.templateKey source) cache.programs = some program →
          ((desk.engine.fetch origin source).run (s.storeOf desk)).1 = .ok program) ∧
      ∀ made after, s.Followed made after → ∃ later, Entries.get? name after.caches = some later ∧
        later.policy = .memory ∧ ∀ key program, Entries.get? key cache.programs = some program →
          Entries.get? key later.programs = some program := by
  have attends := followed.attends new
  constructor
  · intro id desk there
    have attended := attends id desk there
    refine ⟨attended.protocol, ?_, fun _ _ _ _ => Engine.fetch_error, ?_⟩
    · intro request reply after name cache asked uses configured
      exact log_of_ask asked there uses configured
    · intro uncached source met errand member same
      have protocol := attended.protocol (desk.engine.templateKey errand.source)
      rcases protocol.uses (List.mem_filter.2 ⟨member, by simp⟩) with uses | silent
      · rw [met errand member same] at uses
        exact absurd (uncached.symm.trans uses) Bool.false_ne_true
      · exact silent
  · intro name cache configured memory
    constructor
    · intro id desk there uses
      have own := s.cache_storeOf uses configured
      constructor
      · have kept := (attends id desk there).kept
        rw [own] at kept
        exact kept memory
      · intro origin source program allowed lacks held
        rw [← own] at memory held
        exact Engine.fetch_of_cached memory lacks allowed held
    · intro made after later
      obtain ⟨cache', held, grown⟩ := later.exists_cache configured memory
      exact ⟨cache', held, grown.policy.trans memory, grown.programs memory⟩

/-- Of two engines that share a cache the one compiles a text and the other is given its program. -/
theorem cache_protocol_of_shared :
    ∃ (start s : Session) (seen : String → List Errand) (first second : Desk) (cache : Cache)
      (program : Program),
      start.desks = [] ∧ start.Followed seen s ∧
      Entries.get? "e" s.desks = some first ∧ first.cache = some "c" ∧
      Entries.get? "f" s.desks = some second ∧ second.cache = some "c" ∧
      Entries.get? "c" s.caches = some cache ∧ cache.policy = .memory ∧
      (∃ errand ∈ seen "e", errand.source = "x" ∧ .stored program ∈ errand.events) ∧
      ∃ errand ∈ seen "f", errand.source = "x" ∧ .hit program ∈ errand.events := by
  let start : Session :=
    { lambdas := ({} : Registry).lambdas, caches := [("c", { policy := .memory })] }
  let steps : List Step := [.build "e" [.cache "c"], .build "f" [.cache "c"],
    .ask "e" (.compile "x"), .ask "f" (.compile "x")]
  let shared (ended : (String → List Errand) × Session) : Bool :=
    (Entries.get? "e" ended.2.desks).any fun first =>
    (Entries.get? "f" ended.2.desks).any fun second =>
    (Entries.get? "c" ended.2.caches).any fun cache =>
      first.cache = some "c" && second.cache = some "c" && cache.policy = .memory &&
        first.engine.identity "x" = second.engine.identity "x" &&
        (ended.1 "e").any (fun errand => errand.source = "x" && errand.events.any (· matches .stored _)) &&
        (ended.1 "f").any (fun errand => errand.source = "x" && errand.events.any (· matches .hit _))
  have ran : (return shared (← steps.foldlM follow ((fun _ => []), start))) =
      Except.ok (ε := Refusal) true := by
    decide +kernel
  obtain ⟨⟨seen, s⟩, ran, told⟩ := bind_eq_ok ran
  have followed : start.Followed seen s := Followed.nil.run ran
  have told : shared (seen, s) = true := Except.ok.inj told
  obtain ⟨first, there, told⟩ := (Option.any_eq_true _ _).1 told
  obtain ⟨second, there', told⟩ := (Option.any_eq_true _ _).1 told
  obtain ⟨cache, configured, told⟩ := (Option.any_eq_true _ _).1 told
  simp only [Bool.and_eq_true, decide_eq_true_eq, List.any_eq_true] at told
  obtain ⟨⟨⟨⟨⟨uses, uses'⟩, memory⟩, alike⟩, made, member, own, stored, passed, isStored⟩,
    given, member', own', hit, passed', isHit⟩ := told
  have kept := ((cache_protocol rfl followed).2 "c" cache configured memory).1
  cases stored with
  | stored program =>
    cases hit with
    | hit program' =>
      have held := (kept "e" first there uses).1 made member program (.inr passed)
      have held' := (kept "f" second there' uses').1 given member' program' (.inl passed')
      have key : first.engine.templateKey "x" = second.engine.templateKey "x" :=
        congrArg Hash.sha256 alike
      rw [own, key] at held
      rw [own'] at held'
      obtain rfl : program = program' := Option.some.inj (held.symm.trans held')
      exact ⟨start, s, seen, first, second, cache, program, rfl, followed, there, uses, there', uses',
        configured, memory, ⟨made, member, own, passed⟩, given, member', own', passed'⟩
    | _ => cases isHit
  | _ => cases isStored

end Session
end Mustache
