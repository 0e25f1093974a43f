import Mustache.Proofs.Engine.Errands

/-! Errands one after the other: what they have left in the store, and what they say of the cache. -/
namespace Mustache

/-- What becomes of a cache: if it keeps programs, each stays as it is. -/
structure Cache.Grown (before after : Cache) : Prop where
  policy : after.policy = before.policy
  programs : before.policy = .memory → ∀ key program,
    Entries.get? key before.programs = some program → Entries.get? key after.programs = some program

namespace Cache.Grown

theorem refl (cache : Cache) : Grown cache cache := ⟨rfl, fun _ _ _ there => there⟩

theorem trans {first second third : Cache} (before : Grown first second) (after : Grown second third) :
    Grown first third := by
  refine ⟨after.policy.trans before.policy, fun memory key program there => ?_⟩
  exact after.programs (before.policy.trans memory) key program (before.programs memory key program there)

theorem load (cache : Cache) (key : Key) : Grown cache (cache.load key).2 := by
  refine ⟨Cache.policy_load cache key, fun _ other program there => ?_⟩
  rw [Cache.programs_load]
  exact there

theorem store (cache : Cache) (key : Key) (program : Program) : Grown cache (cache.store key program) := by
  refine ⟨rfl, fun memory other held there => ?_⟩
  unfold Cache.store kept
  rw [memory]
  dsimp only
  split
  · exact there
  · rename_i absent
    rw [Entries.get?_put, if_neg]
    · exact there
    · rintro rfl
      rw [Entries.has, there] at absent
      exact absent rfl

end Cache.Grown

theorem Cache.get?_store {cache : Cache} {key : Key} (memory : cache.policy = .memory)
    (absent : Entries.get? key cache.programs = none) (program : Program) :
    Entries.get? key (cache.store key program).programs = some program := by
  unfold store kept
  rw [memory, Entries.has, absent]
  dsimp only
  rw [Option.isSome_none, if_neg Bool.false_ne_true, Entries.get?_put, if_pos rfl]

/-- What an event leaves of a store does not depend on the calls of lambdas. -/
theorem Errand.Event.apply_calls (key : Key) (store : Store) (calls : List Call) (event : Event) :
    event.apply key { store with calls } = { event.apply key store with calls } := by
  cases event with
  | compiled result => cases result <;> rfl
  | _ => rfl

namespace Engine

variable {e : Engine} {store store' : Store}

theorem fetch_calls (e : Engine) (origin : Origin) (source : String) (store : Store) (calls : List Call) :
    ((e.fetch origin source).run { store with calls }).2 =
      { ((e.fetch origin source).run store).2 with calls } := by
  rw [fetch_store, fetch_store]
  have same : e.errand origin source { store with calls } = e.errand origin source store := rfl
  rw [same]
  clear same
  generalize (e.errand origin source store).events = events
  induction events generalizing store with
  | nil => rfl
  | cons event rest ih =>
    rw [List.foldl_cons, Errand.Event.apply_calls]
    exact ih (event.apply (e.templateKey source) store)

/-- The errands for what is fetched, and the store after them. -/
def errands (e : Engine) : List Fetch → Store → List Errand
  | [], _ => []
  | f :: rest, store =>
    e.errand f.origin f.source store :: errands e rest ((e.fetch f.origin f.source).run store).2

def fetchAll (e : Engine) (made : List Fetch) (store : Store) : Store :=
  made.foldl (fun store f => ((e.fetch f.origin f.source).run store).2) store

/-- Calls of lambdas apart, the store is the one that the fetches alone leave. -/
theorem Fetches.eq_fetchAll {made : List Fetch} (fetches : e.Fetches store made store') :
    ∃ calls, store' = { e.fetchAll made store with calls } := by
  induction fetches with
  | nil => exact ⟨store.calls, rfl⟩
  | calls made _ calls _ ih =>
    obtain ⟨_, rfl⟩ := ih
    exact ⟨calls, rfl⟩
  | fetch made _ origin source _ ih =>
    obtain ⟨calls, rfl⟩ := ih
    refine ⟨calls, ?_⟩
    rw [fetch_calls, fetchAll, fetchAll, List.foldl_append]
    rfl

/-- What each fetch preserves, with its errand, is preserved by all of them. -/
theorem Fetches.carries {P : List Errand → Store → Prop}
    (calls : ∀ errands store calls, P errands store → P errands { store with calls })
    (fetch : ∀ errands store origin source, P errands store →
      P (errands ++ [e.errand origin source store]) ((e.fetch origin source).run store).2)
    (before : List Errand) {made : List Fetch} (holds : P before store)
    (fetches : e.Fetches store made store') : P (before ++ e.errands made store) store' := by
  obtain ⟨later, rfl⟩ := fetches.eq_fetchAll
  apply calls
  clear fetches
  induction made generalizing before store with
  | nil =>
    rw [errands, List.append_nil]
    exact holds
  | cons f rest ih =>
    rw [errands, List.append_cons]
    exact ih _ (fetch before store f.origin f.source holds)

theorem Fetches.log {made : List Fetch} (fetches : e.Fetches store made store') :
    store'.cache.log = ((e.errands made store).flatMap e.calls).reverse ++ store.cache.log := by
  refine fetches.carries (P := fun errands after =>
    after.cache.log = (errands.flatMap e.calls).reverse ++ store.cache.log) ?_ ?_ [] rfl
  · exact fun _ _ _ same => same
  · intro errands after origin source same
    rw [log_fetch, same]
    simp

theorem grown_fetch (e : Engine) (origin : Origin) (source : String) (store : Store) :
    store.cache.Grown ((e.fetch origin source).run store).2.cache := by
  rw [fetch_store]
  generalize (e.errand origin source store).events = events
  induction events generalizing store with
  | nil => exact .refl store.cache
  | cons event rest ih =>
    refine Cache.Grown.trans ?_ (ih (event.apply (e.templateKey source) store))
    cases event with
    | hit | miss => exact .load store.cache _
    | compiled result => cases result <;> exact .refl store.cache
    | stored program => exact .store store.cache _ program

theorem Fetches.cache_grown {made : List Fetch} (fetches : e.Fetches store made store') :
    store.cache.Grown store'.cache := by
  induction fetches with
  | nil => exact .refl store.cache
  | calls _ _ _ _ ih => exact ih
  | fetch _ before origin source _ ih => exact ih.trans (e.grown_fetch origin source before)

/-- A cache that keeps programs has the program that an engine has had from it or given to it. -/
theorem get?_fetch {origin : Origin} {source : String} (memory : store.cache.policy = .memory)
    {program : Program} (passed : .hit program ∈ (e.errand origin source store).events ∨
      .stored program ∈ (e.errand origin source store).events) :
    Entries.get? (e.templateKey source) ((e.fetch origin source).run store).2.cache.programs =
      some program := by
  have served := e.served origin source store
  generalize (e.errand origin source store).events = events at served passed
  generalize (e.fetch origin source).run store = ended at served ⊢
  obtain ⟨result, store'⟩ := ended
  cases served with
  | hit held lacks uses found =>
    obtain rfl : program = held := by simpa using passed
    rw [Cache.find?, memory] at found
    exact (Cache.Grown.load store.cache _).programs memory _ program found
  | stored made lacks uses absent =>
    obtain rfl : program = made := by simpa using passed
    rw [Cache.find?, memory] at absent
    refine Cache.get?_store ?_ ?_ program
    · exact (Cache.policy_load store.cache _).trans memory
    · exact (congrArg _ (Cache.programs_load store.cache _)).trans absent
  | _ => simp at passed

/-- What an engine lacks it has from a cache that keeps programs. -/
theorem fetch_of_cached {origin : Origin} {source : String} (memory : store.cache.policy = .memory)
    (lacks : Entries.has (e.templateKey source) store.memo = false) (uses : e.usesCache origin = true)
    {program : Program}
    (held : Entries.get? (e.templateKey source) store.cache.programs = some program) :
    ((e.fetch origin source).run store).1 = .ok program := by
  have unknown : Entries.get? (e.templateKey source) store.memo = none := by
    simpa [Entries.has] using lacks
  rw [fetch_eq, unknown, if_pos uses, Cache.load_fst, Cache.find?, memory]
  dsimp only
  rw [held]

/-- When a source does not compile then neither the engine nor its cache has more programs. -/
theorem fetch_error {origin : Origin} {source : String} {flaw : Error}
    (failed : ((e.fetch origin source).run store).1 = .error flaw) :
    ((e.fetch origin source).run store).2.memo = store.memo ∧
      ((e.fetch origin source).run store).2.cache.programs = store.cache.programs := by
  have served := e.served origin source store
  generalize (e.errand origin source store).events = events at served
  generalize (e.fetch origin source).run store = ended at served failed ⊢
  obtain ⟨result, store'⟩ := ended
  cases served with
  | missed => exact ⟨rfl, Cache.programs_load store.cache _⟩
  | failedApart => exact ⟨rfl, rfl⟩
  | _ => cases failed

/-- What the errands tell of the programs of the engine, and of its cache if that keeps programs. -/
structure Attended (e : Engine) (errands : List Errand) (store : Store) : Prop where
  protocol : ∀ key, e.Protocol key (Entries.has key store.memo)
    (errands.filter fun errand => e.templateKey errand.source = key)
  kept : store.cache.policy = .memory → ∀ errand ∈ errands, ∀ program,
    .hit program ∈ errand.events ∨ .stored program ∈ errand.events →
      Entries.get? (e.templateKey errand.source) store.cache.programs = some program

namespace Attended

theorem new (e : Engine) {store : Store} (fresh : store.memo = []) : e.Attended [] store := by
  constructor
  · intro key
    rw [fresh]
    exact .lacks [] fun _ member => absurd member List.not_mem_nil
  · intro _ errand member
    exact absurd member List.not_mem_nil

variable {errands : List Errand}

theorem of_cache (attended : e.Attended errands store) (memo : store'.memo = store.memo)
    (grown : store.cache.Grown store'.cache) : e.Attended errands store' := by
  refine ⟨memo ▸ attended.protocol, fun memory errand member program passed => ?_⟩
  have before : store.cache.policy = .memory := grown.policy.symm.trans memory
  exact grown.programs before _ program (attended.kept before errand member program passed)

theorem fetch (attended : e.Attended errands store) (origin : Origin) (source : String) :
    e.Attended (errands ++ [e.errand origin source store]) ((e.fetch origin source).run store).2 := by
  refine ⟨fun key => (attended.protocol key).fetch origin source, ?_⟩
  have grown := e.grown_fetch origin source store
  intro memory errand member program passed
  have before : store.cache.policy = .memory := grown.policy.symm.trans memory
  rcases List.mem_append.1 member with member | member
  · exact grown.programs before _ program (attended.kept before errand member program passed)
  · obtain rfl := List.mem_singleton.1 member
    exact get?_fetch before passed

theorem after (attended : e.Attended errands store) {made : List Fetch}
    (fetches : e.Fetches store made store') : e.Attended (errands ++ e.errands made store) store' := by
  refine fetches.carries (P := e.Attended) ?_ ?_ errands attended
  · exact fun _ _ _ attended => ⟨attended.protocol, attended.kept⟩
  · exact fun _ _ origin source attended => attended.fetch origin source

end Attended

end Engine
end Mustache
