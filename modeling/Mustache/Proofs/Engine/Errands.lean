import Mustache.Proofs.Engine.Fetched
import Mustache.Proofs.Program.Ready

/-! What an engine does to come by the programs that it fetches: the calls to its cache, and what is
compiled. For each key there are failures first, then at most one success, and no more calls. -/
namespace Mustache

inductive Errand.Event
  /-- The cache is asked, and has a program. -/
  | hit (program : Program)
  /-- The cache is asked, and has none. -/
  | miss
  | compiled (result : Except Error Program)
  /-- The cache is given a program. -/
  | stored (program : Program)

/-- A fetch, with what was done for it in order. -/
structure Errand where
  origin : Engine.Origin
  source : String
  events : List Errand.Event

namespace Errand.Event

/-- The call to the cache, if it is one. -/
def call? (key : Key) : Event → Option CacheEvent
  | hit _ => some (.hit key)
  | miss => some (.miss key)
  | stored _ => some (.store key)
  | compiled _ => none

/-- What is left in the store. -/
def apply (key : Key) (store : Store) : Event → Store
  | hit program => Engine.remember key program { store with cache := (store.cache.load key).2 }
  | miss => { store with cache := (store.cache.load key).2 }
  | compiled (.ok program) => Engine.remember key program store
  | compiled (.error _) => store
  | stored program => { store with cache := store.cache.store key program }

/-- What is done with a source that has been compiled, when the cache is in use. -/
def afterCompile : Except Error Program → List Event
  | .error flaw => [.compiled (.error flaw)]
  | .ok program => [.compiled (.ok program), .stored program]

end Errand.Event

namespace Engine

variable {e : Engine}

def errand (e : Engine) (origin : Origin) (source : String) (store : Store) : Errand where
  origin := origin
  source := source
  events :=
    let key := e.templateKey source
    if Entries.has key store.memo then []
    else if e.usesCache origin then
      match store.cache.find? key with
      | some program => [.hit program]
      | none => .miss :: Errand.Event.afterCompile (Program.compile e.dialect key source)
    else [.compiled (Program.compile e.dialect key source)]

def calls (e : Engine) (errand : Errand) : List CacheEvent :=
  errand.events.filterMap (·.call? (e.templateKey errand.source))

/-- All that can come of a fetch: its events, the result, and the store that is left. -/
inductive Served (e : Engine) (origin : Origin) (source : String) (store : Store) :
    List Errand.Event → Except Error Program → Store → Prop
  | known (program : Program) (there : Entries.get? (e.templateKey source) store.memo = some program) :
      Served e origin source store [] (.ok program) store
  | hit (program : Program) (lacks : Entries.get? (e.templateKey source) store.memo = none)
      (uses : e.usesCache origin = true)
      (found : store.cache.find? (e.templateKey source) = some program) :
      Served e origin source store [.hit program] (.ok program)
        (remember (e.templateKey source) program
          { store with cache := (store.cache.load (e.templateKey source)).2 })
  | missed (flaw : Error) (lacks : Entries.get? (e.templateKey source) store.memo = none)
      (uses : e.usesCache origin = true)
      (absent : store.cache.find? (e.templateKey source) = none)
      (failed : Program.compile e.dialect (e.templateKey source) source = .error flaw) :
      Served e origin source store [.miss, .compiled (.error flaw)] (.error flaw)
        { store with cache := (store.cache.load (e.templateKey source)).2 }
  | stored (program : Program) (lacks : Entries.get? (e.templateKey source) store.memo = none)
      (uses : e.usesCache origin = true)
      (absent : store.cache.find? (e.templateKey source) = none)
      (made : Program.compile e.dialect (e.templateKey source) source = .ok program) :
      Served e origin source store [.miss, .compiled (.ok program), .stored program] (.ok program)
        (remember (e.templateKey source) program { store with
          cache := (store.cache.load (e.templateKey source)).2.store (e.templateKey source) program })
  | failedApart (flaw : Error) (lacks : Entries.get? (e.templateKey source) store.memo = none)
      (uses : e.usesCache origin = false)
      (failed : Program.compile e.dialect (e.templateKey source) source = .error flaw) :
      Served e origin source store [.compiled (.error flaw)] (.error flaw) store
  | madeApart (program : Program) (lacks : Entries.get? (e.templateKey source) store.memo = none)
      (uses : e.usesCache origin = false)
      (made : Program.compile e.dialect (e.templateKey source) source = .ok program) :
      Served e origin source store [.compiled (.ok program)] (.ok program)
        (remember (e.templateKey source) program store)

theorem served (e : Engine) (origin : Origin) (source : String) (store : Store) :
    e.Served origin source store (e.errand origin source store).events
      ((e.fetch origin source).run store).1 ((e.fetch origin source).run store).2 := by
  rw [fetch_eq]
  unfold errand Entries.has
  dsimp only
  cases lacks : Entries.get? (e.templateKey source) store.memo with
  | some program => exact .known program lacks
  | none =>
    cases uses : e.usesCache origin with
    | false =>
      simp only [Option.isSome_none, Bool.false_eq_true, if_false]
      rw [compileNew_eq]
      cases compiled : Program.compile e.dialect (e.templateKey source) source with
      | error flaw => exact .failedApart flaw lacks uses compiled
      | ok program => exact .madeApart program lacks uses compiled
    | true =>
      simp only [Option.isSome_none, Bool.false_eq_true, if_false, if_true, Cache.load_fst]
      cases found : store.cache.find? (e.templateKey source) with
      | some program => exact .hit program lacks uses found
      | none =>
        dsimp only
        rw [compileNew_eq]
        cases compiled : Program.compile e.dialect (e.templateKey source) source with
        | error flaw => exact .missed flaw lacks uses found compiled
        | ok program => exact .stored program lacks uses found compiled

/-- The events of a fetch are all that becomes of the store. -/
theorem fetch_store (e : Engine) (origin : Origin) (source : String) (store : Store) :
    ((e.fetch origin source).run store).2 =
      (e.errand origin source store).events.foldl (Errand.Event.apply (e.templateKey source)) store := by
  have served := e.served origin source store
  generalize (e.errand origin source store).events = events at served ⊢
  generalize (e.fetch origin source).run store = ended at served ⊢
  obtain ⟨result, store'⟩ := ended
  cases served <;> rfl

/-- The log of the cache tells the calls of a fetch. -/
theorem log_fetch (e : Engine) (origin : Origin) (source : String) (store : Store) :
    ((e.fetch origin source).run store).2.cache.log =
      (e.calls (e.errand origin source store)).reverse ++ store.cache.log := by
  have served := e.served origin source store
  have asked : (e.errand origin source store).source = source := rfl
  unfold calls
  rw [asked]
  generalize (e.errand origin source store).events = events at served ⊢
  generalize (e.fetch origin source).run store = ended at served ⊢
  obtain ⟨result, store'⟩ := ended
  cases served with
  | known | failedApart | madeApart => rfl
  | hit program lacks uses found => simp [Errand.Event.call?, Cache.load, found]
  | missed flaw lacks uses absent => simp [Errand.Event.call?, Cache.load, absent]
  | stored program lacks uses absent =>
    simp [Errand.Event.call?, Cache.load, Cache.store, absent]

end Engine

/-- An errand for a source that does not compile. -/
inductive Errand.Fails (e : Engine) : Errand → Prop
  | missed (origin : Engine.Origin) (source : String) (flaw : Error) (uses : e.usesCache origin = true)
      (failed : Program.compile e.dialect (e.templateKey source) source = .error flaw) :
      Fails e ⟨origin, source, [.miss, .compiled (.error flaw)]⟩
  | apart (origin : Engine.Origin) (source : String) (flaw : Error) (uses : e.usesCache origin = false)
      (failed : Program.compile e.dialect (e.templateKey source) source = .error flaw) :
      Fails e ⟨origin, source, [.compiled (.error flaw)]⟩

/-- An errand that the engine returns from with a program. -/
inductive Errand.Finds (e : Engine) : Errand → Prop
  | hit (origin : Engine.Origin) (source : String) (program : Program)
      (uses : e.usesCache origin = true) : Finds e ⟨origin, source, [.hit program]⟩
  | stored (origin : Engine.Origin) (source : String) (program : Program)
      (uses : e.usesCache origin = true) (key : program.key = e.templateKey source)
      (own : program.source = source) :
      Finds e ⟨origin, source, [.miss, .compiled (.ok program), .stored program]⟩
  | apart (origin : Engine.Origin) (source : String) (program : Program)
      (uses : e.usesCache origin = false) : Finds e ⟨origin, source, [.compiled (.ok program)]⟩

/-- The errands for a key, and whether the engine has a program for it after them: failures, and then
at most one that finds the program, after which nothing is left to do. -/
inductive Engine.Protocol (e : Engine) (key : Key) : Bool → List Errand → Prop
  | lacks (errands : List Errand) (failed : ∀ errand ∈ errands, errand.Fails e) :
      Protocol e key false errands
  | has (before : List Errand) (errand : Errand) (after : List Errand)
      (failed : ∀ errand ∈ before, errand.Fails e) (found : errand.Finds e)
      (idle : ∀ errand ∈ after, errand.events = []) :
      Protocol e key true (before ++ errand :: after)

namespace Engine

theorem identity_of_compile {dialect : Dialect} {key : Key} {source : String} {program : Program}
    (compiled : Program.compile dialect key source = .ok program) :
    program.key = key ∧ program.source = source := by
  obtain ⟨tree, -, rfl⟩ := Program.exists_tree_of_compile compiled
  exact ⟨rfl, rfl⟩

variable {e : Engine} {store : Store}

theorem events_of_has (e : Engine) (origin : Origin) (source : String) (store : Store)
    (there : Entries.has (e.templateKey source) store.memo = true) :
    (e.errand origin source store).events = [] := by
  unfold errand
  dsimp only
  rw [if_pos there]

theorem errand_of_lacks (e : Engine) (origin : Origin) (source : String) (store : Store)
    (absent : Entries.has (e.templateKey source) store.memo = false) :
    if (e.fetched origin source store).succeeded then (e.errand origin source store).Finds e
    else (e.errand origin source store).Fails e := by
  have served := e.served origin source store
  have whole : e.errand origin source store =
      ⟨origin, source, (e.errand origin source store).events⟩ := rfl
  unfold fetched
  rw [whole]
  generalize (e.errand origin source store).events = events at served ⊢
  generalize (e.fetch origin source).run store = ended at served ⊢
  obtain ⟨result, store'⟩ := ended
  cases served with
  | known program there =>
    rw [Entries.has, there] at absent
    cases absent
  | hit program lacks uses => exact .hit origin source program uses
  | missed flaw lacks uses absent failed => exact .missed origin source flaw uses failed
  | stored program lacks uses absent made =>
    obtain ⟨key, own⟩ := identity_of_compile made
    exact .stored origin source program uses key own
  | failedApart flaw lacks uses failed => exact .apart origin source flaw uses failed
  | madeApart program lacks uses => exact .apart origin source program uses

/-- One more fetch is in line with the protocol. -/
theorem Protocol.fetch {key : Key} {errands : List Errand}
    (protocol : e.Protocol key (Entries.has key store.memo)
      (errands.filter fun errand => e.templateKey errand.source = key))
    (origin : Origin) (source : String) :
    e.Protocol key (Entries.has key ((e.fetch origin source).run store).2.memo)
      ((errands ++ [e.errand origin source store]).filter fun errand =>
        e.templateKey errand.source = key) := by
  have asked : (e.errand origin source store).source = source := rfl
  rw [has_memo_fetch, List.filter_append, List.filter_cons, List.filter_nil, asked]
  by_cases same : e.templateKey source = key
  · subst same
    have idle := events_of_has e origin source store
    have active := errand_of_lacks e origin source store
    rw [decide_eq_true rfl, Bool.and_true, if_pos rfl]
    generalize Entries.has (e.templateKey source) store.memo = known at protocol idle active
    generalize errands.filter _ = own at protocol
    cases protocol with
    | lacks _ failed =>
      rw [Bool.false_or]
      cases succeeded : (e.fetched origin source store).succeeded with
      | true =>
        rw [succeeded] at active
        exact .has own _ [] failed (active rfl) (fun _ member => absurd member List.not_mem_nil)
      | false =>
        rw [succeeded] at active
        refine .lacks _ (List.forall_mem_append.2 ⟨failed, ?_⟩)
        exact List.forall_mem_singleton.2 (active rfl)
    | has before found after failed finds still =>
      rw [Bool.true_or, List.append_assoc, List.cons_append]
      refine .has before found _ failed finds (List.forall_mem_append.2 ⟨still, ?_⟩)
      exact List.forall_mem_singleton.2 (idle rfl)
  · rw [decide_eq_false same, Bool.and_false, Bool.or_false, if_neg Bool.false_ne_true, List.append_nil]
    exact protocol

theorem Protocol.uses {key : Key} {known : Bool} {errands : List Errand} (protocol : e.Protocol key known errands)
    {errand : Errand} (member : errand ∈ errands) :
    e.usesCache errand.origin = true ∨ e.calls errand = [] := by
  have fails (failed : errand.Fails e) : e.usesCache errand.origin = true ∨ e.calls errand = [] := by
    cases failed with
    | missed _ _ _ uses => exact .inl uses
    | apart => exact .inr rfl
  cases protocol with
  | lacks _ failed => exact fails (failed errand member)
  | has before found after failed finds idle =>
    rcases List.mem_append.1 member with member | member
    · exact fails (failed errand member)
    · rcases List.mem_cons.1 member with rfl | member
      · cases finds with
        | hit _ _ _ uses => exact .inl uses
        | stored _ _ _ uses => exact .inl uses
        | apart => exact .inr rfl
      · right
        rw [calls, idle errand member]
        rfl

end Engine
end Mustache
