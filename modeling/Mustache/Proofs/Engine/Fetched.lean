import Mustache.Proofs.Engine.Fetching
import Mustache.Proofs.Entries

/-! What an engine has fetched, one after the other. It tells what the engine has in memory, and what
it has added to a cache that keeps programs. -/
namespace Mustache

structure Fetch where
  origin : Engine.Origin
  source : String
  /-- Whether there was a program for it. -/
  succeeded : Bool
  deriving DecidableEq

theorem Cache.has_store {cache : Cache} (memory : cache.policy = .memory) (key other : Key)
    (program : Program) : Entries.has other (cache.store key program).programs =
      (Entries.has other cache.programs || decide (key = other)) := by
  unfold Cache.store kept
  rw [memory]
  dsimp only
  by_cases same : key = other
  · subst same
    rw [decide_eq_true rfl, Bool.or_true]
    split
    · assumption
    · exact Entries.has_put_self key program _
  · rw [decide_eq_false same, Bool.or_false]
    split
    · rfl
    · unfold Entries.has
      rw [Entries.get?_put, if_neg (Ne.symm same)]

theorem Cache.programs_load (cache : Cache) (key : Key) : (cache.load key).2.programs = cache.programs := by
  unfold load
  cases cache.find? key <;> rfl

theorem has_remember (key other : Key) (program : Program) (store : Store) :
    Entries.has other (Engine.remember key program store).memo =
      (Entries.has other store.memo || decide (key = other)) := by
  unfold Entries.has Engine.remember
  rw [Entries.get?_put]
  by_cases same : key = other
  · rw [if_pos same.symm, decide_eq_true same, Bool.or_true]
    rfl
  · rw [if_neg (Ne.symm same), decide_eq_false same, Bool.or_false]

namespace Engine

variable {e : Engine} {store : Store}

def fetched (e : Engine) (origin : Origin) (source : String) (store : Store) : Fetch :=
  ⟨origin, source, ((e.fetch origin source).run store).1.isOk⟩

theorem compileNew_eq (e : Engine) (cached : Bool) (key : Key) (source : String) (store : Store) :
    (e.compileNew cached key source).run store =
      match Program.compile e.dialect key source with
      | .error flaw => (.error flaw, store)
      | .ok program => (.ok program, remember key program
          (if cached then { store with cache := store.cache.store key program } else store)) := by
  unfold compileNew
  cases Program.compile e.dialect key source with
  | error flaw => rfl
  | ok program => cases cached <;> rfl

theorem has_memo_fetch (e : Engine) (origin : Origin) (source : String) (store : Store) (key : Key) :
    Entries.has key ((e.fetch origin source).run store).2.memo =
      (Entries.has key store.memo ||
        (e.fetched origin source store).succeeded && decide (e.templateKey source = key)) := by
  unfold fetched
  rw [fetch_eq]
  generalize e.templateKey source = own
  cases memo : Entries.get? own store.memo with
  | some program =>
    by_cases same : own = key
    · subst same
      simp [Entries.has, memo]
    · simp [same]
  | none =>
    cases e.usesCache origin with
    | false =>
      rw [compileNew_eq]
      cases Program.compile e.dialect own source with
      | error flaw => simp [Except.isOk, Except.toBool]
      | ok program => simp [has_remember, Except.isOk, Except.toBool]
    | true =>
      simp only [if_true]
      cases (store.cache.load own).1 with
      | some program => simp [has_remember, Except.isOk, Except.toBool]
      | none =>
        dsimp only
        rw [compileNew_eq]
        cases Program.compile e.dialect own source with
        | error flaw => simp [Except.isOk, Except.toBool]
        | ok program => simp [has_remember, Except.isOk, Except.toBool]

theorem policy_fetch (e : Engine) (origin : Origin) (source : String) (store : Store) :
    ((e.fetch origin source).run store).2.cache.policy = store.cache.policy := by
  rw [fetch_eq]
  generalize e.templateKey source = own
  cases Entries.get? own store.memo with
  | some program => rfl
  | none =>
    cases e.usesCache origin with
    | false =>
      rw [compileNew_eq]
      cases Program.compile e.dialect own source <;> rfl
    | true =>
      have loaded := Cache.policy_load store.cache own
      simp only [if_true]
      cases (store.cache.load own).1 with
      | some program => exact loaded
      | none =>
        dsimp only
        rw [compileNew_eq]
        cases Program.compile e.dialect own source <;> exact loaded

/-- A fetch adds to the cache only what the engine did not have, and only if it may use the cache. -/
theorem has_cache_fetch (e : Engine) (origin : Origin) (source : String) (store : Store)
    (memory : store.cache.policy = .memory) (key : Key) :
    Entries.has key ((e.fetch origin source).run store).2.cache.programs =
      (Entries.has key store.cache.programs ||
        (e.fetched origin source store).succeeded && decide (e.templateKey source = key) &&
          !Entries.has key store.memo && e.usesCache origin) := by
  unfold fetched
  rw [fetch_eq]
  generalize e.templateKey source = own
  cases memo : Entries.get? own store.memo with
  | some program =>
    by_cases same : own = key
    · subst same
      simp [Entries.has, memo]
    · simp [same]
  | none =>
    have absent : own = key → Entries.has key store.memo = false := by
      rintro rfl
      simp [Entries.has, memo]
    cases e.usesCache origin with
    | false =>
      rw [compileNew_eq]
      cases Program.compile e.dialect own source <;> simp [remember]
    | true =>
      have policy : (store.cache.load own).2.policy = .memory := by rw [Cache.policy_load, memory]
      have programs := Cache.programs_load store.cache own
      simp only [if_true]
      cases found : (store.cache.load own).1 with
      | some program =>
        rw [Cache.load_fst, Cache.find?, memory] at found
        by_cases same : own = key
        · subst same
          have there : Entries.has own store.cache.programs = true := by simp [Entries.has, found]
          simp [remember, programs, there]
        · simp [remember, programs, same]
      | none =>
        dsimp only
        rw [compileNew_eq]
        cases Program.compile e.dialect own source with
        | error flaw => simp [Except.isOk, Except.toBool, programs]
        | ok program =>
          have stored := Cache.has_store policy own key program
          rw [programs] at stored
          by_cases same : own = key
          · subst same
            simp [remember, stored, absent rfl, Except.isOk, Except.toBool]
          · simp [remember, stored, same]

/-- A store that is left when an engine has fetched sources and recorded calls. -/
inductive Fetches (e : Engine) (start : Store) : List Fetch → Store → Prop
  | nil : Fetches e start [] start
  | calls (made : List Fetch) (store : Store) (calls : List Call) (before : Fetches e start made store) :
      Fetches e start made { store with calls }
  | fetch (made : List Fetch) (store : Store) (origin : Origin) (source : String)
      (before : Fetches e start made store) :
      Fetches e start (made ++ [e.fetched origin source store]) ((e.fetch origin source).run store).2

theorem Fetches.trans {first second third : Store} {made more : List Fetch}
    (before : e.Fetches first made second) (after : e.Fetches second more third) :
    e.Fetches first (made ++ more) third := by
  induction after with
  | nil =>
    rw [List.append_nil]
    exact before
  | calls more store calls _ ih => exact .calls _ _ calls ih
  | fetch more store origin source _ ih =>
    rw [← List.append_assoc]
    exact .fetch _ _ origin source ih

theorem Fetches.single (e : Engine) (origin : Origin) (source : String) (store : Store) :
    e.Fetches store [e.fetched origin source store] ((e.fetch origin source).run store).2 :=
  .fetch [] store origin source .nil

theorem Fetches.policy {made : List Fetch} {store' : Store} (fetches : e.Fetches store made store') :
    store'.cache.policy = store.cache.policy := by
  induction fetches with
  | nil => rfl
  | calls _ _ _ _ ih => exact ih
  | fetch _ _ origin source _ ih => exact (policy_fetch e origin source _).trans ih

/-- As what a source with a key was first fetched successfully. -/
def firstOrigin? (e : Engine) (key : Key) (made : List Fetch) : Option Origin :=
  (made.find? fun f => f.succeeded && decide (e.templateKey f.source = key)).map (·.origin)

theorem firstOrigin?_append (key : Key) (made more : List Fetch) :
    e.firstOrigin? key (made ++ more) = (e.firstOrigin? key made <|> e.firstOrigin? key more) := by
  unfold firstOrigin?
  rw [List.find?_append]
  cases made.find? _ <;> rfl

theorem firstOrigin?_singleton (key : Key) (f : Fetch) : e.firstOrigin? key [f] =
    if f.succeeded && decide (e.templateKey f.source = key) then some f.origin else none := by
  unfold firstOrigin?
  rw [List.find?_singleton]
  split <;> rfl

theorem isSome_firstOrigin? {made : List Fetch} {f : Fetch} (member : f ∈ made)
    (succeeded : f.succeeded = true) : (e.firstOrigin? (e.templateKey f.source) made).isSome = true := by
  unfold firstOrigin?
  rw [Option.isSome_map, List.find?_isSome]
  exact ⟨f, member, by simp [succeeded]⟩

/-- What the engine has in memory is what it has fetched so far. -/
def Recalls (e : Engine) (made : List Fetch) (store : Store) : Prop :=
  ∀ key, Entries.has key store.memo = (e.firstOrigin? key made).isSome

variable {made more : List Fetch} {store' : Store}

theorem Recalls.after (recalls : e.Recalls made store) (fetches : e.Fetches store more store') :
    e.Recalls (made ++ more) store' := by
  induction fetches with
  | nil =>
    rw [List.append_nil]
    exact recalls
  | calls _ _ _ _ ih => exact ih
  | fetch more store origin source _ ih =>
    intro key
    rw [has_memo_fetch, ih key, ← List.append_assoc, firstOrigin?_append key (made ++ more),
      firstOrigin?_singleton]
    have same : (e.fetched origin source store).source = source := rfl
    rw [same]
    cases e.firstOrigin? key (made ++ more) with
    | some first => rfl
    | none =>
      cases (e.fetched origin source store).succeeded && decide (e.templateKey source = key) <;> rfl

/-- The engine has added to the cache what it fetched for the first time with leave to use the cache. -/
theorem has_cache_fetches (recalls : e.Recalls made store) (fetches : e.Fetches store more store')
    (memory : store.cache.policy = .memory) (key : Key) :
    Entries.has key store'.cache.programs = (Entries.has key store.cache.programs ||
      (e.firstOrigin? key made).isNone && (e.firstOrigin? key (made ++ more)).any e.usesCache) := by
  induction fetches with
  | nil =>
    rw [List.append_nil]
    cases e.firstOrigin? key made <;> simp
  | calls _ _ _ _ ih => exact ih
  | fetch more store origin source before ih =>
    have policy := before.policy.trans memory
    rw [has_cache_fetch e origin source store policy, ih, recalls.after before key, ← List.append_assoc,
      firstOrigin?_append key (made ++ more), firstOrigin?_singleton]
    have same : (e.fetched origin source store).source = source := rfl
    have same' : (e.fetched origin source store).origin = origin := rfl
    rw [same, same', firstOrigin?_append key made more]
    cases e.firstOrigin? key made with
    | some first => simp
    | none =>
      cases e.firstOrigin? key more with
      | some first => simp
      | none =>
        cases (e.fetched origin source store).succeeded && decide (e.templateKey source = key) <;> simp

end Engine
end Mustache
