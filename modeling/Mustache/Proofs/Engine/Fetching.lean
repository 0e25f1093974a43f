import Mustache.Engine

/-! What an engine fetches for a source is what it would compile, whoever has put the programs there
that it finds. -/
namespace Mustache

namespace Cache

variable (cache : Cache) (key other : Key)

theorem load_fst : (cache.load key).1 = cache.find? key := by
  unfold load
  cases cache.find? key <;> rfl

theorem policy_load : (cache.load key).2.policy = cache.policy := by
  unfold load
  cases cache.find? key <;> rfl

theorem find?_load : (cache.load key).2.find? other = cache.find? other := by
  unfold load
  cases cache.find? key <;> rfl

variable {cache key other}

/-- What is found after a program has been stored is that program, or was found before. -/
theorem of_find?_store {program found : Program}
    (there : (cache.store key program).find? other = some found) :
    cache.find? other = some found ∨
      found = program ∧ (other = key ∨ cache.policy = .pinned) := by
  unfold find? store kept at there
  unfold find?
  cases policy : cache.policy with
  | none => simp [policy] at there
  | pinned =>
    simp only [policy] at there ⊢
    split at there
    · cases there
      exact .inr ⟨rfl, .inr trivial⟩
    · exact .inl there
  | memory =>
    simp only [policy] at there ⊢
    split at there
    · exact .inl there
    · rw [Entries.get?_put] at there
      split at there
      · rename_i same
        exact .inr ⟨(Option.some.inj there).symm, .inl same⟩
      · exact .inl there

end Cache

variable {known : Engine → String → Prop} {e : Engine} {store : Store}

/-- A program under a key that some known engine has compiled for a known source. -/
def Made (known : Engine → String → Prop) (key : Key) (program : Program) : Prop :=
  ∃ e source, known e source ∧ key = e.templateKey source ∧
    Program.compile e.dialect key source = .ok program

/-- All programs that the engine finds were made by known engines. -/
structure Genuine (known : Engine → String → Prop) (store : Store) : Prop where
  memo : ∀ key program, Entries.get? key store.memo = some program → Made known key program
  cache : ∀ key program, store.cache.find? key = some program → Made known key program
  policy : store.cache.policy ≠ .pinned

/-- Known sources with the key of this one give the same program. -/
def Apart (known : Engine → String → Prop) (e : Engine) (source : String) : Prop :=
  ∀ e' source', known e' source' → e'.templateKey source' = e.templateKey source →
    e'.dialect = e.dialect ∧ source' = source

theorem Made.compile_eq {key : Key} {program : Program} {source : String}
    (made : Made known key program) (apart : Apart known e source)
    (same : key = e.templateKey source) :
    Program.compile e.dialect (e.templateKey source) source = .ok program := by
  obtain ⟨e', source', there, whose, compiled⟩ := made
  obtain ⟨dialect, rfl⟩ := apart e' source' there (whose.symm.trans same)
  rwa [dialect, same] at compiled

namespace Genuine

theorem fresh (calls : List Call) : Genuine known { calls } where
  memo := by
    intro key program there
    cases there
  cache := by
    intro key program there
    cases there
  policy := nofun

theorem of_calls (genuine : Genuine known store) (calls : List Call) :
    Genuine known { store with calls } :=
  ⟨genuine.memo, genuine.cache, genuine.policy⟩

theorem remember (genuine : Genuine known store) {key : Key} {program : Program}
    (made : Made known key program) : Genuine known (Engine.remember key program store) where
  memo := by
    intro other found there
    unfold Engine.remember at there
    rw [Entries.get?_put] at there
    split at there
    · rename_i same
      rw [← Option.some.inj there, same]
      exact made
    · exact genuine.memo other found there
  cache := genuine.cache
  policy := genuine.policy

theorem load (genuine : Genuine known store) (key : Key) :
    Genuine known { store with cache := (store.cache.load key).2 } := by
  refine ⟨genuine.memo, ?_, ?_⟩
  · intro other program there
    rw [Cache.find?_load] at there
    exact genuine.cache other program there
  · rw [Cache.policy_load]
    exact genuine.policy

theorem keep (genuine : Genuine known store) {key : Key} {program : Program}
    (made : Made known key program) :
    Genuine known { store with cache := store.cache.store key program } := by
  refine ⟨genuine.memo, ?_, genuine.policy⟩
  intro other found there
  rcases Cache.of_find?_store there with before | ⟨rfl, rfl | pinned⟩
  · exact genuine.cache other found before
  · exact made
  · exact absurd pinned genuine.policy

end Genuine

namespace Engine

theorem compileNew_run (genuine : Genuine known store) {source : String} (there : known e source)
    (cached : Bool) :
    ((e.compileNew cached (e.templateKey source) source).run store).1 =
        Program.compile e.dialect (e.templateKey source) source ∧
      ((e.compileNew cached (e.templateKey source) source).run store).2.calls = store.calls ∧
      Genuine known ((e.compileNew cached (e.templateKey source) source).run store).2 := by
  unfold compileNew
  cases compiled : Program.compile e.dialect (e.templateKey source) source with
  | error flaw => exact ⟨rfl, rfl, genuine⟩
  | ok program =>
    have made : Made known (e.templateKey source) program := ⟨e, source, there, rfl, compiled⟩
    cases cached with
    | true => exact ⟨rfl, rfl, (genuine.keep made).remember made⟩
    | false => exact ⟨rfl, rfl, genuine.remember made⟩

theorem fetch_eq (e : Engine) (origin : Origin) (source : String) (store : Store) :
    (e.fetch origin source).run store =
      match Entries.get? (e.templateKey source) store.memo with
      | some program => (.ok program, store)
      | none =>
        if e.usesCache origin then
          let loaded := { store with cache := (store.cache.load (e.templateKey source)).2 }
          match (store.cache.load (e.templateKey source)).1 with
          | some program => (.ok program, Engine.remember (e.templateKey source) program loaded)
          | none => (e.compileNew true (e.templateKey source) source).run loaded
        else (e.compileNew false (e.templateKey source) source).run store := by
  unfold fetch
  generalize e.templateKey source = key
  simp only [StateT.run_bind, StateT.run_get, pure_bind]
  cases Entries.get? key store.memo with
  | some program => rfl
  | none =>
    cases e.usesCache origin with
    | false => rfl
    | true =>
      simp only [if_true, StateT.run_bind, StateT.run_get, pure_bind]
      generalize store.cache.load key = loaded
      obtain ⟨found, cache⟩ := loaded
      cases found <;> rfl

theorem fetch_run (genuine : Genuine known store) {source : String} (there : known e source)
    (apart : Apart known e source) (origin : Origin) :
    ((e.fetch origin source).run store).1 =
        Program.compile e.dialect (e.templateKey source) source ∧
      ((e.fetch origin source).run store).2.calls = store.calls ∧
      Genuine known ((e.fetch origin source).run store).2 := by
  rw [fetch_eq]
  cases memo : Entries.get? (e.templateKey source) store.memo with
  | some program =>
    have made := genuine.memo _ _ memo
    exact ⟨(made.compile_eq apart rfl).symm, rfl, genuine⟩
  | none =>
    cases e.usesCache origin with
    | false => exact compileNew_run genuine there false
    | true =>
      have loaded := genuine.load (e.templateKey source)
      dsimp only
      rw [if_pos rfl, Cache.load_fst]
      cases cached : store.cache.find? (e.templateKey source) with
      | some program =>
        have made := genuine.cache _ _ cached
        exact ⟨(made.compile_eq apart rfl).symm, rfl, loaded.remember made⟩
      | none => exact compileNew_run loaded there true

end Engine
end Mustache
