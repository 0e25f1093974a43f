import Mustache.Proofs.Engine.Fetching
import Mustache.Proofs.Program.Ready

/-! How the store of an engine grows while programs are fetched, and what can be found in it. -/
namespace Mustache

namespace Store

def Grown (before after : Store) : Prop :=
  ∀ key program, Entries.get? key before.memo = some program →
    Entries.get? key after.memo = some program

/-- A store in which whatever can be found is a compiled program. -/
structure Built (store : Store) : Prop where
  memo : ∀ key program, Entries.get? key store.memo = some program → program.Built
  cache : ∀ key program, store.cache.find? key = some program → program.Built

structure Follows (before after : Store) : Prop where
  grown : Grown before after
  built : before.Built → after.Built

theorem built_empty : Built {} := ⟨nofun, nofun⟩

namespace Follows

theorem refl (store : Store) : Follows store store := ⟨fun _ _ there => there, id⟩

theorem trans {first second third : Store} (before : Follows first second)
    (after : Follows second third) : Follows first third :=
  ⟨fun key program there => after.grown key program (before.grown key program there),
    fun built => after.built (before.built built)⟩

theorem calls (store : Store) (calls : List Call) : Follows store { store with calls } :=
  ⟨fun _ _ there => there, fun built => ⟨built.memo, built.cache⟩⟩

theorem load (store : Store) (key : Key) :
    Follows store { store with cache := (store.cache.load key).2 } := by
  refine ⟨fun _ _ there => there, fun built => ⟨built.memo, ?_⟩⟩
  intro other program there
  rw [Cache.find?_load] at there
  exact built.cache other program there

theorem keep (store : Store) (key : Key) {program : Program} (fresh : program.Built) :
    Follows store { store with cache := store.cache.store key program } := by
  refine ⟨fun _ _ there => there, fun built => ⟨built.memo, ?_⟩⟩
  intro other found there
  rcases Cache.of_find?_store there with before | ⟨rfl, -⟩
  · exact built.cache other found before
  · exact fresh

theorem remember {store : Store} {key : Key} {program : Program} (fresh : store.Built → program.Built)
    (absent : Entries.get? key store.memo = none) :
    Follows store (Engine.remember key program store) := by
  have found (other : Key) : Entries.get? other (Engine.remember key program store).memo =
      if other = key then some program else Entries.get? other store.memo := Entries.get?_put ..
  constructor
  · intro other held there
    rw [found, if_neg]
    · exact there
    · rintro rfl
      rw [absent] at there
      cases there
  · refine fun built => ⟨?_, built.cache⟩
    intro other held there
    rw [found] at there
    split at there
    · exact Option.some.inj there ▸ fresh built
    · exact built.memo other held there

end Follows

structure Answers (before : Store) (answer : Except Error Program × Store) : Prop where
  follows : Follows before answer.2
  held : ∀ program, answer.1 = .ok program → ∃ key, Entries.get? key answer.2.memo = some program

theorem Answers.after {first second : Store} {answer : Except Error Program × Store}
    (follows : Follows first second) (answers : Answers second answer) : Answers first answer :=
  ⟨follows.trans answers.follows, answers.held⟩

theorem Answers.remember {store : Store} {key : Key} {program : Program}
    (fresh : store.Built → program.Built) (absent : Entries.get? key store.memo = none) :
    Answers store (.ok program, Engine.remember key program store) where
  follows := .remember fresh absent
  held := by
    intro _ same
    cases same
    refine ⟨key, ?_⟩
    unfold Engine.remember
    rw [Entries.get?_put, if_pos rfl]

end Store

namespace Engine

theorem compileNew_answers (e : Engine) (cached : Bool) (source : String) {key : Key} {store : Store}
    (absent : Entries.get? key store.memo = none) :
    store.Answers ((e.compileNew cached key source).run store) := by
  unfold compileNew
  cases compiled : Program.compile e.dialect key source with
  | error flaw => exact ⟨.refl store, nofun⟩
  | ok program =>
    have fresh : program.Built := ⟨_, _, _, compiled⟩
    cases cached with
    | false => exact .remember (fun _ => fresh) absent
    | true => exact .after (.keep store key fresh) (.remember (fun _ => fresh) absent)

/-- What is fetched is among the programs of the store from then on. -/
theorem fetch_answers (e : Engine) (origin : Origin) (source : String) (store : Store) :
    store.Answers ((e.fetch origin source).run store) := by
  rw [fetch_eq]
  generalize e.templateKey source = key
  cases memo : Entries.get? key store.memo with
  | some program => exact ⟨.refl store, fun _ same => by cases same; exact ⟨key, memo⟩⟩
  | none =>
    dsimp only
    split
    · have loaded := Store.Follows.load store key
      cases cached : (store.cache.load key).1 with
      | some program =>
        rw [Cache.load_fst] at cached
        refine .after loaded (.remember (fun built => built.cache key program ?_) memo)
        rw [Cache.find?_load, cached]
      | none => exact .after loaded (compileNew_answers e true source memo)
    · exact compileNew_answers e false source memo

end Engine
end Mustache
