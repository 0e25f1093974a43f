import Mustache.Lambda.Script
import Mustache.Proofs.Render.Noted
import Mustache.Proofs.Session.Answers

/-! What the caches of a session hold because of what its engines have fetched. An engine puts a
program into its cache when it first meets the source, unless it meets it as the text of a lambda and
is not to cache those. -/
namespace Mustache

/-- The fetches made to present a source, in order. -/
def Request.presenting (env : Render.Env) (source : String) (input : Input) (store : Store) :
    List Fetch :=
  let (found, store') := (env.engine.fetch .template source).run store
  env.engine.fetched .template source store :: match found, input.value with
    | .ok program, .ok context => Render.fetchesIn (Render.notesOfRender env program context store')
    | _, _ => []

/-- The fetches made to answer a request. -/
def Request.fetches (env : Render.Env) (store : Store) : Request → List Fetch
  | .render name input =>
    match env.engine.loader.load env.shelves name with
    | some source => presenting env source input store
    | none => []
  | .compileRender source input => presenting env source input store
  | .loadTemplate name =>
    match env.engine.loader.load env.shelves name with
    | some source => [env.engine.fetched .template source store]
    | none => []
  | .compile source | .describe source => [env.engine.fetched .template source store]
  | _ => []

namespace Session

/-- What each engine has fetched since it was built, after one more step. -/
def recorded (s : Session) (made : String → List Fetch) : Step → Answer → String → List Fetch
  | .build id _, .built => fun other => if other = id then [] else made other
  | .ask id request, _ => fun other =>
    if other = id then
      made other ++ match Entries.get? id s.desks with
        | some desk => request.fetches ⟨desk.engine, s.shelves, s.lambdas⟩ (s.storeOf desk)
        | none => []
    else made other
  | _, _ => made

/-- A session that others steps have led to, with what each engine has fetched. -/
inductive Played (start : Session) : (String → List Fetch) → Session → Prop
  | nil : Played start (fun _ => []) start
  | step (made : String → List Fetch) (s : Session) (step : Step) (reply : Answer) (after : Session)
      (before : Played start made s) (stepped : s.step step = .ok (reply, after)) :
      Played start (s.recorded made step reply) after

end Session

namespace Engine

theorem templateKey_engine (e : Engine) (request : Request) : (request.engine e).templateKey = e.templateKey := by
  cases request <;> rfl

theorem usesCache_engine (e : Engine) (request : Request) : (request.engine e).usesCache = e.usesCache := by
  cases request <;> rfl

theorem firstOrigin?_engine (e : Engine) (request : Request) :
    (request.engine e).firstOrigin? = e.firstOrigin? := by
  funext key made
  unfold firstOrigin?
  rw [templateKey_engine]

/-- A cache that keeps programs has what the engine fetched first with leave to use it. -/
def Stocks (e : Engine) (made : List Fetch) (cache : Cache) : Prop :=
  cache.policy = .memory → ∀ key, (e.firstOrigin? key made).any e.usesCache = true →
    Entries.has key cache.programs = true

theorem Stocks.grown {e : Engine} {made : List Fetch} {cache cache' : Cache}
    (stocks : e.Stocks made cache) (policy : cache'.policy = cache.policy)
    (grown : cache.policy = .memory → ∀ key, Entries.has key cache.programs = true →
      Entries.has key cache'.programs = true) : e.Stocks made cache' := by
  intro memory key first
  rw [policy] at memory
  exact grown memory key (stocks memory key first)

variable {e : Engine} {store store' : Store} {made more : List Fetch}

/-- What was fetched is found, unless it was met first as a text that is not to be cached. -/
theorem Stocks.find?_or {cache : Cache} (stocks : e.Stocks made cache) {source : String}
    (member : ⟨.template, source, true⟩ ∈ made) (memory : cache.policy = .memory) :
    (∃ program, cache.find? (e.templateKey source) = some program) ∨
      e.cacheLambdaTemplates = false ∧ e.firstOrigin? (e.templateKey source) made = some .lambda := by
  obtain ⟨origin, first⟩ := Option.isSome_iff_exists.1 (isSome_firstOrigin? member rfl)
  cases allowed : e.usesCache origin with
  | true =>
    left
    unfold Cache.find?
    rw [memory]
    exact Option.isSome_iff_exists.1 (stocks memory _ (by rw [first]; exact allowed))
  | false =>
    cases origin with
    | template => cases allowed
    | lambda => exact .inr ⟨allowed, first⟩

theorem Recalls.engine (recalls : e.Recalls made store) (request : Request) :
    (request.engine e).Recalls made store := by
  unfold Recalls
  rw [firstOrigin?_engine]
  exact recalls

theorem Stocks.engine {cache : Cache} (stocks : e.Stocks made cache) (request : Request) :
    (request.engine e).Stocks made cache := by
  unfold Stocks
  rw [firstOrigin?_engine, usesCache_engine]
  exact stocks

theorem Fetches.grown (recalls : e.Recalls made store) (fetches : e.Fetches store more store')
    (memory : store.cache.policy = .memory) (key : Key)
    (there : Entries.has key store.cache.programs = true) :
    Entries.has key store'.cache.programs = true := by
  rw [has_cache_fetches recalls fetches memory, there, Bool.true_or]

theorem Stocks.after (stocks : e.Stocks made store.cache) (recalls : e.Recalls made store)
    (fetches : e.Fetches store more store') : e.Stocks (made ++ more) store'.cache := by
  intro memory key first
  rw [fetches.policy] at memory
  rw [has_cache_fetches recalls fetches memory]
  cases before : e.firstOrigin? key made with
  | none => rw [first]; simp
  | some origin =>
    rw [firstOrigin?_append, before] at first
    rw [stocks memory key (by rw [before]; exact first), Bool.true_or]

end Engine

namespace Session

variable {env : Render.Env} {store : Store}

theorem fetches_present (env : Render.Env) (source : String) (input : Input)
    (answer : Program → String → Answer) (store : Store) :
    env.engine.Fetches store (Request.presenting env source input store)
      ((do
        let found ← env.engine.fetch .template source
        return (← present env found input answer, env.engine) :
          StateM Store (Answer × Engine)).run store).2 := by
  have first := Engine.Fetches.single env.engine .template source store
  unfold Request.presenting
  rw [StateT.run_bind]
  generalize (env.engine.fetch .template source).run store = fetched at first ⊢
  obtain ⟨_ | program, store'⟩ := fetched
  · exact first
  · show env.engine.Fetches store _ ((present env (.ok program) input answer).run store').2
    unfold present
    cases input.value with
    | error e => exact first
    | ok context =>
      have rendered := Render.fetches_render env program context store'
      dsimp only
      rw [StateT.run_bind]
      have ran : (Render.render env program context).run store' = Render.render env program context store' := rfl
      rw [ran]
      generalize Render.render env program context store' = reply at rendered ⊢
      obtain ⟨(_ | _) | _, store''⟩ := reply <;> exact first.trans rendered

theorem fetches_answer (env : Render.Env) (request : Request) (store : Store) :
    env.engine.Fetches store (request.fetches env store) ((answer env request).run store).2 := by
  have single (source : String) := Engine.Fetches.single env.engine .template source store
  cases request with
  | render name input =>
    unfold answer Request.fetches Engine.fetchNamed
    dsimp only
    cases env.engine.loader.load env.shelves name with
    | none => exact .nil
    | some source => exact fetches_present env source input _ store
  | compileRender source input => exact fetches_present env source input _ store
  | compile source => exact single source
  | loadTemplate name =>
    unfold answer Request.fetches Engine.fetchNamed
    dsimp only
    cases env.engine.loader.load env.shelves name with
    | none => exact .nil
    | some source => exact single source
  | describe source =>
    have first := single source
    unfold answer Request.fetches
    rw [StateT.run_bind]
    generalize (env.engine.fetch .template source).run store = fetched at first ⊢
    obtain ⟨_ | _, store'⟩ := fetched <;> exact first
  | getHelper name =>
    unfold answer
    dsimp only
    cases env.engine.helper name <;> exact .nil
  | _ => exact .nil

theorem exists_desk_of_ask {s after : Session} {id : String} {request : Request} {reply : Answer}
    (asked : s.ask id request = .ok (reply, after)) :
    ∃ desk, Entries.get? id s.desks = some desk ∧
      reply = ((answer ⟨desk.engine, s.shelves, s.lambdas⟩ request).run (s.storeOf desk)).1.1 ∧
      after = s.keep id { desk with engine := request.engine desk.engine }
        ((answer ⟨desk.engine, s.shelves, s.lambdas⟩ request).run (s.storeOf desk)).2 := by
  unfold ask at asked
  cases there : Entries.get? id s.desks with
  | none =>
    rw [there] at asked
    cases asked
  | some desk =>
    rw [there] at asked
    dsimp only at asked
    refine ⟨desk, rfl, ?_⟩
    rw [← engine_of_answer ⟨desk.engine, s.shelves, s.lambdas⟩ request (s.storeOf desk)]
    cases asked
    exact ⟨rfl, rfl⟩

/-- What an engine has in memory and in its cache is accounted for by what it has fetched. -/
structure Tracked (made : List Fetch) (s : Session) (desk : Desk) : Prop where
  recalls : desk.engine.Recalls made (s.storeOf desk)
  stocks : desk.engine.Stocks made (s.storeOf desk).cache

def Tracks (made : String → List Fetch) (s : Session) : Prop :=
  ∀ id desk, Entries.get? id s.desks = some desk → Tracked (made id) s desk

variable {s : Session} {made : String → List Fetch}

theorem Tracked.of_cache {desk : Desk} {before : List Fetch} (tracked : Tracked before s desk)
    {after : Session} (policy : (after.storeOf desk).cache.policy = (s.storeOf desk).cache.policy)
    (grown : (s.storeOf desk).cache.policy = .memory → ∀ key,
      Entries.has key (s.storeOf desk).cache.programs = true →
      Entries.has key (after.storeOf desk).cache.programs = true) : Tracked before after desk :=
  ⟨tracked.recalls, tracked.stocks.grown policy grown⟩

theorem cache_storeOf (s : Session) {desk : Desk} {name : String} {cache : Cache}
    (uses : desk.cache = some name) (configured : Entries.get? name s.caches = some cache) :
    (s.storeOf desk).cache = cache := by
  unfold storeOf
  dsimp only
  rw [uses, Option.bind_some, configured]
  rfl

theorem cache_storeOf_eq (s : Session) {desk other : Desk} (shared : desk.cache = other.cache) :
    (s.storeOf desk).cache = (s.storeOf other).cache := by
  unfold storeOf
  rw [shared]

theorem cache_storeOf_keep (s : Session) (id : String) (desk other : Desk) (store : Store) :
    ((s.keep id desk store).storeOf other).cache =
      if other.cache = desk.cache ∧ desk.cache.isSome then store.cache else (s.storeOf other).cache := by
  unfold storeOf keep
  dsimp only
  cases uses : desk.cache with
  | none => simp
  | some name =>
    cases own : other.cache with
    | none => simp
    | some name' =>
      simp only [Option.bind_some, Entries.get?_put, Option.some.injEq, Option.isSome_some, and_true]
      split <;> rfl

theorem Tracks.keep (tracks : s.Tracks made) {id : String} {desk : Desk}
    (there : Entries.get? id s.desks = some desk) (request : Request) {more : List Fetch} {store : Store}
    (fetches : desk.engine.Fetches (s.storeOf desk) more store) :
    (s.keep id { desk with engine := request.engine desk.engine } store).Tracks
      fun other => if other = id then made other ++ more else made other := by
  have own := tracks id desk there
  intro other found there'
  dsimp only
  have cache := s.cache_storeOf_keep id { desk with engine := request.engine desk.engine } found store
  unfold Session.keep at there'
  dsimp only at there' cache
  rw [Entries.get?_put] at there'
  split at there'
  · rename_i same
    subst same
    cases there'
    rw [if_pos rfl]
    refine ⟨(own.recalls.after fetches).engine request, ?_⟩
    rw [cache]
    split
    · exact (own.stocks.after own.recalls fetches).engine request
    · rename_i unused
      have none : desk.cache = none := by simpa using unused
      unfold storeOf
      dsimp only
      rw [none]
      intro memory
      cases memory
  · rename_i different
    rw [if_neg different]
    refine (tracks other found there').of_cache ?_ ?_
    · rw [cache]
      split
      · rename_i shared
        rw [s.cache_storeOf_eq shared.1]
        exact fetches.policy
      · rfl
    · intro memory key held
      rw [cache]
      split
      · rename_i shared
        rw [s.cache_storeOf_eq shared.1] at memory held
        exact fetches.grown own.recalls memory key held
      · exact held

theorem Tracks.step (tracks : s.Tracks made) {step : Step} {reply : Answer} {after : Session}
    (stepped : s.step step = .ok (reply, after)) : after.Tracks (s.recorded made step reply) := by
  cases step with
  | build id settings =>
    obtain ⟨builder, -, built⟩ := bind_eq_ok stepped
    cases engine : builder.build with
    | error e =>
      rw [engine] at built
      cases built
      exact tracks
    | ok e =>
      rw [engine] at built
      cases built
      intro other desk there
      dsimp only at there
      unfold recorded
      dsimp only
      rw [Entries.get?_put] at there
      split at there
      · rename_i same
        cases there
        rw [if_pos same]
        refine ⟨fun _ => rfl, ?_⟩
        intro _ key first
        cases first
      · rename_i different
        rw [if_neg different]
        exact ⟨(tracks other desk there).recalls, (tracks other desk there).stocks⟩
  | setTemplate loader name source =>
    obtain ⟨found, -, later⟩ := bind_eq_ok stepped
    cases found <;> cases later
    exact fun other desk there => ⟨(tracks other desk there).recalls, (tracks other desk there).stocks⟩
  | hasTemplate loader name | load loader name =>
    obtain ⟨reply, -, later⟩ := bind_eq_ok stepped
    cases later
    exact tracks
  | report name =>
    unfold Session.step Session.report at stepped
    dsimp only at stepped
    cases found : Entries.get? name s.caches with
    | none =>
      rw [found] at stepped
      cases stepped
    | some entry =>
      rw [found] at stepped
      cases stepped
      intro id desk there
      have cleared : ((({ s with caches := Entries.put name { entry with log := [] } s.caches } :
            Session).storeOf desk).cache.policy = (s.storeOf desk).cache.policy) ∧
          (({ s with caches := Entries.put name { entry with log := [] } s.caches } :
            Session).storeOf desk).cache.programs = (s.storeOf desk).cache.programs := by
        unfold storeOf
        dsimp only
        cases desk.cache with
        | none => exact ⟨rfl, rfl⟩
        | some own =>
          simp only [Option.bind_some, Entries.get?_put]
          split
          · rename_i same
            rw [same, found]
            exact ⟨rfl, rfl⟩
          · exact ⟨rfl, rfl⟩
      exact (tracks id desk there).of_cache cleared.1 fun _ key held => cleared.2 ▸ held
  | ask id request =>
    obtain ⟨desk, there, -, rfl⟩ := exists_desk_of_ask stepped
    unfold recorded
    dsimp only
    rw [there]
    exact tracks.keep there request (fetches_answer ⟨desk.engine, s.shelves, s.lambdas⟩ request _)

theorem Played.tracks {start : Session} (new : start.desks = []) (played : start.Played made s) :
    s.Tracks made := by
  induction played with
  | nil =>
    intro id desk there
    rw [new] at there
    cases there
  | step made s step reply after before stepped ih => exact ih.step stepped

/-- A program that is given for a source has been fetched for it. -/
theorem fetched_of_program {request : Request} {source : String} {program : Program}
    (wants : request = .compile source ∨ ∃ name, request = .loadTemplate name ∧
      env.engine.loader.load env.shelves name = some source)
    (given : ((answer env request).run store).1.1 = .program program) :
    ⟨.template, source, true⟩ ∈ request.fetches env store := by
  have member : Answer.ofProgram ((env.engine.fetch .template source).run store).1 = .program program →
      (⟨.template, source, true⟩ : Fetch) ∈ [env.engine.fetched .template source store] := by
    intro same
    unfold Engine.fetched
    cases found : ((env.engine.fetch .template source).run store).1 with
    | error e =>
      rw [found] at same
      cases same
    | ok program => exact List.mem_singleton_self _
  rcases wants with rfl | ⟨name, rfl, loaded⟩
  · exact member given
  · unfold answer Engine.fetchNamed at given
    unfold Request.fetches
    dsimp only at given ⊢
    rw [loaded] at given ⊢
    exact member given

/-- Where an engine that was asked stood before, and what was kept of its answer. -/
theorem exists_desk_before {after : Session} {id : String} {request : Request} {reply : Answer}
    {desk : Desk} (asked : s.ask id request = .ok (reply, after))
    (there : Entries.get? id after.desks = some desk) (uses : desk.cache.isSome = true) :
    ∃ old, Entries.get? id s.desks = some old ∧
      reply = ((answer ⟨old.engine, s.shelves, s.lambdas⟩ request).run (s.storeOf old)).1.1 ∧
      desk.engine = request.engine old.engine ∧ desk.cache = old.cache ∧
      (after.storeOf desk).cache =
        ((answer ⟨old.engine, s.shelves, s.lambdas⟩ request).run (s.storeOf old)).2.cache := by
  obtain ⟨old, before, replied, rfl⟩ := exists_desk_of_ask asked
  rw [cache_storeOf_keep]
  unfold Session.keep at there
  dsimp only at there
  rw [Entries.get?_put, if_pos rfl] at there
  cases there
  rw [if_pos ⟨rfl, uses⟩]
  exact ⟨old, before, replied, rfl, rfl, rfl⟩

/-- A source that an engine has fetched as a template is in its cache, if that keeps programs, unless
the engine does not cache texts of lambdas and has met the source as one first. In that case the
engine does not add it. -/
theorem cached_unless_met_as_lambda {start s after : Session} {made : String → List Fetch}
    (new : start.desks = []) (played : start.Played made s) {step : Step} {reply : Answer}
    (stepped : s.step step = .ok (reply, after)) {id : String} {desk : Desk}
    (there : Entries.get? id after.desks = some desk) {name : String} {cache : Cache}
    (uses : desk.cache = some name) (configured : Entries.get? name after.caches = some cache)
    (memory : cache.policy = .memory) :
    let fetched := s.recorded made step reply id
    let metAsLambda (source : String) := desk.engine.cacheLambdaTemplates = false ∧
      desk.engine.firstOrigin? (desk.engine.templateKey source) fetched = some .lambda
    (∀ source program, (step = .ask id (.compile source) ∨ ∃ template,
        step = .ask id (.loadTemplate template) ∧
          desk.engine.loader.load s.shelves template = some source) →
      reply = .program program → ⟨.template, source, true⟩ ∈ fetched) ∧
    (∀ source, ⟨.template, source, true⟩ ∈ fetched →
      (∃ program, cache.find? (desk.engine.templateKey source) = some program) ∨ metAsLambda source) ∧
    ∀ source request before, metAsLambda source → step = .ask id request →
      Entries.get? name s.caches = some before →
      Entries.has (desk.engine.templateKey source) cache.programs =
        Entries.has (desk.engine.templateKey source) before.programs := by
  intro fetched metAsLambda
  have tracks := played.tracks new
  have tracked := tracks.step stepped id desk there
  have own : (after.storeOf desk).cache = cache := after.cache_storeOf uses configured
  have asked (request : Request) (same : step = .ask id request) :
      ∃ old, Entries.get? id s.desks = some old ∧
        reply = ((answer ⟨old.engine, s.shelves, s.lambdas⟩ request).run (s.storeOf old)).1.1 ∧
        desk.engine = request.engine old.engine ∧ desk.cache = old.cache ∧
        cache = ((answer ⟨old.engine, s.shelves, s.lambdas⟩ request).run (s.storeOf old)).2.cache ∧
        fetched = made id ++ request.fetches ⟨old.engine, s.shelves, s.lambdas⟩ (s.storeOf old) := by
    subst same
    obtain ⟨old, before, replied, engine, kept, cached⟩ :=
      exists_desk_before stepped there (by rw [uses]; rfl)
    have told : fetched = _ := if_pos rfl
    rw [before] at told
    exact ⟨old, before, replied, engine, kept, own.symm.trans cached, told⟩
  refine ⟨?_, ?_, ?_⟩
  · rintro source program wants rfl
    obtain ⟨request, same, wants⟩ : ∃ request, step = .ask id request ∧ (request = .compile source ∨
        ∃ template, request = .loadTemplate template ∧
          desk.engine.loader.load s.shelves template = some source) := by
      rcases wants with same | ⟨template, same, loaded⟩
      · exact ⟨_, same, .inl rfl⟩
      · exact ⟨_, same, .inr ⟨template, rfl, loaded⟩⟩
    obtain ⟨old, -, replied, engine, -, -, made⟩ := asked request same
    rw [made]
    refine List.mem_append_right _ (fetched_of_program ?_ replied.symm)
    rcases wants with rfl | ⟨template, rfl, loaded⟩
    · exact .inl rfl
    · rw [engine] at loaded
      exact .inr ⟨template, rfl, loaded⟩
  · intro source member
    have stocks := tracked.stocks
    rw [own] at stocks
    rcases stocks.find?_or member memory with found | ⟨unused, first⟩
    · exact .inl found
    · exact .inr ⟨unused, first⟩
  · rintro source request before ⟨uncached, first⟩ same before'
    obtain ⟨old, there', -, engine, kept, cached, made⟩ := asked request same
    have recalls := (tracks id old there').recalls
    have fetches := fetches_answer ⟨old.engine, s.shelves, s.lambdas⟩ request (s.storeOf old)
    have previous : (s.storeOf old).cache = before := s.cache_storeOf (kept ▸ uses) before'
    have policy := fetches.policy
    rw [← cached, memory, previous] at policy
    have unused : desk.engine.usesCache .lambda = false := uncached
    rw [engine, Engine.usesCache_engine] at unused
    generalize desk.engine.templateKey source = key at first ⊢
    rw [made, engine, Engine.firstOrigin?_engine] at first
    have grown := Engine.has_cache_fetches recalls fetches (by rw [previous]; exact policy.symm) key
    rw [← cached, previous] at grown
    rw [grown, first, Option.any_some, unused, Bool.and_false, Bool.or_false]

/-- A text that a lambda gives before it is compiled as a template. -/
theorem cached_unless_met_as_lambda_met :
    ∃ (start s after : Session) (made : String → List Fetch) (desk : Desk) (cache : Cache)
      (program : Program),
      start.desks = [] ∧ start.Played made s ∧
      s.step (.ask "e" (.compile "x")) = .ok (.program program, after) ∧
      Entries.get? "e" after.desks = some desk ∧ desk.cache = some "c" ∧
      Entries.get? "c" after.caches = some cache ∧ cache.policy = .memory ∧
      Entries.has (desk.engine.templateKey "x") cache.programs = false ∧
      desk.engine.firstOrigin? (desk.engine.templateKey "x")
        (s.recorded made (.ask "e" (.compile "x")) (.program program) "e") = some .lambda := by
  let registry := ({} : Registry).add (Script.always (.string "x")).behaviour
  let start : Session := { lambdas := registry.2.lambdas, caches := [("c", { policy := .memory })] }
  let context : Value := .map [("l", .lambda registry.1)]
  let lacking (ended : Answer × Session) : Bool :=
    (ended.1 matches .program _) && (Entries.get? "e" ended.2.desks).any fun desk =>
      (Entries.get? "c" ended.2.caches).any fun cache => desk.cache = some "c" &&
        cache.policy = .memory && !Entries.has (desk.engine.templateKey "x") cache.programs
  have ran : (do
      let built ← start.step (.build "e" [.cache "c"])
      let rendered ← built.2.step (.ask "e" (.compileRender "\x7b\x7bl\x7d\x7d" ⟨context, false⟩))
      let compiled ← rendered.2.step (.ask "e" (.compile "x"))
      return lacking compiled) = .ok true := by
    decide +kernel
  obtain ⟨⟨ready, s₁⟩, first, ran⟩ := bind_eq_ok ran
  obtain ⟨⟨rendered, s₂⟩, second, ran⟩ := bind_eq_ok ran
  obtain ⟨⟨reply, after⟩, stepped, ran⟩ := bind_eq_ok ran
  have fresh : start.Played _ start := .nil
  have played := (fresh.step _ _ _ _ _ first).step _ _ _ _ _ second
  have lacks : lacking (reply, after) = true := Except.ok.inj ran
  cases reply with
  | program program =>
    obtain ⟨desk, there, lacks⟩ := (Option.any_eq_true _ _).1 lacks
    obtain ⟨cache, configured, lacks⟩ := (Option.any_eq_true _ _).1 lacks
    simp only [Bool.and_eq_true, decide_eq_true_eq, Bool.not_eq_true'] at lacks
    obtain ⟨⟨uses, memory⟩, lacks⟩ := lacks
    obtain ⟨compiled, stocked, -⟩ :=
      cached_unless_met_as_lambda rfl played stepped there uses configured memory
    refine ⟨start, s₂, after, _, desk, cache, program, rfl, played, stepped, there, uses, configured,
      memory, lacks, ?_⟩
    rcases stocked "x" (compiled "x" program (.inl rfl) rfl) with ⟨found, same⟩ | met
    · simp only [Cache.find?, memory] at same
      rw [Entries.has, same] at lacks
      cases lacks
    · exact met.2
  | _ => cases lacks

end Session
end Mustache
