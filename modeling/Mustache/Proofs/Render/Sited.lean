import Mustache.Proofs.Render.Noted
import Mustache.Proofs.Render.Raised
import Mustache.Proofs.Render.Safe

/-! Where the errors of a run come from that have a place. Such an error is one that a tag has raised,
or one of a source that was fetched; on its way out it stays as it is. -/
namespace Mustache

/-- A dialogue that gives no errors with a place but its own and those that it has been told. -/
def Dialogue.PassesOn (own : Site → Prop) : Dialogue → (told : Error → Prop) → Prop
  | .done result, told => ∀ e site, result = .error e → e.site = some site → own site ∨ told e
  | .render _ next, told => (∀ text, PassesOn own (next (.ok text)) told) ∧
    ∀ e, PassesOn own (next (.error e)) fun other => other = e ∨ told other

/-- Lambdas whose errors have no place, unless it is one of their own or the error was told them. -/
structure Lambdas.Bring (own : Site → Prop) (lambdas : Lambdas) : Prop where
  interpolation : ∀ id earlier e site, lambdas.interpolation id earlier = .error e →
    e.site = some site → own site
  filter : ∀ id earlier v e site, lambdas.filter id earlier v = .error e → e.site = some site → own site
  enclosing : ∀ id earlier text, (lambdas.enclosing id earlier text).PassesOn own fun _ => False

theorem Engine.error_of_fetch {e : Engine} {origin : Origin} {source : String} {store : Store}
    {error : Error} (failed : ((e.fetch origin source).run store).1 = .error error) :
    Program.compile e.dialect (e.templateKey source) source = .error error := by
  have fresh (cached : Bool) (store : Store)
      (failed : ((e.compileNew cached (e.templateKey source) source).run store).1 = .error error) :
      Program.compile e.dialect (e.templateKey source) source = .error error := by
    rw [compileNew_eq] at failed
    cases compiled : Program.compile e.dialect (e.templateKey source) source with
    | error flaw =>
      rw [compiled] at failed
      exact failed
    | ok program =>
      rw [compiled] at failed
      cases failed
  rw [fetch_eq] at failed
  cases memo : Entries.get? (e.templateKey source) store.memo with
  | some program =>
    rw [memo] at failed
    cases failed
  | none =>
    rw [memo] at failed
    dsimp only at failed
    split at failed
    · cases cached : (store.cache.load (e.templateKey source)).1 with
      | some program =>
        rw [cached] at failed
        cases failed
      | none =>
        rw [cached] at failed
        exact fresh _ _ failed
    · exact fresh _ _ failed

theorem Engine.Fetches.built {e : Engine} {start store : Store} {made : List Fetch}
    (fetches : e.Fetches start made store) (built : start.Built) : store.Built := by
  induction fetches with
  | nil => exact built
  | calls made store calls before ih => exact ⟨ih.memo, ih.cache⟩
  | fetch made store origin source before ih =>
    exact (Engine.fetch_answers e origin source store).follows.built ih

namespace Render

/-- An error has no place, or it was raised by a tag, or a source that was fetched does not compile for it,
or a lambda has brought it along. -/
def Stems (e : Engine) (own : Site → Prop) (raises : List Raise) (notes : List Note) (error : Error) :
    Prop :=
  ∀ site, error.site = some site → own site ∨ (∃ raise ∈ raises, raise.error = error) ∨
    ∃ fetch, .fetched fetch ∈ notes ∧
      Program.compile e.dialect (e.templateKey fetch.source) fetch.source = .error error

namespace Stems

variable {e : Engine} {own : Site → Prop} {raises more : List Raise} {notes others : List Note}
  {error : Error}

theorem unplaced (cause : Cause) : Stems e own raises notes { cause } := by
  rintro site ⟨⟩

theorem before (stems : Stems e own raises notes error) :
    Stems e own (raises ++ more) (notes ++ others) error := by
  intro site there
  rcases stems site there with brought | ⟨raise, member, same⟩ | ⟨fetch, member, failed⟩
  · exact .inl brought
  · exact .inr (.inl ⟨raise, List.mem_append_left _ member, same⟩)
  · exact .inr (.inr ⟨fetch, List.mem_append_left _ member, failed⟩)

theorem after (stems : Stems e own raises notes error) :
    Stems e own (more ++ raises) (others ++ notes) error := by
  intro site there
  rcases stems site there with brought | ⟨raise, member, same⟩ | ⟨fetch, member, failed⟩
  · exact .inl brought
  · exact .inr (.inl ⟨raise, List.mem_append_right _ member, same⟩)
  · exact .inr (.inr ⟨fetch, List.mem_append_right _ member, failed⟩)

theorem noted (note : Note) (stems : Stems e own raises notes error) :
    Stems e own raises (note :: notes) error := by
  intro site there
  rcases stems site there with brought | raised | ⟨fetch, member, failed⟩
  · exact .inl brought
  · exact .inr (.inl raised)
  · exact .inr (.inr ⟨fetch, List.mem_cons_of_mem _ member, failed⟩)

end Stems

/-- A machine in which all that can be rendered is compiled. -/
structure Held (m : Machine) : Prop where
  store : m.store.Built
  resolves : ∀ name o, m.overlay.find? name = some o → Resolves Program.Built o

theorem Held.left {e : Engine} {m m' : Machine} {notes : List Note} (held : Held m)
    (left : Left e m notes m') : Held m' :=
  ⟨left.fetches.built held.store, left.overlay ▸ held.resolves⟩

theorem Held.enter {m : Machine} (held : Held m) {invocation : Invocation}
    (resolves : ∀ name o, invocation.supplies? name = some o → Resolves Program.Built o) :
    Held (m.enter invocation) := by
  refine ⟨held.store, ?_⟩
  intro name o found
  have found : (m.overlay.find? name <|> invocation.supplies? name) = some o :=
    (invocation.find?_overlay m.overlay name).symm.trans found
  cases outer : m.overlay.find? name with
  | some other =>
    rw [outer] at found
    cases found
    exact held.resolves name o outer
  | none =>
    rw [outer] at found
    exact resolves name o found

/-- What is logged of an action is raised by compiled programs, and all errors that it ends with stem from
what is logged. -/
structure Traces (e : Engine) (own : Site → Prop) {α : Type} (action : Act α)
    (raises : Machine → List Raise) (notes : Machine → List Note) : Prop where
  builds : ∀ m, Held m → ∀ raise ∈ raises m, raise.program.Built
  stems : ∀ m, Held m → ∀ error, (action.run.run m).1 = .error (.error error) →
    Stems e own (raises m) (notes m) error

theorem error_of_andFinally {α : Type} {action : Act α} {cleanup : Act Unit}
    (quiet : ∀ m e, (cleanup.run.run m).1 ≠ .error (.error e)) {m : Machine} {error : Error}
    (failed : ((andFinally action cleanup).run.run m).1 = .error (.error error)) :
    (action.run.run m).1 = .error (.error error) := by
  rw [run_andFinally] at failed
  generalize action.run.run m = ran at failed ⊢
  obtain ⟨result, m'⟩ := ran
  have quiet := quiet m'
  dsimp only at failed
  generalize cleanup.run.run m' = ended at failed quiet
  obtain ⟨stop | _, m''⟩ := ended
  · cases failed
    exact absurd rfl (quiet error)
  · exact failed

theorem popFrame_quiet (m : Machine) (e : Error) : (popFrame.run.run m).1 ≠ .error (.error e) := by
  unfold popFrame
  rw [run_bind, run_get]
  dsimp only
  cases m.frames <;> rintro ⟨⟩

theorem popOverlay_quiet (m : Machine) (e : Error) : (popOverlay.run.run m).1 ≠ .error (.error e) := by
  unfold popOverlay
  rw [run_bind, run_get]
  dsimp only
  cases m.overlay <;> rintro ⟨⟩

theorem modify_quiet (change : Machine → Machine) (m : Machine) (e : Error) :
    ((modify change : Act Unit).run.run m).1 ≠ .error (.error e) := by
  rintro ⟨⟩

theorem error_of_entering {invocation : Invocation} {action : Act String} {m : Machine} {error : Error}
    (failed : ((Plan.entering invocation action).run.run m).1 = .error (.error error)) :
    (action.run.run { m with overlay := invocation.overlay m.overlay }).1 = .error (.error error) := by
  cases invocation with
  | parent program name given => exact error_of_andFinally popOverlay_quiet failed
  | _ => exact failed

/-- A place whose bodies and nested programs end with errors that stem from what is logged of them. -/
structure Stage.Tells (own : Site → Prop) (s : Stage) (r : Raisers) (n : Noters)
    (bodies : Section → Prop) : Prop where
  built : s.program.Built
  accountsBody : ∀ sec, Accounts s.env.engine (s.body sec) (n.body sec)
  accountsNested : ∀ program instrs indent,
    Accounts s.env.engine (s.nested program instrs indent) (n.nested program instrs indent)
  body : ∀ standing sec, bodies sec →
    Traces s.env.engine own (s.body sec) (r.body standing sec) (n.body sec)
  nested : ∀ origins trail program instrs indent, Runnable Program.Built program instrs →
    Traces s.env.engine own (s.nested program instrs indent) (r.nested origins trail program instrs indent)
      (n.nested program instrs indent)

/-- What may be run where errors are traced. -/
def tracedGrant (bodies : Section → Prop) : Grant := ⟨Program.Built, bodies, True, fun _ => True⟩

/-- In a call, only the calls of lambdas by themselves are known to end with errors that stem from what is
logged of them. -/
def Plan.Traced (own : Site → Prop) (s : Stage) (r : Raisers) (n : Noters) (standing : Standing) :
    {α : Type} → Plan α → Bool → Prop
  | _, .bind first next, calling =>
    Traced own s r n standing first calling ∧ ∀ a, Traced own s r n standing (next a) calling
  | _, .stop cause, calling => calling = true →
    ∀ e site, cause = .error e → e.site = some site → own site
  | _, .located _ inner, _ =>
    Traces s.env.engine own (inner.act s) (inner.raises s r standing true) (inner.notes s n)
  | _, .observed inner, calling => Traced own s r n standing inner calling
  | _, .keepingLineStart inner, calling => Traced own s r n standing inner calling
  | _, .aside inner, calling => Traced own s r n standing inner calling
  | _, .pure _, _ | _, .reach _, _ | _, .find _, _ | _, .given _, _ | _, .put _ _, _ | _, .record _, _
  | _, .fetch _ _, _ | _, .within _ _, _ | _, .invoke _ _ _ _, _ | _, .answer _, _ => True

section

variable {own : Site → Prop} {s : Stage} {r : Raisers} {n : Noters} {bodies : Section → Prop}

/-- What stops a plan outside a call is raised there. -/
theorem stems_of_raised (program : Program) (e : Engine) (standing : Standing) (notes : List Note)
    (error : Error) :
    Stems e own ((Stop.error error).raised program standing) notes error := by
  intro site there
  obtain ⟨cause, place⟩ := error
  cases there
  exact .inr (.inl ⟨_, List.mem_singleton_self _, rfl⟩)

theorem built_of_raised {program : Program} (built : program.Built) (standing : Standing) (cause : Stop) :
    ∀ raise ∈ cause.raised program standing, raise.program.Built := by
  intro raise member
  obtain ⟨cause, _ | site⟩ | fault := cause
  · cases member
  · cases List.mem_singleton.1 member
    exact built
  · cases member

theorem built_of_call {α : Type} {program : Program} (built : program.Built) (standing : Standing) (span : Span)
    (result : Except Stop α) : ∀ raise ∈ raisedByCall program standing span result, raise.program.Built := by
  intro raise member
  rcases result with (⟨cause, _ | site⟩ | fault) | a
  · cases List.mem_singleton.1 member
    exact built
  · cases member
  · cases member
  · cases member

/-- An error of a call keeps its place, or else gets that of the tag that calls. -/
theorem Traces.located {e : Engine} {α : Type} {action : Act α} {program : Program}
    (built : program.Built) (standing : Standing) (span : Span) {raises : Machine → List Raise}
    {notes : Machine → List Note} (traces : Traces e own action raises notes) :
    Traces e own (Render.located program.source span action)
      (fun m => raises m ++ raisedByCall program standing span (action.run.run m).1) notes := by
  refine ⟨?_, ?_⟩
  · intro m held raise member
    rcases List.mem_append.1 member with inner | own
    · exact traces.builds m held raise inner
    · exact built_of_call built standing span _ raise own
  intro m held error failed
  rw [run_located] at failed
  have stems := traces.stems m held
  show Stems e own (raises m ++ raisedByCall program standing span (action.run.run m).1) (notes m) error
  generalize action.run.run m = ran at failed stems ⊢
  obtain ⟨(⟨cause, place⟩ | fault) | a, m'⟩ := ran
  · cases place with
    | some site =>
      cases failed
      have kept : Stems e own (raises m ++ []) (notes m ++ []) ⟨cause, some site⟩ := (stems _ rfl).before
      rwa [List.append_nil (notes m)] at kept
    | none =>
      cases failed
      intro site there
      exact .inr (.inl ⟨_, List.mem_append_right _ (List.mem_singleton_self _), rfl⟩)
  · cases failed
  · cases failed

/-- A plan gives what it safely gives. -/
theorem Plan.Safe.gives (tells : s.Tells own r n bodies) {α : Type} {plan : Plan α} {post : α → Prop}
    (safe : plan.Safe (tracedGrant bodies) post) {m : Machine} (held : Held m) {a : α}
    (ok : ((plan.act s).run.run m).1 = .ok a) : post a := by
  have accounts {β : Type} (plan : Plan β) := Accounts.plan tells.accountsBody tells.accountsNested plan
  induction plan generalizing m with
  | pure b =>
    cases ok
    exact safe
  | bind first next ih ih' =>
    obtain ⟨b, first', later⟩ := ok_of_bind ok
    exact ih' b (ih safe held first') (held.left (accounts first m)) later
  | stop cause => cases ok
  | reach instrs => exact safe.2
  | find ref => exact safe a
  | given name =>
    cases ok
    exact safe _ (held.resolves name)
  | put text ends => exact safe a
  | record call => exact safe a
  | fetch origin source =>
    have ran : ((fetch origin source).act s).run.run m = _ := run_fetch s.env.engine origin source m
    rw [ran] at ok
    have answers := Engine.fetch_answers s.env.engine origin source m.store
    cases fetched : ((s.env.engine.fetch origin source).run m.store).1 with
    | error flaw =>
      rw [fetched] at ok
      cases ok
    | ok found =>
      rw [fetched] at ok
      cases ok
      obtain ⟨key, stored⟩ := answers.held a fetched
      exact safe a ((answers.follows.built held.store).memo key a stored)
  | located span inner ih =>
    have ran : ((located span inner).act s).run.run m = _ := run_located m s.program.source span _
    rw [ran] at ok
    have gives := fun {b} => ih safe held (a := b)
    generalize (inner.act s).run.run m = inside at ok gives
    obtain ⟨(e | fault) | b, m'⟩ := inside
    · cases ok
    · cases ok
    · cases ok
      exact gives rfl
  | observed inner ih =>
    have ran : ((observed inner).act s).run.run m = _ := run_observed m _
    rw [ran] at ok
    have gives := fun {b} => ih safe.1 held (a := b)
    generalize (inner.act s).run.run m = inside at ok gives
    obtain ⟨(e | fault) | b, m'⟩ := inside
    · cases ok
      exact safe.2 e
    · cases ok
    · cases ok
      exact gives rfl
  | keepingLineStart inner ih =>
    let cleanup : Act Unit := modify fun ended => { ended with lineStart := m.lineStart }
    exact ih safe held (ok_of_andFinally cleanup ok)
  | aside inner ih =>
    let cleanup : Act Unit := modify fun ended => { m with store := ended.store }
    exact ih safe held (ok_of_andFinally cleanup ok)
  | within frame sec => exact safe.2 a
  | invoke invocation program instrs indent => exact safe.2.2 a
  | answer program => exact safe.2.2 a

/-- All that a plan raises, compiled programs raise. -/
theorem Plan.Safe.builds (tells : s.Tells own r n bodies) (standing : Standing) {α : Type} {plan : Plan α}
    {post : α → Prop} (safe : plan.Safe (tracedGrant bodies) post) (calling : Bool) {m : Machine}
    (held : Held m) : ∀ raise ∈ plan.raises s r standing calling m, raise.program.Built := by
  induction plan generalizing calling m with
  | bind first next ih ih' =>
    have safe : first.Safe (tracedGrant bodies) fun a => (next a).Safe (tracedGrant bodies) post := safe
    intro raise member
    rcases List.mem_append.1 member with before | after
    · exact ih safe calling held raise before
    · obtain ⟨a, m', ran, later⟩ := mem_onward after
      have left := Accounts.plan tells.accountsBody tells.accountsNested first m
      have gives := safe.gives tells held (congrArg Prod.fst ran)
      rw [ran] at left
      exact ih' a gives calling (held.left left) raise later
  | stop cause =>
    cases calling with
    | false => exact built_of_raised tells.built standing cause
    | true => rintro raise ⟨⟩
  | located span inner ih =>
    intro raise member
    rcases List.mem_append.1 member with within | own
    · exact ih safe true held raise within
    · exact built_of_call tells.built standing span _ raise own
  | observed inner ih => exact ih safe.1 calling held
  | keepingLineStart inner ih => exact ih safe calling held
  | aside inner ih => exact ih safe calling held
  | within frame sec => exact (tells.body standing sec safe.1).builds _ ⟨held.store, held.resolves⟩
  | invoke invocation program instrs indent =>
    unfold raises
    split
    · rintro raise ⟨⟩
    · exact (tells.nested _ _ program instrs indent safe.1).builds _ (held.enter safe.2.1)
  | answer program =>
    exact (tells.nested _ .whole program program.instrs "" ⟨safe.2.1, .main⟩).builds _
      ⟨held.store, held.resolves⟩
  | _ => rintro raise ⟨⟩

/-- A plan that can be traced ends with errors that stem from what is logged of it. -/
theorem Plan.Traced.stems (tells : s.Tells own r n bodies) {standing : Standing} {α : Type} {plan : Plan α}
    {calling : Bool} (traced : plan.Traced own s r n standing calling) {post : α → Prop}
    (safe : plan.Safe (tracedGrant bodies) post)
    {m : Machine} (held : Held m) {error : Error}
    (failed : ((plan.act s).run.run m).1 = .error (.error error)) :
    Stems s.env.engine own (plan.raises s r standing calling m) (plan.notes s n m) error := by
  have accounts {β : Type} (plan : Plan β) := Accounts.plan tells.accountsBody tells.accountsNested plan
  induction plan generalizing calling m with
  | bind first next ih ih' =>
    have failed : ((first.act s >>= fun a => (next a).act s).run.run m).1 = .error (.error error) :=
      failed
    rw [run_bind] at failed
    have safe : first.Safe (tracedGrant bodies) fun a => (next a).Safe (tracedGrant bodies) post := safe
    have stems := fun failed => ih traced.1 safe held failed
    have gives := fun {a} => safe.gives tells held (a := a)
    have held := held.left (accounts first m)
    show Stems _ _ (first.raises s r standing calling m ++ onward _ ((first.act s).run.run m))
      (first.notes s n m ++ afterwards _ ((first.act s).run.run m)) error
    generalize (first.act s).run.run m = ran at failed stems gives held ⊢
    obtain ⟨stop | a, m'⟩ := ran
    · cases failed
      exact (stems rfl).before
    · exact (ih' a (traced.2 a) (gives rfl) held failed).after
  | stop cause =>
    cases failed
    cases calling with
    | false => exact stems_of_raised _ _ _ _ _
    | true => exact fun site there => .inl (traced rfl error site rfl there)
  | fetch origin source =>
    intro site there
    have ran : ((fetch origin source).act s).run.run m = _ := run_fetch s.env.engine origin source m
    rw [ran] at failed
    refine .inr (.inr ⟨_, List.mem_singleton_self _, ?_⟩)
    cases fetched : ((s.env.engine.fetch origin source).run m.store).1 with
    | ok program =>
      rw [fetched] at failed
      cases failed
    | error flaw =>
      rw [fetched] at failed
      cases failed
      exact Engine.error_of_fetch fetched
  | located span inner ih => exact (traced.located tells.built standing span).stems m held error failed
  | observed inner ih =>
    have ran : ((observed inner).act s).run.run m = _ := run_observed m _
    rw [ran] at failed
    generalize (inner.act s).run.run m = inside at failed
    obtain ⟨(e | fault) | a, m'⟩ := inside <;> cases failed
  | keepingLineStart inner ih =>
    let restore (ended : Machine) : Machine := { ended with lineStart := m.lineStart }
    exact ih traced safe held (error_of_andFinally (modify_quiet restore) failed)
  | aside inner ih =>
    let restore (ended : Machine) : Machine := { m with store := ended.store }
    exact ih traced safe held (error_of_andFinally (modify_quiet restore) failed)
  | within frame sec =>
    have framed : Held { m with frames := frame :: m.frames } := ⟨held.store, held.resolves⟩
    exact (tells.body standing sec safe.1).stems _ framed error (error_of_andFinally popFrame_quiet failed)
  | invoke invocation program instrs indent =>
    have failed : ((deeper s.env.engine.maxDepth (entering invocation
      (s.nested program instrs indent))).run.run m).1 = .error (.error error) := failed
    rw [run_deeper] at failed
    unfold raises notes
    by_cases full : s.env.engine.maxDepth ≤ m.depth
    · rw [if_pos full] at failed
      cases failed
      exact .unplaced _
    · rw [if_neg full] at failed
      rw [if_neg full, if_neg full]
      exact (tells.nested _ _ program instrs indent safe.1).stems _ (held.enter safe.2.1) error
        (error_of_entering failed)
  | answer program =>
    have started : Held { m with lineStart := true } := ⟨held.store, held.resolves⟩
    exact (tells.nested _ .whole program program.instrs "" ⟨safe.2.1, .main⟩).stems _ started error failed
  | _ => cases failed

theorem Plan.Traced.traces (tells : s.Tells own r n bodies) {standing : Standing} {α : Type} {plan : Plan α}
    {calling : Bool} (traced : plan.Traced own s r n standing calling) {post : α → Prop}
    (safe : plan.Safe (tracedGrant bodies) post) :
    Traces s.env.engine own (plan.act s) (plan.raises s r standing calling) (plan.notes s n) :=
  ⟨fun _ held => safe.builds tells standing calling held, fun _ held _ failed => traced.stems tells safe held failed⟩

/-! ### Calls -/

namespace Plan

variable {standing : Standing} {calling : Bool}

theorem traced_ofExcept {α : Type} {result : Except Error α}
    (bring : ∀ e site, result = .error e → e.site = some site → own site) :
    (ofExcept result).Traced own s r n standing calling := by
  cases result with
  | ok a => trivial
  | error e =>
    rintro - e' site same there
    cases same
    exact bring e site rfl there

theorem traced_raise {α : Type} (cause : Cause) : (raise cause : Plan α).Traced own s r n standing calling := by
  rintro - e site same there
  cases same
  cases there

theorem traced_callInterpolation {lambdas : Lambdas} (bring : lambdas.Bring own) (handle : Lambda) :
    (callInterpolation lambdas handle).Traced own s r n standing calling := by
  unfold callInterpolation
  cases handle.shape with
  | interpolation => exact ⟨trivial, fun earlier => traced_ofExcept (bring.interpolation _ _)⟩
  | enclosing => exact traced_raise _
  | filter => exact traced_raise _

theorem traced_callFilter {lambdas : Lambdas} (bring : lambdas.Bring own) (handle : Lambda) (v : Value) :
    (callFilter lambdas handle v).Traced own s r n standing calling := by
  unfold callFilter
  cases handle.shape with
  | interpolation => exact traced_callInterpolation bring handle
  | enclosing => exact traced_raise _
  | filter => exact ⟨trivial, fun earlier => traced_ofExcept (bring.filter _ _ _)⟩

/-- A dialogue ends with an error that it has been told, or with one that stems from what is logged of
it. -/
theorem traces_converse (tells : s.Tells own r n bodies) {render : String → Plan String}
    (texts : ∀ text, (render text).Traced own s r n standing true)
    (harmless : ∀ text, (render text).Harmless (tracedGrant bodies)) {dialogue : Dialogue}
    {told : Error → Prop} (passes : dialogue.PassesOn own told) {m : Machine} (held : Held m)
    {error : Error} (failed : (((converse render dialogue).act s).run.run m).1 = .error (.error error)) :
    told error ∨ Stems s.env.engine own ((converse render dialogue).raises s r standing true m)
      ((converse render dialogue).notes s n m) error := by
  induction dialogue generalizing told m with
  | done result =>
    cases result with
    | ok v => cases failed
    | error e =>
      cases failed
      by_cases known : told error
      · exact .inl known
      · exact .inr fun site there => .inl ((passes error site rfl there).resolve_right known)
  | render text next ih =>
    have failed : ((Render.observed ((render text).act s) >>= fun answer =>
      (converse render (next answer)).act s).run.run m).1 = .error (.error error) := failed
    rw [run_bind, run_observed] at failed
    have stems := ((texts text).traces tells (harmless text)).stems m held
    have held := held.left (Accounts.plan tells.accountsBody tells.accountsNested (render text) m)
    have observed : ((observed (render text)).act s).run.run m = _ := run_observed m ((render text).act s)
    show _ ∨ Stems _ _ ((render text).raises s r standing true m ++
        onward _ (((Plan.observed (render text)).act s).run.run m))
      ((render text).notes s n m ++ afterwards _ (((Plan.observed (render text)).act s).run.run m)) error
    rw [observed]
    generalize ((render text).act s).run.run m = ran at failed stems held ⊢
    obtain ⟨(e | fault) | text', m'⟩ := ran
    · rcases ih (.error e) (passes.2 e) held failed with (rfl | known) | later
      · exact .inr (stems error rfl).before
      · exact .inl known
      · exact .inr later.after
    · cases failed
    · exact (ih (.ok text') (passes.1 text') held failed).imp_right Stems.after

theorem traces_callEnclosing (tells : s.Tells own r n bodies) {lambdas : Lambdas}
    (bring : lambdas.Bring own) {render : String → Plan String}
    (texts : ∀ text, (render text).Traced own s r n standing true)
    (harmless : ∀ text, (render text).Harmless (tracedGrant bodies)) (handle : Lambda) (text : String) :
    Traces s.env.engine own ((callEnclosing lambdas render handle text).act s)
      ((callEnclosing lambdas render handle text).raises s r standing true)
      ((callEnclosing lambdas render handle text).notes s n) := by
  have safe : (callEnclosing lambdas render handle text).Harmless (tracedGrant bodies) :=
    harmless_callEnclosing (fun _ => harmless) (.inl trivial) handle text
  refine ⟨fun m held => safe.builds tells standing true held, ?_⟩
  unfold callEnclosing
  cases handle.shape with
  | interpolation =>
    exact ((traced_callInterpolation bring handle).traces tells (harmless_callInterpolation lambdas handle)).stems
  | filter =>
    exact ((traced_callFilter bring handle _).traces tells (harmless_callFilter lambdas handle _)).stems
  | enclosing =>
    intro m held error failed
    have held := held.left (Accounts.plan tells.accountsBody tells.accountsNested
      (record (.enclosing handle.id text)) m)
    have passes := bring.enclosing handle.id (m.store.callCount handle.id) text
    exact (traces_converse tells texts harmless passes held failed).resolve_left id

theorem traced_forFrames {sec : Section} (frames : List Value) :
    (forFrames sec frames).Traced own s r n standing calling := by
  induction frames with
  | nil => trivial
  | cons frame rest ih => exact ⟨trivial, fun _ => ⟨ih, fun _ => trivial⟩⟩

end Plan

namespace Place

variable {standing : Standing}

theorem traced_textOf (p : Place) (span : Span) (v : Value) :
    (p.textOf span v).Traced own s r n standing false := by
  unfold textOf
  cases v.text? with
  | ok text => trivial
  | error cause => exact fun calling => Bool.noConfusion calling

theorem traced_resolve (tells : s.Tells own r n bodies) (bring : s.env.lambdas.Bring own) (span : Span)
    (v : Value) : (s.place.resolve span v).Traced own s r n standing false := by
  unfold resolve
  cases v.callable? s.place.program.strictCallables with
  | none => trivial
  | some handle =>
    refine ⟨?_, fun result => ⟨traced_textOf _ _ _, fun text => ?_⟩⟩
    · exact (Plan.traced_callInterpolation bring handle).traces tells
        (Plan.harmless_callInterpolation s.env.lambdas handle)
    · exact ⟨trivial, fun program => ⟨trivial, fun _ => trivial⟩⟩

theorem traced_apply (tells : s.Tells own r n bodies) (bring : s.env.lambdas.Bring own) (ref : Ref)
    (v : Value) : (s.place.apply ref v).Traced own s r n standing false := by
  refine ⟨trivial, fun found => ?_⟩
  dsimp only
  cases found.callable? s.place.program.strictCallables with
  | none => exact fun calling => Bool.noConfusion calling
  | some handle =>
    exact (Plan.traced_callFilter bring handle v).traces tells
      (Plan.harmless_callFilter s.env.lambdas handle v)

theorem traced_enclose (tells : s.Tells own r n bodies) (bring : s.env.lambdas.Bring own) (sec : Section)
    (handle : Lambda) : (s.place.enclose sec handle).Traced own s r n standing false := by
  have texts (text : String) : (renderFor sec text).Traced own s r n standing true :=
    ⟨trivial, fun _ => trivial⟩
  have harmless (text : String) : (renderFor sec text).Harmless (tracedGrant bodies) :=
    harmless_renderFor sec trivial text
  refine ⟨Plan.traces_callEnclosing tells bring texts harmless handle sec.text, fun result => ?_⟩
  refine ⟨traced_textOf _ _ _, fun text => ?_⟩
  dsimp only
  split
  · exact ⟨trivial, fun _ => trivial⟩
  · split <;> trivial

theorem traced_repeated (tells : s.Tells own r n bodies) (bring : s.env.lambdas.Bring own) (key : Key)
    (v : Value) : (s.place.repeated key v).Traced own s r n standing false := by
  unfold «repeated»
  cases Entries.get? key s.place.program.sections with
  | none => exact fun calling => Bool.noConfusion calling
  | some sec =>
    dsimp only
    cases v.callable? s.place.program.strictCallables with
    | some handle => exact traced_enclose tells bring sec handle
    | none =>
      dsimp only
      split
      · trivial
      · exact Plan.traced_forFrames v.frames

theorem traced_fetchPartial (p : Place) (name : String) :
    (p.fetchPartial name).Traced own s r n standing false := by
  unfold fetchPartial
  cases p.env.engine.partials.bind (·.load p.env.shelves name) with
  | none => trivial
  | some source => exact ⟨trivial, fun _ => trivial⟩

theorem traced_slot (name : String) : (slot name).Traced own s r n standing false := by
  refine ⟨trivial, fun found => ?_⟩
  cases found with
  | none => trivial
  | some o =>
    dsimp only
    cases Entries.get? o.key o.program.blocks with
    | none => exact fun calling => Bool.noConfusion calling
    | some instrs => exact ⟨trivial, fun _ => trivial⟩

theorem traced_step (tells : s.Tells own r n bodies) (bring : s.env.lambdas.Bring own) (instr : Instr)
    (expression : Option Value) : (s.place.step instr expression).Traced own s r n standing false := by
  have fault {fault : Fault} : (Plan.stop (.fault fault) : Plan Outcome).Traced own s r n standing false :=
    fun calling => Bool.noConfusion calling
  cases instr with
  | text text => exact ⟨trivial, fun _ => trivial⟩
  | lookup ref =>
    cases expression with
    | none => exact ⟨trivial, fun _ => trivial⟩
    | some v => exact fault
  | resolve span =>
    cases expression with
    | none => exact fault
    | some v => exact ⟨traced_resolve tells bring span v, fun _ => trivial⟩
  | apply ref =>
    cases expression with
    | none => exact fault
    | some v => exact ⟨traced_apply tells bring ref v, fun _ => trivial⟩
  | emit isEscaped span =>
    cases expression with
    | none => exact fault
    | some v => exact ⟨traced_textOf _ span v, fun _ => ⟨trivial, fun _ => trivial⟩⟩
  | «repeated» key =>
    cases expression with
    | none => exact fault
    | some v => exact ⟨traced_repeated tells bring key v, fun _ => trivial⟩
  | unlessEmpty skip =>
    cases expression with
    | none => exact fault
    | some v => trivial
  | partialCall name indent =>
    refine ⟨⟨traced_fetchPartial _ name, fun found => ?_⟩, fun _ => trivial⟩
    cases found <;> trivial
  | parentCall name indent given =>
    refine ⟨⟨traced_fetchPartial _ name, fun found => ?_⟩, fun _ => trivial⟩
    cases found <;> trivial
  | slot name skip =>
    refine ⟨traced_slot name, fun found => ?_⟩
    cases found <;> trivial
  | strayArgument name => exact fault

end Place

/-! ### Runs -/

theorem Stage.builds_raises (tells : s.Tells own r n bodies) (trail : Trail) (spot : Spot) {instrs : List Instr}
    (allows : s.place.Allows (tracedGrant bodies) instrs) {skip : Nat} {expression : Option Value}
    (ready : Ready (.of s.program.sections s.program.blocks) instrs skip expression.isSome) {m : Machine}
    (held : Held m) : ∀ raise ∈ s.raises r trail instrs spot skip expression m, raise.program.Built := by
  induction instrs generalizing spot skip expression m with
  | nil => rintro raise ⟨⟩
  | cons instr rest ih =>
    cases skip with
    | succ skip => exact ih (spot.next none) allows.tail ready held
    | zero =>
      have safe := Place.safe_step allows ready.1
      intro raise member
      rcases List.mem_append.1 member with first | after
      · exact safe.builds tells ⟨trail, spot⟩ false held raise first
      · obtain ⟨outcome, m', ran, later⟩ := mem_onward after
        have left := Accounts.plan tells.accountsBody tells.accountsNested (s.place.step instr expression) m
        have gives := fun {a} => safe.gives tells held (a := a)
        rw [Place.act_step, ran] at left gives
        exact ih (spot.next (instr.entered? outcome.skip)) allows.tail (ready.2 _ (gives rfl))
          (held.left left) raise later

theorem Stage.stems_steps (tells : s.Tells own r n bodies) (bring : s.env.lambdas.Bring own)
    (trail : Trail) (spot : Spot) {instrs : List Instr} (allows : s.place.Allows (tracedGrant bodies) instrs)
    {skip : Nat} {expression : Option Value}
    (ready : Ready (.of s.program.sections s.program.blocks) instrs skip expression.isSome) {m : Machine}
    (held : Held m) {error : Error}
    (failed : ((s.steps instrs skip expression).run.run m).1 = .error (.error error)) :
    Stems s.env.engine own (s.raises r trail instrs spot skip expression m)
      (s.notes n instrs skip expression m) error := by
  induction instrs generalizing spot skip expression m with
  | nil =>
    cases skip with
    | zero => cases expression <;> cases failed
    | succ skip => cases failed
  | cons instr rest ih =>
    cases skip with
    | succ skip => exact ih (spot.next none) allows.tail ready held failed
    | zero =>
      have safe := Place.safe_step allows ready.1
      have traced : (s.place.step instr expression).Traced own s r n ⟨trail, spot⟩ false :=
        Place.traced_step tells bring instr expression
      have stems := (traced.traces tells safe).stems m held
      have gives := fun {a} => safe.gives tells held (a := a)
      have left := Accounts.plan tells.accountsBody tells.accountsNested (s.place.step instr expression) m
      rw [Place.act_step] at stems gives left
      have failed : ((s.step instr expression >>= fun outcome =>
        s.steps rest outcome.skip outcome.expression >>= fun more =>
          pure (outcome.text ++ more)).run.run m).1 = .error (.error error) := failed
      rw [run_bind] at failed
      refine .noted _ ?_
      have held := held.left left
      show Stems _ _ ((s.place.step instr expression).raises s r ⟨trail, spot⟩ false m ++
          onward _ ((s.step instr expression).run.run m))
        ((s.place.step instr expression).notes s n m ++ afterwards _ ((s.step instr expression).run.run m)) error
      generalize (s.step instr expression).run.run m = ran at failed stems gives held ⊢
      obtain ⟨stop | outcome, m'⟩ := ran
      · cases failed
        exact (stems error rfl).before
      · have later := ih (spot.next (instr.entered? outcome.skip)) allows.tail (ready.2 _ (gives rfl)) held
        dsimp only at failed
        rw [run_bind] at failed
        generalize (s.steps rest outcome.skip outcome.expression).run.run m' = ran' at failed later
        obtain ⟨stop | more, m''⟩ := ran'
        · cases failed
          exact (later rfl).after
        · cases failed

end

theorem traces_runBody {env : Env} {own : Site → Prop} (bring : env.lambdas.Bring own) {runner : Runner}
    {raised : Origins → Trail → Program → List Instr → String → Machine → List Raise}
    {noted : Program → List Instr → String → Machine → List Note}
    (accounts : ∀ program instrs indent,
      Accounts env.engine (runner program instrs indent) (noted program instrs indent))
    (traces : ∀ origins trail program instrs indent, Runnable Program.Built program instrs →
      Traces env.engine own (runner program instrs indent) (raised origins trail program instrs indent)
        (noted program instrs indent))
    (origins : Origins) {program : Program} (built : program.Built) (indent : String) (budget : Nat) (trail : Trail)
    {instrs : List Instr} (owns : program.Owns instrs) :
    Traces env.engine own (runBody env runner program indent budget instrs)
      (raisesOfBody env runner raised origins program indent budget trail instrs)
      (notesOfBody env runner noted program indent budget instrs) := by
  induction budget generalizing trail instrs with
  | zero => exact ⟨by rintro m held raise ⟨⟩, by rintro m held error ⟨⟩⟩
  | succ budget ih =>
    let body (sec : Section) := runBody env runner program indent budget sec.instrs
    let s : Stage := ⟨env, program, indent, body, runner⟩
    let r : Raisers := ⟨origins, fun standing sec => raisesOfBody env runner raised origins program indent
      budget (.body standing.trail standing.spot) sec.instrs, raised⟩
    let n : Noters := ⟨fun sec => notesOfBody env runner noted program indent budget sec.instrs, noted⟩
    have tells : s.Tells own r n fun sec => program.Owns sec.instrs :=
      ⟨built, fun sec => accounts_runBody accounts program indent budget sec.instrs, accounts,
        fun standing sec => ih _, traces⟩
    have allows : s.place.Allows (tracedGrant fun sec => program.Owns sec.instrs) instrs :=
      ⟨built, .inl trivial, fun key _ sec found => .body key sec found, fun _ _ _ => trivial⟩
    have ready := built.wellFormed.ready owns
    exact ⟨fun m held => Stage.builds_raises tells trail .start allows ready held,
      fun m held error => Stage.stems_steps tells bring trail .start allows ready held⟩

theorem traces_run {env : Env} {own : Site → Prop} (bring : env.lambdas.Bring own) (levels : Nat)
    (origins : Origins) (trail : Trail) (program : Program) (instrs : List Instr) (indent : String)
    (runnable : Runnable Program.Built program instrs) :
    Traces env.engine own (run env levels program instrs indent)
      (raisesOfRun env levels origins trail program instrs indent)
      (notesOfRun env levels program instrs indent) := by
  induction levels generalizing origins trail program instrs indent with
  | zero => exact ⟨by rintro m held raise ⟨⟩, by rintro m held error ⟨⟩⟩
  | succ levels ih =>
    exact traces_runBody bring (accounts_run env levels) ih origins runnable.granted indent _ trail runnable.owns

theorem held_initial (env : Env) (context : Value) {store : Store} (stored : store.Built) :
    Held (initial env context store) := by
  refine ⟨stored, ?_⟩
  rintro name o ⟨⟩

section

variable {env : Env} {own : Site → Prop} (bring : env.lambdas.Bring own) {program : Program}
  (built : program.Built) (context : Value) {store : Store} (stored : store.Built)

include bring built stored

theorem built_of_raisesOfRender : ∀ raise ∈ raisesOfRender env program context store, raise.program.Built :=
  (traces_run bring _ _ .whole program program.instrs "" ⟨built, .main⟩).builds _ (held_initial env context stored)

/-- All errors with a place that a render ends with stem from what is logged of it. -/
theorem stems_of_render {error : Error} (failed : (render env program context store).1 = .error (.error error)) :
    Stems env.engine own (raisesOfRender env program context store) (notesOfRender env program context store)
      error :=
  (traces_run bring _ _ .whole program program.instrs "" ⟨built, .main⟩).stems _ (held_initial env context stored)
    error failed

end

end Render
end Mustache
