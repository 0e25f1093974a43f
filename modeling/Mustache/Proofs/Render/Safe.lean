import Mustache.Proofs.Program.Ready
import Mustache.Proofs.Render.Balanced

/-! Plans that never stop with a fault, told by what each of their effects may give. A list of
instructions that can be run makes such a plan. -/
namespace Mustache.Render

structure Resolves (programs : Program → Prop) (o : Override) : Prop where
  granted : programs o.program
  found : Entries.has o.key o.program.blocks = true

structure Runnable (programs : Program → Prop) (program : Program) (instrs : List Instr) : Prop where
  granted : programs program
  owns : program.Owns instrs

/-- What may be run where a plan is carried out. -/
structure Grant where
  /-- Programs that are rendered, or loaded meanwhile. -/
  programs : Program → Prop
  /-- Sections whose bodies may be rendered. -/
  bodies : Section → Prop
  /-- Whether texts may be rendered for lambdas. -/
  answers : Prop
  /-- Instructions that may be reached. -/
  reaches : List Instr → Prop

namespace Plan

/-- What must hold for a plan to keep to what is granted, to stop with no fault, and to give
something with a property. -/
def Safe (grant : Grant) : {α : Type} → Plan α → (α → Prop) → Prop
  | _, .pure a, post => post a
  | _, .bind first next, post => Safe grant first fun a => Safe grant (next a) post
  | _, .stop cause, _ => ∃ e, cause = .error e
  | _, .reach instrs, post => grant.reaches instrs ∧ post ()
  | _, .find _, post => ∀ v, post v
  | _, .given _, post => ∀ found : Option Override, (∀ o, found = some o → Resolves grant.programs o) → post found
  | _, .put _ _, post => ∀ text, post text
  | _, .record _, post => ∀ earlier, post earlier
  | _, .fetch _ _, post => ∀ program, grant.programs program → post program
  | _, .located _ inner, post => Safe grant inner post
  | _, .observed inner, post => Safe grant inner (fun a => post (.ok a)) ∧ ∀ e, post (.error e)
  | _, .keepingLineStart inner, post => Safe grant inner post
  | _, .aside inner, post => Safe grant inner post
  | _, .within _ sec, post => grant.bodies sec ∧ ∀ text, post text
  | _, .invoke invocation program instrs _, post =>
    Runnable grant.programs program instrs ∧ (∀ name o, invocation.supplies? name = some o → Resolves grant.programs o) ∧
      ∀ text, post text
  | _, .answer program, post => grant.answers ∧ grant.programs program ∧ ∀ text, post text

variable {grant : Grant} {α β : Type}

theorem Safe.mono {plan : Plan α} {post post' : α → Prop} (safe : plan.Safe grant post)
    (weaker : ∀ a, post a → post' a) : plan.Safe grant post' := by
  induction plan with
  | pure a => exact weaker a safe
  | bind first next ih ih' => exact ih safe fun a later => ih' a later weaker
  | stop cause => exact safe
  | reach instrs => exact ⟨safe.1, weaker () safe.2⟩
  | find ref => exact fun v => weaker v (safe v)
  | given name => exact fun found resolves => weaker found (safe found resolves)
  | put text ends => exact fun text => weaker text (safe text)
  | record call => exact fun earlier => weaker earlier (safe earlier)
  | fetch origin source => exact fun program there => weaker program (safe program there)
  | located span inner ih => exact ih safe weaker
  | observed inner ih => exact ⟨ih safe.1 fun a => weaker (.ok a), fun e => weaker (.error e) (safe.2 e)⟩
  | keepingLineStart inner ih => exact ih safe weaker
  | aside inner ih => exact ih safe weaker
  | within frame sec => exact ⟨safe.1, fun text => weaker text (safe.2 text)⟩
  | invoke invocation program instrs indent =>
    exact ⟨safe.1, safe.2.1, fun text => weaker text (safe.2.2 text)⟩
  | answer program => exact ⟨safe.1, safe.2.1, fun text => weaker text (safe.2.2 text)⟩

theorem Safe.bind {first : Plan α} {next : α → Plan β} {post : α → Prop} {post' : β → Prop}
    (before : first.Safe grant post) (after : ∀ a, post a → (next a).Safe grant post') :
    (first >>= next).Safe grant post' :=
  before.mono after

/-- Plans that may give anything. -/
def Harmless (grant : Grant) (plan : Plan α) : Prop := plan.Safe grant fun _ => True

theorem Harmless.bind {first : Plan α} {next : α → Plan β} {post : β → Prop}
    (before : first.Harmless grant) (after : ∀ a, (next a).Safe grant post) :
    (first >>= next).Safe grant post :=
  Safe.bind before fun a _ => after a

theorem harmless_ofExcept (result : Except Error α) : (ofExcept result).Harmless grant := by
  cases result with
  | ok a => trivial
  | error e => exact ⟨e, rfl⟩

theorem harmless_callInterpolation (lambdas : Lambdas) (handle : Lambda) :
    (callInterpolation lambdas handle).Harmless grant := by
  unfold callInterpolation
  cases handle.shape with
  | interpolation => exact fun earlier => harmless_ofExcept _
  | enclosing => exact ⟨_, rfl⟩
  | filter => exact ⟨_, rfl⟩

theorem harmless_callFilter (lambdas : Lambdas) (handle : Lambda) (v : Value) :
    (callFilter lambdas handle v).Harmless grant := by
  unfold callFilter
  cases handle.shape with
  | interpolation => exact harmless_callInterpolation lambdas handle
  | enclosing => exact ⟨_, rfl⟩
  | filter => exact fun earlier => harmless_ofExcept _

theorem safe_fetchLambda (changeTag : Option String) (text : String) :
    (fetchLambda changeTag text).Safe grant grant.programs :=
  fun _ there => there

/-- A dialogue may go on only if texts may be rendered for it. -/
theorem harmless_converse {render : String → Plan String}
    (renders : grant.answers → ∀ text, (render text).Harmless grant) {dialogue : Dialogue}
    (quiet : grant.answers ∨ ∃ result, dialogue = .done result) :
    (converse render dialogue).Harmless grant := by
  induction dialogue with
  | done result => exact harmless_ofExcept result
  | render text next ih =>
    rcases quiet with answers | ⟨result, same⟩
    · exact ⟨(renders answers text).mono fun a _ => ih (.ok a) (.inl answers),
        fun e => ih (.error e) (.inl answers)⟩
    · cases same

theorem harmless_callEnclosing {lambdas : Lambdas} {render : String → Plan String}
    (renders : grant.answers → ∀ text, (render text).Harmless grant)
    (quiet : grant.answers ∨ ∀ id earlier text, ∃ result, lambdas.enclosing id earlier text = .done result)
    (handle : Lambda) (text : String) : (callEnclosing lambdas render handle text).Harmless grant := by
  unfold callEnclosing
  cases handle.shape with
  | interpolation => exact harmless_callInterpolation lambdas handle
  | enclosing =>
    exact fun earlier => harmless_converse renders (quiet.imp_right fun done => done _ _ _)
  | filter => exact harmless_callFilter lambdas handle _

theorem harmless_forFrames {sec : Section} (granted : grant.bodies sec) (frames : List Value) :
    (forFrames sec frames).Harmless grant := by
  induction frames with
  | nil => trivial
  | cons frame rest ih => exact ⟨granted, fun text => Harmless.bind ih fun _ => trivial⟩

end Plan

namespace Place

open Plan

variable {grant : Grant} (p : Place)

theorem harmless_textOf (span : Span) (v : Value) : (p.textOf span v).Harmless grant := by
  unfold textOf
  cases v.text? with
  | ok text => trivial
  | error cause => exact ⟨_, rfl⟩

theorem harmless_invoke {invocation : Invocation} (silent : ∀ name, invocation.supplies? name = none)
    {program : Program} {instrs : List Instr} (runs : Runnable grant.programs program instrs) (indent : String) :
    (Plan.invoke invocation program instrs indent).Harmless grant := by
  refine ⟨runs, ?_, fun _ => trivial⟩
  intro name o supplies
  rw [silent] at supplies
  cases supplies

theorem harmless_resolve (span : Span) (v : Value) : (p.resolve span v).Harmless grant := by
  unfold resolve
  cases v.callable? p.program.strictCallables with
  | none => trivial
  | some handle =>
    refine Harmless.bind (harmless_callInterpolation _ handle) fun result => ?_
    refine Harmless.bind (p.harmless_textOf span result) fun text => ?_
    refine Safe.bind (safe_fetchLambda none text) fun program there => ?_
    exact Harmless.bind (harmless_invoke (fun _ => rfl) ⟨there, .main⟩ "") fun _ => trivial

theorem harmless_apply (ref : Ref) (v : Value) : (p.apply ref v).Harmless grant := by
  have found : (Plan.find ref).Harmless grant := fun _ => trivial
  refine found.bind fun filter => ?_
  cases filter.callable? p.program.strictCallables with
  | none => exact ⟨_, rfl⟩
  | some handle => exact harmless_callFilter _ handle v

theorem harmless_renderFor (sec : Section) (answers : grant.answers) (text : String) :
    (renderFor sec text).Harmless grant :=
  Safe.bind (safe_fetchLambda sec.changeTag text) fun _ there => ⟨answers, there, fun _ => trivial⟩

theorem harmless_enclose
    (quiet : grant.answers ∨
      ∀ id earlier text, ∃ result, p.env.lambdas.enclosing id earlier text = .done result)
    (sec : Section) (handle : Lambda) : (p.enclose sec handle).Harmless grant := by
  unfold enclose
  have called := harmless_callEnclosing (harmless_renderFor sec) quiet handle sec.text
  refine Harmless.bind called fun result => ?_
  refine Harmless.bind (p.harmless_textOf sec.span result) fun text => ?_
  split
  · refine Safe.bind (safe_fetchLambda sec.changeTag text) fun program there => ?_
    exact harmless_invoke (fun _ => rfl) ⟨there, .main⟩ _
  · split
    · trivial
    · exact fun _ => trivial

theorem harmless_repeated
    (quiet : grant.answers ∨
      ∀ id earlier text, ∃ result, p.env.lambdas.enclosing id earlier text = .done result)
    {key : Key} (found : Entries.has key p.program.sections = true)
    (granted : ∀ sec, Entries.get? key p.program.sections = some sec → grant.bodies sec) (v : Value) :
    (p.repeated key v).Harmless grant := by
  obtain ⟨sec, there⟩ := Option.isSome_iff_exists.1 found
  unfold repeated
  rw [there]
  dsimp only
  cases v.callable? p.program.strictCallables with
  | some handle => exact p.harmless_enclose quiet sec handle
  | none =>
    dsimp only
    split
    · trivial
    · exact harmless_forFrames (granted sec there) v.frames

theorem safe_fetchPartial (name : String) :
    (p.fetchPartial name).Safe grant fun found => ∀ program, found = some program → grant.programs program := by
  unfold fetchPartial
  cases p.env.engine.partials.bind (·.load p.env.shelves name) with
  | none => exact nofun
  | some source =>
    intro program there _ same
    cases same
    exact there

theorem harmless_partialCall (name indent : String) : (p.partialCall name indent).Harmless grant := by
  refine Safe.bind (p.safe_fetchPartial name) fun found there => ?_
  cases found with
  | none => trivial
  | some program => exact harmless_invoke (fun _ => rfl) ⟨there program rfl, .main⟩ _

theorem harmless_parentCall (allowed : grant.programs p.program) (name indent : String)
    {given : List (String × Key)} (held : ∀ entry ∈ given, Entries.has entry.2 p.program.blocks = true) :
    (p.parentCall name indent given).Harmless grant := by
  refine Safe.bind (p.safe_fetchPartial name) fun found there => ?_
  cases found with
  | none => trivial
  | some program =>
    refine ⟨⟨there program rfl, .main⟩, ?_, fun _ => trivial⟩
    intro block o supplies
    obtain ⟨entry, among, rfl⟩ := Option.map_eq_some_iff.1 supplies
    exact ⟨allowed, held entry (List.mem_reverse.1 (List.mem_of_find?_eq_some among))⟩

theorem harmless_slot (name : String) : (slot name).Harmless grant := by
  have looked : (Plan.given name).Safe grant fun found =>
      ∀ o, found = some o → Resolves grant.programs o := fun _ => id
  refine looked.bind fun found resolves => ?_
  cases found with
  | none => trivial
  | some o =>
    have resolved := resolves o rfl
    obtain ⟨instrs, there⟩ := Option.isSome_iff_exists.1 resolved.found
    have runs : Runnable grant.programs o.program instrs := ⟨resolved.granted, .argument o.key instrs there⟩
    dsimp only
    rw [there]
    exact Harmless.bind (harmless_invoke (fun _ => rfl) runs "") fun _ => trivial

structure Allows (grant : Grant) (instrs : List Instr) : Prop where
  granted : grant.programs p.program
  quiet : grant.answers ∨
    ∀ id earlier text, ∃ result, p.env.lambdas.enclosing id earlier text = .done result
  bodies : ∀ key, Instr.repeated key ∈ instrs →
    ∀ sec, Entries.get? key p.program.sections = some sec → grant.bodies sec
  reaches : ∀ more pending, Ready (.of p.program.sections p.program.blocks) more 0 pending →
    grant.reaches more

variable {p} {instr : Instr} {instrs : List Instr} {expression : Option Value}

theorem Allows.tail (allows : p.Allows grant (instr :: instrs)) : p.Allows grant instrs :=
  { allows with bodies := fun key member => allows.bodies key (List.mem_cons_of_mem instr member) }

/-- An instruction that can be run leaves one of the expressions and skips that it may leave. -/
theorem safe_step (allows : p.Allows grant (instr :: instrs))
    (accepts : instr.Accepts (.of p.program.sections p.program.blocks) expression.isSome) :
    (p.step instr expression).Safe grant fun outcome =>
      (outcome.skip, outcome.expression.isSome) ∈ instr.leaves expression.isSome := by
  have first {a : Nat × Bool} {more : List (Nat × Bool)} : a ∈ a :: more := List.mem_cons_self
  cases instr with
  | text text => exact fun _ => first
  | lookup ref =>
    cases expression with
    | none => exact fun _ => first
    | some v => cases accepts
  | resolve span =>
    cases expression with
    | none => cases accepts
    | some v => exact Harmless.bind (p.harmless_resolve span v) fun _ => first
  | apply ref =>
    cases expression with
    | none => cases accepts
    | some v => exact Harmless.bind (p.harmless_apply ref v) fun _ => first
  | emit isEscaped span =>
    cases expression with
    | none => cases accepts
    | some v => exact Harmless.bind (p.harmless_textOf span v) fun _ _ => first
  | «repeated» key =>
    cases expression with
    | none => cases accepts.1
    | some v =>
      have granted := allows.bodies key List.mem_cons_self
      exact Harmless.bind (p.harmless_repeated allows.quiet accepts.2 granted v) fun _ => first
  | unlessEmpty skip =>
    cases expression with
    | none => cases accepts
    | some v =>
      show ((if v.isEmpty then 0 else skip), false) ∈ _
      split
      · exact first
      · exact List.mem_cons_of_mem _ first
  | partialCall name indent => exact Harmless.bind (p.harmless_partialCall name indent) fun _ => first
  | parentCall name indent given =>
    exact Harmless.bind (p.harmless_parentCall allows.granted name indent accepts) fun _ => first
  | slot name skip =>
    refine Harmless.bind (harmless_slot name) fun found => ?_
    cases found with
    | none => exact first
    | some text => exact List.mem_cons_of_mem _ first
  | strayArgument name => cases accepts

/-- Instructions that can be run are carried out without a fault. -/
theorem harmless_steps (allows : p.Allows grant instrs) {skip : Nat}
    (ready : Ready (.of p.program.sections p.program.blocks) instrs skip expression.isSome) :
    (p.steps instrs skip expression).Harmless grant := by
  induction instrs generalizing skip expression with
  | nil =>
    obtain ⟨rfl, none⟩ := ready
    cases expression with
    | none => trivial
    | some v => cases none
  | cons instr rest ih =>
    cases skip with
    | succ skip => exact ih allows.tail ready
    | zero =>
      refine ⟨allows.reaches _ _ ready, ?_⟩
      show (p.step instr expression >>= fun outcome =>
        p.steps rest outcome.skip outcome.expression >>= fun more =>
          Pure.pure (outcome.text ++ more)).Harmless grant
      refine Safe.bind (safe_step allows ready.1) fun outcome left => ?_
      exact Harmless.bind (ih allows.tail (ready.2 _ left)) fun _ => trivial

end Place
end Mustache.Render
