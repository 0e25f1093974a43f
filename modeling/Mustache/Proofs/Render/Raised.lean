import Mustache.Proofs.Program.Trails
import Mustache.Proofs.Render.Noted

/-! Errors that tags raise, each with the instruction that is run then and the way to it. What is raised
points at the tag of that instruction, or at the section it renders. -/
namespace Mustache

/-- The way to the argument for a name, in the program that gives it. -/
abbrev Origins := String → Option Trail

/-- The arguments that are given where a parent is called. -/
def Standing.gives (standing : Standing) (given : List (String × Key)) : Origins := fun name =>
  if name ∈ Entries.keys given then some (.argument standing.trail standing.spot name) else none

namespace Render

/-- An error that a tag has raised: without a place until then, or by the tag itself. -/
structure Raise where
  program : Program
  /-- The instruction of the program that is being run. -/
  standing : Standing
  span : Span
  error : Error
  deriving DecidableEq

/-- What is raised in bodies and in what is nested one level deeper, with the ways to the arguments in
force. -/
structure Raisers where
  origins : Origins
  body : Standing → Section → Machine → List Raise
  nested : Origins → Trail → Program → List Instr → String → Machine → List Raise

/-- What is raised after something has been run, unless that has stopped. -/
def onward {α : Type} (more : α → Machine → List Raise) : Except Stop α × Machine → List Raise
  | (.ok a, m) => more a m
  | (.error _, _) => []

/-- The way to what is invoked, in its program. -/
def Invocation.trail (origins : Origins) : Invocation → Trail
  | override name => (origins name).getD .whole
  | _ => .whole

/-- The ways to the arguments in force in what is invoked; a name that has an argument keeps it. -/
def Invocation.origins (outer : Origins) (standing : Standing) : Invocation → Origins
  | parent _ _ given => fun name => outer name <|> standing.gives given name
  | _ => outer

def Stop.raised (program : Program) (standing : Standing) : Stop → List Raise
  | .error ⟨cause, some site⟩ => [⟨program, standing, site.span, ⟨cause, some site⟩⟩]
  | _ => []

/-- The error of a call, which gets its place from the tag that calls. -/
def raisedByCall {α : Type} (program : Program) (standing : Standing) (span : Span) :
    Except Stop α → List Raise
  | .error (.error ⟨cause, none⟩) => [⟨program, standing, span, .locatedAt cause program.source span⟩]
  | _ => []

/-- What a plan raises. The answers of lambdas are errors of the tag that calls, if they have no place,
and otherwise errors that were raised before and are passed on. -/
def Plan.raises (s : Stage) (r : Raisers) (standing : Standing) :
    {α : Type} → Plan α → Bool → Machine → List Raise
  | _, .bind first next, calling, m =>
    raises s r standing first calling m ++
      onward (fun a => raises s r standing (next a) calling) ((first.act s).run.run m)
  | _, .stop cause, calling, _ => if calling then [] else cause.raised s.program standing
  | _, .located span inner, _, m =>
    raises s r standing inner true m ++
      raisedByCall s.program standing span ((inner.act s).run.run m).1
  | _, .observed inner, calling, m => raises s r standing inner calling m
  | _, .keepingLineStart inner, calling, m => raises s r standing inner calling m
  | _, .aside inner, calling, m => raises s r standing inner calling m
  | _, .within frame sec, _, m => r.body standing sec { m with frames := frame :: m.frames }
  | _, .invoke invocation program instrs indent, _, m =>
    if s.env.engine.maxDepth ≤ m.depth then []
    else r.nested (invocation.origins r.origins standing) (invocation.trail r.origins) program instrs indent
      (m.enter invocation)
  | _, .answer program, _, m =>
    r.nested r.origins .whole program program.instrs "" { m with lineStart := true }
  | _, .pure _, _, _ | _, .reach _, _, _ | _, .find _, _, _ | _, .given _, _, _ | _, .put _ _, _, _
  | _, .record _, _, _ | _, .fetch _ _, _, _ => []

def Stage.raises (s : Stage) (r : Raisers) (trail : Trail) :
    List Instr → Spot → Nat → Option Value → Machine → List Raise
  | [], _, _, _, _ => []
  | _ :: rest, spot, skip + 1, expression, m => raises s r trail rest (spot.next none) skip expression m
  | instr :: rest, spot, 0, expression, m =>
    (s.place.step instr expression).raises s r ⟨trail, spot⟩ false m ++
      onward (fun outcome => raises s r trail rest (spot.next (instr.entered? outcome.skip)) outcome.skip
        outcome.expression) ((s.step instr expression).run.run m)

def raisesOfBody (env : Env) (runner : Runner)
    (nested : Origins → Trail → Program → List Instr → String → Machine → List Raise) (origins : Origins)
    (program : Program) (indent : String) : Nat → Trail → List Instr → Machine → List Raise
  | 0, _, _ => fun _ => []
  | budget + 1, trail, instrs =>
    let body (sec : Section) := runBody env runner program indent budget sec.instrs
    let raised (standing : Standing) (sec : Section) := raisesOfBody env runner nested origins program indent
      budget (.body standing.trail standing.spot) sec.instrs
    Stage.raises ⟨env, program, indent, body, runner⟩ ⟨origins, raised, nested⟩ trail instrs .start 0 none

def raisesOfRun (env : Env) :
    Nat → Origins → Trail → Program → List Instr → String → Machine → List Raise
  | 0 => fun _ _ _ _ _ _ => []
  | levels + 1 => fun origins trail program instrs indent =>
    raisesOfBody env (run env levels) (raisesOfRun env levels) origins program indent
      (program.source.length + 2) trail instrs

def raisesOfRender (env : Env) (program : Program) (context : Value) (store : Store) : List Raise :=
  raisesOfRun env (env.engine.maxDepth + lambdaAllowance + 1) (fun _ => none) .whole program program.instrs ""
    (initial env context store)

/-! ### Where plans point -/

/-- What a plan does not invoke by itself: arguments, and parents that other instructions call. -/
def Invocation.CalledBy (program : Program) (gives : List (String × Key) → Prop) : Invocation → Prop
  | parent owner _ given => owner = program ∧ gives given
  | override _ => False
  | _ => True

/-- What a plan of a program points at; it renders only some sections of it, and else whole programs. -/
def Plan.Points (program : Program) (spans : Span → Prop) (sections : Section → Prop)
    (gives : List (String × Key) → Prop) : {α : Type} → Plan α → Bool → Prop
  | _, .bind first next, calling => Points program spans sections gives first calling ∧
    ∀ a, Points program spans sections gives (next a) calling
  | _, .stop cause, calling => calling = false → ∀ e, cause = .error e →
    ∃ span, spans span ∧ e.site = Error.siteIn program.source span
  | _, .located span inner, _ => spans span ∧ Points program spans sections gives inner true
  | _, .observed inner, calling => Points program spans sections gives inner calling
  | _, .keepingLineStart inner, calling => Points program spans sections gives inner calling
  | _, .aside inner, calling => Points program spans sections gives inner calling
  | _, .within _ sec, _ => sections sec
  | _, .invoke invocation other instrs _, _ =>
    invocation.CalledBy program gives ∧ instrs = other.instrs
  | _, .pure _, _ | _, .reach _, _ | _, .find _, _ | _, .given _, _ | _, .put _ _, _ | _, .record _, _
  | _, .fetch _ _, _ | _, .answer _, _ => True

namespace Plan

variable {program : Program} {spans : Span → Prop} {sections : Section → Prop}
  {gives : List (String × Key) → Prop}

theorem points_fault {α : Type} (fault : Fault) (calling : Bool) :
    (stop (.fault fault) : Plan α).Points program spans sections gives calling := by
  rintro - e same
  cases same

theorem points_ofExcept {α : Type} (result : Except Error α) :
    (ofExcept result).Points program spans sections gives true := by
  cases result with
  | ok a => exact trivial
  | error e => exact fun calling => Bool.noConfusion calling

theorem points_raise {α : Type} (cause : Cause) :
    (raise cause : Plan α).Points program spans sections gives true :=
  fun calling => Bool.noConfusion calling

theorem points_callInterpolation (lambdas : Lambdas) (handle : Lambda) :
    (callInterpolation lambdas handle).Points program spans sections gives true := by
  unfold callInterpolation
  cases handle.shape with
  | interpolation => exact ⟨trivial, fun _ => points_ofExcept _⟩
  | enclosing => exact points_raise _
  | filter => exact points_raise _

theorem points_callFilter (lambdas : Lambdas) (handle : Lambda) (v : Value) :
    (callFilter lambdas handle v).Points program spans sections gives true := by
  unfold callFilter
  cases handle.shape with
  | interpolation => exact points_callInterpolation lambdas handle
  | enclosing => exact points_raise _
  | filter => exact ⟨trivial, fun _ => points_ofExcept _⟩

theorem points_converse {render : String → Plan String}
    (texts : ∀ text, (render text).Points program spans sections gives true) (dialogue : Dialogue) :
    (converse render dialogue).Points program spans sections gives true := by
  induction dialogue with
  | done result => exact points_ofExcept result
  | render text next ih => exact ⟨texts text, ih⟩

theorem points_callEnclosing (lambdas : Lambdas) {render : String → Plan String}
    (texts : ∀ text, (render text).Points program spans sections gives true) (handle : Lambda)
    (text : String) : (callEnclosing lambdas render handle text).Points program spans sections gives true := by
  unfold callEnclosing
  cases handle.shape with
  | interpolation => exact points_callInterpolation lambdas handle
  | enclosing => exact ⟨trivial, fun _ => points_converse texts _⟩
  | filter => exact points_callFilter lambdas handle _

theorem points_forFrames {sec : Section} (holds : sections sec) (frames : List Value) :
    (forFrames sec frames).Points program spans sections gives false := by
  induction frames with
  | nil => exact trivial
  | cons frame rest ih => exact ⟨holds, fun _ => ⟨ih, fun _ => trivial⟩⟩

end Plan

namespace Place

variable (p : Place) {spans : Span → Prop} {sections : Section → Prop}
  {gives : List (String × Key) → Prop}

theorem points_textOf {span : Span} (own : spans span) (v : Value) :
    (p.textOf span v).Points p.program spans sections gives false := by
  unfold textOf
  cases v.text? with
  | ok text => exact trivial
  | error cause =>
    rintro - e same
    cases same
    exact ⟨span, own, rfl⟩

theorem points_resolve {span : Span} (own : spans span) (v : Value) :
    (p.resolve span v).Points p.program spans sections gives false := by
  unfold resolve
  cases v.callable? p.program.strictCallables with
  | none => exact trivial
  | some handle =>
    refine ⟨⟨own, Plan.points_callInterpolation _ _⟩, fun result => ⟨points_textOf p own result, ?_⟩⟩
    exact fun text => ⟨trivial, fun program => ⟨⟨trivial, rfl⟩,
      fun _ => trivial⟩⟩

theorem points_apply {ref : Ref} (own : spans ref.span) (v : Value) :
    (p.apply ref v).Points p.program spans sections gives false := by
  refine ⟨trivial, fun found => ?_⟩
  dsimp only
  cases found.callable? p.program.strictCallables with
  | none =>
    rintro - e same
    cases same
    exact ⟨ref.span, own, rfl⟩
  | some handle => exact ⟨own, Plan.points_callFilter _ handle v⟩

theorem points_enclose {sec : Section} (own : spans sec.span) (handle : Lambda) :
    (p.enclose sec handle).Points p.program spans sections gives false := by
  have texts (text : String) : (renderFor sec text).Points p.program spans sections gives true :=
    ⟨trivial, fun _ => trivial⟩
  refine ⟨⟨own, Plan.points_callEnclosing _ texts _ _⟩, fun result => ⟨points_textOf p own result, ?_⟩⟩
  intro text
  dsimp only
  split
  · exact ⟨trivial, fun program => ⟨trivial, rfl⟩⟩
  · split <;> exact trivial

theorem points_repeated {key : Key}
    (own : ∀ sec, Entries.get? key p.program.sections = some sec → spans sec.span ∧ sections sec)
    (v : Value) : (p.repeated key v).Points p.program spans sections gives false := by
  unfold «repeated»
  cases held : Entries.get? key p.program.sections with
  | none => exact Plan.points_fault _ _
  | some sec =>
    dsimp only
    cases v.callable? p.program.strictCallables with
    | some handle => exact points_enclose p (own sec held).1 handle
    | none =>
      dsimp only
      split
      · exact trivial
      · exact Plan.points_forFrames (own sec held).2 v.frames

theorem points_fetchPartial (name : String) :
    (p.fetchPartial name).Points p.program spans sections gives false := by
  unfold fetchPartial
  cases p.env.engine.partials.bind (·.load p.env.shelves name) with
  | none => exact trivial
  | some source => exact ⟨trivial, fun _ => trivial⟩

theorem points_partialCall (name indent : String) :
    (p.partialCall name indent).Points p.program spans sections gives false := by
  refine ⟨points_fetchPartial p name, fun found => ?_⟩
  cases found with
  | none => exact trivial
  | some program => exact ⟨trivial, rfl⟩

theorem points_parentCall (name indent : String) {given : List (String × Key)} (own : gives given) :
    (p.parentCall name indent given).Points p.program spans sections gives false := by
  refine ⟨points_fetchPartial p name, fun found => ?_⟩
  cases found with
  | none => exact trivial
  | some program => exact ⟨⟨rfl, own⟩, rfl⟩

/-- All that is not a block points where its instruction does. -/
theorem points_step {instr : Instr} (own : ∀ name skip, instr ≠ .slot name skip)
    (expression : Option Value) :
    (p.step instr expression).Points p.program (instr.PointsAt p.program) (instr.Renders p.program)
      instr.Gives false := by
  cases instr with
  | text text => exact ⟨trivial, fun _ => trivial⟩
  | lookup ref =>
    cases expression with
    | none => exact ⟨trivial, fun _ => trivial⟩
    | some v => exact Plan.points_fault _ _
  | resolve span =>
    cases expression with
    | none => exact Plan.points_fault _ _
    | some v => exact ⟨points_resolve p (.inl rfl) v, fun _ => trivial⟩
  | apply ref =>
    cases expression with
    | none => exact Plan.points_fault _ _
    | some v => exact ⟨points_apply p (.inl rfl) v, fun _ => trivial⟩
  | emit isEscaped span =>
    cases expression with
    | none => exact Plan.points_fault _ _
    | some v => exact ⟨points_textOf p (.inl rfl) v, fun _ => ⟨trivial, fun _ => trivial⟩⟩
  | «repeated» key =>
    cases expression with
    | none => exact Plan.points_fault _ _
    | some v =>
      refine ⟨points_repeated p ?_ v, fun _ => trivial⟩
      exact fun sec held => ⟨.inr ⟨key, sec, rfl, held, rfl⟩, key, rfl, held⟩
  | unlessEmpty skip =>
    cases expression with
    | none => exact Plan.points_fault _ _
    | some v => exact trivial
  | partialCall name indent => exact ⟨points_partialCall p name indent, fun _ => trivial⟩
  | parentCall name indent given =>
    exact ⟨points_parentCall p name indent ⟨name, indent, rfl⟩, fun _ => trivial⟩
  | slot name skip => exact absurd rfl (own name skip)
  | strayArgument name => exact Plan.points_fault _ _

end Place

/-! ### Where errors point -/

/-- An error points into its program, where its standing may. -/
structure Raise.Sound (raise : Raise) : Prop where
  site : raise.error.site = Error.siteIn raise.program.source raise.span
  points : raise.program.Points raise.standing raise.span

/-- Each argument of an overlay has the way to it, in the program that gives it. -/
structure Guides (origins : Origins) (overlay : Overlay) : Prop where
  absent : ∀ name, overlay.find? name = none → origins name = none
  leads : ∀ name o, overlay.find? name = some o → ∃ trail, origins name = some trail ∧
    ∀ instrs, Entries.get? o.key o.program.blocks = some instrs → o.program.Leads trail instrs

theorem Guides.parent {origins : Origins} {overlay : Overlay} (guides : Guides origins overlay)
    {program : Program} {standing : Standing} {target indent : String} {given : List (String × Key)}
    (reaches : program.Reaches standing (.parentCall target indent given)) (tag : String) :
    Guides ((Invocation.parent program tag given).origins origins standing)
      ((Invocation.parent program tag given).overlay overlay) := by
  have silent (name : String) : (given.reverse.find? fun entry => entry.1 = name) = none ↔
      name ∉ Entries.keys given := by
    simp only [Entries.keys, List.find?_eq_none, List.mem_reverse, decide_eq_true_eq, List.mem_map, not_exists,
      not_and]
  constructor
  · intro name none
    rw [Invocation.find?_overlay] at none
    unfold Invocation.origins Standing.gives
    dsimp only
    cases outer : overlay.find? name with
    | some o =>
      rw [outer] at none
      cases none
    | none =>
      rw [outer] at none
      have inside := (silent name).1 (Option.map_eq_none_iff.1 none)
      rw [guides.absent name outer, if_neg inside]
      rfl
  · intro name o found
    rw [Invocation.find?_overlay] at found
    unfold Invocation.origins
    dsimp only
    cases outer : overlay.find? name with
    | some other =>
      rw [outer] at found
      cases found
      obtain ⟨trail, there, leads⟩ := guides.leads name o outer
      exact ⟨trail, by rw [there]; rfl, leads⟩
    | none =>
      rw [outer] at found
      obtain ⟨entry, last, rfl⟩ := Option.map_eq_some_iff.1 found
      have member : name ∈ Entries.keys given := by
        by_contra missing
        rw [(silent name).2 missing] at last
        cases last
      rw [guides.absent name outer, Standing.gives, if_pos member]
      obtain ⟨instrs, before, within, here⟩ := reaches
      exact ⟨_, rfl, fun inner held =>
        .argument _ instrs _ name target indent given entry inner before within here last held⟩

/-- What runs instructions to which a trail leads raises errors that point where they may. -/
def Soundly (nested : Origins → Trail → Program → List Instr → String → Machine → List Raise) : Prop :=
  ∀ origins trail program instrs indent m, program.Leads trail instrs → Guides origins m.overlay →
    ∀ raise ∈ nested origins trail program instrs indent m, raise.Sound

theorem mem_onward {α : Type} {more : α → Machine → List Raise} {ran : Except Stop α × Machine}
    {raise : Raise} (member : raise ∈ onward more ran) :
    ∃ a m, ran = (.ok a, m) ∧ raise ∈ more a m := by
  obtain ⟨_ | a, m⟩ := ran
  · cases member
  · exact ⟨a, m, rfl, member⟩

theorem sound_of_stop {program : Program} {standing : Standing} {spans : Span → Prop} {cause : Stop}
    (points : ∀ e, cause = .error e → ∃ span, spans span ∧ e.site = Error.siteIn program.source span)
    (allowed : ∀ span, spans span → program.Points standing span) :
    ∀ raise ∈ cause.raised program standing, raise.Sound := by
  intro raise member
  obtain ⟨cause, _ | site⟩ | fault := cause
  · cases member
  · obtain ⟨span, own, same⟩ := points _ rfl
    rw [List.mem_singleton.1 member]
    have same : some site = Error.siteIn program.source span := same
    have there : site = ⟨program.source, span⟩ := by
      unfold Error.siteIn at same
      split at same
      · cases same
      · exact Option.some.inj same
    subst there
    exact ⟨same, allowed span own⟩
  · cases member

theorem sound_of_call {α : Type} {program : Program} {standing : Standing} {span : Span}
    (points : program.Points standing span) (result : Except Stop α) :
    ∀ raise ∈ raisedByCall program standing span result, raise.Sound := by
  intro raise member
  rcases result with (⟨cause, _ | site⟩ | fault) | a
  · rw [List.mem_singleton.1 member]
    exact ⟨rfl, points⟩
  · cases member
  · cases member
  · cases member

/-- A place whose plans leave the overlay as it was, and whose bodies and nested programs raise errors that
point where they may. -/
structure Stage.Sound (s : Stage) (r : Raisers) : Prop where
  keeps : ∀ {α : Type} (plan : Plan α) (m : Machine), ((plan.act s).run.run m).2.overlay = m.overlay
  body : ∀ standing key sec, s.program.Reaches standing (.repeated key) →
    Entries.get? key s.program.sections = some sec → ∀ m, Guides r.origins m.overlay →
      ∀ raise ∈ r.body standing sec m, raise.Sound
  nested : Soundly r.nested

section

variable {s : Stage} {r : Raisers}

theorem Plan.sound (sound : s.Sound r) {standing : Standing} {instr : Instr}
    (reaches : s.program.Reaches standing instr) {α : Type} {plan : Plan α} {calling : Bool}
    (points : plan.Points s.program (instr.PointsAt s.program) (instr.Renders s.program) instr.Gives calling)
    {m : Machine} (guides : Guides r.origins m.overlay) :
    ∀ raise ∈ plan.raises s r standing calling m, raise.Sound := by
  have allowed (span : Span) (points : instr.PointsAt s.program span) : s.program.Points standing span :=
    ⟨instr, reaches, points⟩
  induction plan generalizing calling m with
  | bind first next ih ih' =>
    intro raise member
    rcases List.mem_append.1 member with before | after
    · exact ih points.1 guides raise before
    · obtain ⟨a, m', ran, later⟩ := mem_onward after
      have kept := sound.keeps first m
      rw [ran] at kept
      exact ih' a (points.2 a) (kept ▸ guides) raise later
  | stop cause =>
    intro raise member
    cases calling with
    | true => cases member
    | false => exact sound_of_stop (points rfl) allowed raise member
  | located span inner ih =>
    intro raise member
    rcases List.mem_append.1 member with within | own
    · exact ih points.2 guides raise within
    · exact sound_of_call (allowed span points.1) _ raise own
  | observed inner ih => exact ih points guides
  | keepingLineStart inner ih => exact ih points guides
  | aside inner ih => exact ih points guides
  | within frame sec =>
    obtain ⟨key, rfl, held⟩ := points
    exact sound.body standing key sec reaches held _ guides
  | invoke invocation program instrs indent =>
    obtain ⟨called, rfl⟩ := points
    intro raise member
    unfold raises at member
    split at member
    · cases member
    · cases invocation with
      | parent owner tag given =>
        obtain ⟨rfl, target, tagIndent, rfl⟩ := called
        exact sound.nested _ _ _ _ _ _ .whole (guides.parent reaches tag) raise member
      | override name => exact called.elim
      | partialRef name =>
        refine sound.nested _ _ _ _ _ _ .whole ?_ raise member
        exact guides
      | lambda =>
        refine sound.nested _ _ _ _ _ _ .whole ?_ raise member
        exact guides
  | answer program => exact sound.nested _ _ _ _ _ _ .whole guides
  | _ =>
    intro raise member
    cases member

/-- A block has the argument rendered that is given for it, where that was given. -/
theorem Place.sound_slot (sound : s.Sound r) (standing : Standing) (name : String) {m : Machine}
    (guides : Guides r.origins m.overlay) :
    ∀ raise ∈ (slot name).raises s r standing false m, raise.Sound := by
  intro raise member
  rcases List.mem_append.1 member with none | after
  · cases none
  · obtain ⟨found, m', ran, later⟩ := mem_onward after
    have same : (Except.ok (m.overlay.find? name), m) = (.ok found, m') := ran
    cases same
    cases given : m.overlay.find? name with
    | none =>
      rw [given] at later
      cases later
    | some o =>
      rw [given] at later
      dsimp only at later
      obtain ⟨trail, origin, leads⟩ := guides.leads name o given
      cases held : Entries.get? o.key o.program.blocks with
      | none =>
        rw [held] at later
        cases later
      | some instrs =>
        rw [held] at later
        rcases List.mem_append.1 later with entered | later
        · have way : Invocation.trail r.origins (.override name) = trail :=
            congrArg (fun found => found.getD Trail.whole) origin
          unfold Plan.raises at entered
          split at entered
          · cases entered
          · rw [way] at entered
            refine sound.nested _ _ _ _ _ _ (leads instrs held) ?_ raise entered
            exact guides
        · obtain ⟨text, m'', -, nothing⟩ := mem_onward later
          cases nothing

theorem Stage.sound_step (sound : s.Sound r) {standing : Standing} {instr : Instr}
    (reaches : s.program.Reaches standing instr) (expression : Option Value) {m : Machine}
    (guides : Guides r.origins m.overlay) :
    ∀ raise ∈ (s.place.step instr expression).raises s r standing false m, raise.Sound := by
  by_cases block : ∃ name skip, instr = .slot name skip
  · obtain ⟨name, skip, rfl⟩ := block
    intro raise there
    rcases List.mem_append.1 there with first | after
    · exact Place.sound_slot sound standing name guides raise first
    · obtain ⟨found, m', -, nothing⟩ := mem_onward after
      cases found <;> cases nothing
  · have points := s.place.points_step (fun name skip same => block ⟨name, skip, same⟩) expression
    exact Plan.sound sound reaches points guides

theorem Stage.sound_raises (sound : s.Sound r) {trail : Trail} {whole : List Instr}
    (leads : s.program.Leads trail whole) {instrs : List Instr} {spot : Spot} (within : spot.Within whole)
    (rest : whole.drop spot.number = instrs) (skip : Nat) (expression : Option Value) {m : Machine}
    (guides : Guides r.origins m.overlay) :
    ∀ raise ∈ s.raises r trail instrs spot skip expression m, raise.Sound := by
  induction instrs generalizing spot skip expression m with
  | nil =>
    intro raise member
    cases member
  | cons instr more ih =>
    have here : whole[spot.number]? = some instr := by
      have first := congrArg (·[0]?) rest
      simpa using first
    have later : whole.drop (spot.number + 1) = more := by
      rw [← List.tail_drop, rest]
      rfl
    cases skip with
    | succ skip => exact ih within.skip later skip expression guides
    | zero =>
      intro raise member
      rcases List.mem_append.1 member with first | after
      · exact sound_step sound ⟨whole, leads, within, here⟩ expression guides raise first
      · obtain ⟨outcome, m', ran, onwards⟩ := mem_onward after
        have kept := sound.keeps (s.place.step instr expression) m
        rw [Place.act_step, ran] at kept
        exact ih (within.next here outcome.skip) later outcome.skip outcome.expression (kept ▸ guides) raise
          onwards

end

theorem sound_raisesOfBody {env : Env} {runner : Runner}
    {nested : Origins → Trail → Program → List Instr → String → Machine → List Raise}
    {noted : Program → List Instr → String → Machine → List Note} (sound : Soundly nested)
    (accounts : ∀ program instrs indent,
      Accounts env.engine (runner program instrs indent) (noted program instrs indent))
    (origins : Origins) (program : Program) (indent : String) (budget : Nat) {trail : Trail}
    {instrs : List Instr} (leads : program.Leads trail instrs) {m : Machine} (guides : Guides origins m.overlay) :
    ∀ raise ∈ raisesOfBody env runner nested origins program indent budget trail instrs m, raise.Sound := by
  induction budget generalizing trail instrs m with
  | zero =>
    intro raise member
    cases member
  | succ budget ih =>
    let body (sec : Section) := runBody env runner program indent budget sec.instrs
    let s : Stage := ⟨env, program, indent, body, runner⟩
    let n : Noters := ⟨fun sec => notesOfBody env runner noted program indent budget sec.instrs, noted⟩
    have bodies (sec : Section) : Accounts s.env.engine (s.body sec) (n.body sec) :=
      accounts_runBody accounts program indent budget sec.instrs
    refine Stage.sound_raises ⟨?_, ?_, sound⟩ leads (Spot.within_start instrs) rfl 0 none guides
    · exact fun plan m => (Accounts.plan (s := s) (n := n) bodies accounts plan m).overlay
    · rintro standing key sec ⟨outer, before, within, here⟩ held m' guides'
      exact ih (.body standing.trail outer standing.spot key sec before within here held) guides'

theorem sound_raisesOfRun (env : Env) (levels : Nat) : Soundly (raisesOfRun env levels) := by
  induction levels with
  | zero =>
    intro origins trail program instrs indent m leads guides raise member
    cases member
  | succ levels ih =>
    intro origins trail program instrs indent m leads guides
    exact sound_raisesOfBody ih (accounts_run env levels) origins program indent _ leads guides

/-- All errors that tags raise point into their own program, to where their standing may. -/
theorem sound_raisesOfRender (env : Env) (program : Program) (context : Value) (store : Store) :
    ∀ raise ∈ raisesOfRender env program context store, raise.Sound :=
  sound_raisesOfRun env _ _ .whole program program.instrs "" _ .whole
    ⟨fun _ _ => rfl, by rintro name o ⟨⟩⟩

end Render
end Mustache
