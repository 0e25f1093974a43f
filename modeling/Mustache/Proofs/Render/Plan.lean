import Mustache.Proofs.Render.Parts

/-! What a step sets out to do, as a tree of its effects. What all steps have in common is proved by
one induction on the tree, with a case for each effect. -/
namespace Mustache.Render

/-- What is rendered one level deeper than what it is nested in. -/
inductive Invocation
  | partialRef (name : String)
  /-- A parent that a program calls, with the arguments as its tag gives them. -/
  | parent (program : Program) (name : String) (given : List (String × Key))
  /-- The argument given for a block. -/
  | override (name : String)
  /-- The text of a lambda, as a template. -/
  | lambda

/-- Block arguments of a program, of two with one name the last. -/
def Invocation.overrides (program : Program) (given : List (String × Key)) :
    List (String × Override) :=
  Entries.ofList (given.map fun (name, key) => (name, ⟨program, key⟩))

inductive Plan : Type → Type 1
  | pure {α : Type} (a : α) : Plan α
  | bind {α β : Type} (first : Plan α) (next : α → Plan β) : Plan β
  | stop {α : Type} (stop : Stop) : Plan α
  /-- Comes to the first of some instructions. -/
  | reach (instrs : List Instr) : Plan Unit
  | find (ref : Ref) : Plan Value
  | given (name : String) : Plan (Option Override)
  /-- Gives text, after the indent if it starts a line, and tells whether it ends one. -/
  | put (text : String) (ends : Bool) : Plan String
  | record (call : Call) : Plan Nat
  | fetch (origin : Engine.Origin) (source : String) : Plan Program
  | located {α : Type} (span : Span) (inner : Plan α) : Plan α
  | observed {α : Type} (inner : Plan α) : Plan (Except Error α)
  | keepingLineStart {α : Type} (inner : Plan α) : Plan α
  | aside {α : Type} (inner : Plan α) : Plan α
  | within (frame : Value) (sec : Section) : Plan String
  | invoke (invocation : Invocation) (program : Program) (instrs : List Instr) (indent : String) :
      Plan String
  | answer (program : Program) : Plan String

instance : Monad Plan where
  pure := Plan.pure
  bind := Plan.bind

/-- Where an instruction stands, without what runs the bodies and what is nested. -/
structure Place where
  env : Env
  program : Program
  indent : String

def Stage.place (s : Stage) : Place := ⟨s.env, s.program, s.indent⟩

namespace Plan

def raise {α : Type} (cause : Cause) : Plan α := stop (.error { cause })

def ofExcept {α : Type} : Except Error α → Plan α
  | .ok a => pure a
  | .error e => stop (.error e)

def callInterpolation (lambdas : Lambdas) (handle : Lambda) : Plan Value := do
  match handle.shape with
  | .interpolation =>
    let earlier ← record (.interpolation handle.id)
    ofExcept (lambdas.interpolation handle.id earlier)
  | .enclosing => raise .sectionInterpolated
  | .filter => raise .filterInterpolated

def callFilter (lambdas : Lambdas) (handle : Lambda) (v : Value) : Plan Value := do
  match handle.shape with
  | .interpolation => callInterpolation lambdas handle
  | .enclosing => raise .sectionApplied
  | .filter =>
    let earlier ← record (.filter handle.id v)
    ofExcept (lambdas.filter handle.id earlier v)

def converse (render : String → Plan String) : Dialogue → Plan Value
  | .done result => ofExcept result
  | .render text next => do
    let answer ← observed (render text)
    converse render (next answer)

def callEnclosing (lambdas : Lambdas) (render : String → Plan String) (handle : Lambda)
    (text : String) : Plan Value := do
  match handle.shape with
  | .interpolation => callInterpolation lambdas handle
  | .enclosing =>
    let earlier ← record (.enclosing handle.id text)
    converse render (lambdas.enclosing handle.id earlier text)
  | .filter => callFilter lambdas handle (.string text)

def forFrames (sec : Section) : List Value → Plan String
  | [] => pure ""
  | frame :: rest => do
    let first ← within frame sec
    let more ← forFrames sec rest
    pure (first ++ more)

def fetchLambda (changeTag : Option String) (text : String) : Plan Program :=
  fetch .lambda (match changeTag with
    | some tag => tag ++ "\n" ++ text
    | none => text)

end Plan

namespace Place

def textOf (p : Place) (span : Span) (v : Value) : Plan String :=
  match v.text? with
  | .ok text => pure text
  | .error cause => .stop (.error (.locatedAt cause p.program.source span))

def escaped (p : Place) (text : String) : String :=
  match p.program.escape, p.env.engine.escape with
  | .custom, some escape => escape text
  | .html flags, _ => Html.escape flags text
  | .custom, none => Html.escape p.env.engine.entityFlags text

def resolve (p : Place) (span : Span) (v : Value) : Plan Value := do
  match v.callable? p.program.strictCallables with
  | none => pure v
  | some handle =>
    let result ← Plan.located span (Plan.callInterpolation p.env.lambdas handle)
    let text ← p.textOf span result
    let program ← Plan.fetchLambda none text
    let rendered ← Plan.keepingLineStart (.invoke .lambda program program.instrs "")
    pure (.string rendered)

def apply (p : Place) (ref : Ref) (v : Value) : Plan Value := do
  match (← Plan.find ref).callable? p.program.strictCallables with
  | none => .stop (.error (.locatedAt (.unknownFilter ref.name) p.program.source ref.span))
  | some handle => .located ref.span (Plan.callFilter p.env.lambdas handle v)

def renderFor (sec : Section) (text : String) : Plan String :=
  .aside do
    let program ← Plan.fetchLambda sec.changeTag text
    Plan.answer program

def enclose (p : Place) (sec : Section) (handle : Lambda) : Plan String := do
  let result ← Plan.located sec.span
    (Plan.callEnclosing p.env.lambdas (renderFor sec) handle sec.text)
  let text ← p.textOf sec.span result
  if Text.contains sec.opening text.toList then
    let program ← Plan.fetchLambda sec.changeTag text
    Plan.invoke .lambda program program.instrs p.indent
  else if text.isEmpty then pure ""
  else Plan.put text (Stage.endsLine text)

def repeated (p : Place) (key : Key) (v : Value) : Plan String := do
  match Entries.get? key p.program.sections with
  | none => .stop (.fault .missingSection)
  | some sec =>
    match v.callable? p.program.strictCallables with
    | some handle => p.enclose sec handle
    | none => if v.isEmpty then pure "" else Plan.forFrames sec v.frames

def fetchPartial (p : Place) (name : String) : Plan (Option Program) := do
  match p.env.engine.partials.bind (·.load p.env.shelves name) with
  | none => pure none
  | some source => return some (← Plan.fetch .template source)

def partialCall (p : Place) (name indent : String) : Plan String := do
  match ← p.fetchPartial name with
  | none => pure ""
  | some program =>
    Plan.invoke (.partialRef name) program program.instrs (p.indent ++ indent)

def parentCall (p : Place) (name indent : String) (given : List (String × Key)) : Plan String := do
  match ← p.fetchPartial name with
  | none => pure ""
  | some program =>
    Plan.invoke (.parent p.program name given) program program.instrs (p.indent ++ indent)

def slot (name : String) : Plan (Option String) := do
  match ← Plan.given name with
  | none => pure none
  | some override =>
    match Entries.get? override.key override.program.blocks with
    | none => .stop (.fault .missingBlock)
    | some instrs =>
      let text ← Plan.invoke (.override name) override.program instrs ""
      pure (some text)

def step (p : Place) (instr : Instr) (expression : Option Value) : Plan Outcome := do
  match instr, expression with
  | .text text, expression =>
    let text ← Plan.put text (Stage.endsLine text)
    pure { text, expression }
  | .lookup ref, none =>
    let v ← Plan.find ref
    pure { expression := some v }
  | .lookup _, some _ => .stop (.fault .pendingExpression)
  | .resolve span, some v =>
    let v ← p.resolve span v
    pure { expression := some v }
  | .apply ref, some v =>
    let v ← p.apply ref v
    pure { expression := some v }
  | .emit isEscaped span, some v =>
    let text ← p.textOf span v
    let text ← Plan.put (if isEscaped then p.escaped text else text) false
    pure { text }
  | .repeated key, some v =>
    let text ← p.repeated key v
    pure { text }
  | .unlessEmpty skip, some v => pure { skip := if v.isEmpty then 0 else skip }
  | .resolve _, none | .apply _, none | .emit _ _, none | .repeated _, none
  | .unlessEmpty _, none => .stop (.fault .noExpression)
  | .partialCall name indent, expression =>
    let text ← p.partialCall name indent
    pure { text, expression }
  | .parentCall name indent given, expression =>
    let text ← p.parentCall name indent given
    pure { text, expression }
  | .slot name skip, expression =>
    match ← slot name with
    | some text => pure { text, expression, skip }
    | none => pure { expression }
  | .strayArgument _, _ => .stop (.fault .strayArgument)

def steps (p : Place) : List Instr → Nat → Option Value → Plan String
  | [], 0, none => pure ""
  | [], 0, some _ => .stop (.fault .pendingExpression)
  | [], _ + 1, _ => .stop (.fault .skipTooFar)
  | _ :: rest, skip + 1, expression => steps p rest skip expression
  | instr :: rest, 0, expression => do
    Plan.reach (instr :: rest)
    let outcome ← p.step instr expression
    let more ← steps p rest outcome.skip outcome.expression
    pure (outcome.text ++ more)

end Place

/-! ### Plans carried out -/

namespace Plan

/-- What is invoked runs with the arguments of the parent that it is. -/
def entering (invocation : Invocation) (action : Act String) : Act String :=
  match invocation with
  | .parent program _ keys => withArguments (Invocation.overrides program keys) action
  | _ => action

def act (s : Stage) : {α : Type} → Plan α → Act α
  | _, .pure a => Pure.pure a
  | _, .bind first next => do
    let a ← act s first
    act s (next a)
  | _, .stop cause => throw cause
  | _, .reach _ => Pure.pure ()
  | _, .find ref => do Pure.pure ((← get).frames.find ref)
  | _, .given name => do Pure.pure ((← get).overlay.find? name)
  | _, .put text ends => do
    let m ← get
    set { m with lineStart := ends }
    Pure.pure (if m.lineStart then s.indent ++ text else text)
  | _, .record call => Render.record call
  | _, .fetch origin source => do Render.ofExcept (← inStore (s.env.engine.fetch origin source))
  | _, .located span inner => Render.located s.program.source span (act s inner)
  | _, .observed inner => Render.observed (act s inner)
  | _, .keepingLineStart inner => Render.keepingLineStart (act s inner)
  | _, .aside inner => Render.aside (act s inner)
  | _, .within frame sec => withFrame frame (s.body sec)
  | _, .invoke invocation program instrs indent =>
    deeper s.env.engine.maxDepth (entering invocation (s.nested program instrs indent))
  | _, .answer program => do
    modify fun m => { m with lineStart := true }
    s.nested program program.instrs ""

section

variable (s : Stage)

theorem act_find {α : Type} (ref : Ref) (next : Value → Plan α) :
    act s (find ref >>= next) = get >>= fun m : Machine => act s (next (m.frames.find ref)) := rfl

theorem act_given {α : Type} (name : String) (next : Option Override → Plan α) :
    act s (given name >>= next) = get >>= fun m : Machine => act s (next (m.overlay.find? name)) := rfl

theorem act_ofExcept {α : Type} (result : Except Error α) :
    act s (ofExcept result) = Render.ofExcept result := by
  cases result <;> rfl

theorem act_callInterpolation (lambdas : Lambdas) (handle : Lambda) :
    act s (callInterpolation lambdas handle) = Render.callInterpolation lambdas handle := by
  unfold callInterpolation Render.callInterpolation
  cases handle.shape with
  | interpolation => exact bind_congr fun earlier => act_ofExcept s _
  | enclosing => rfl
  | filter => rfl

theorem act_callFilter (lambdas : Lambdas) (handle : Lambda) (v : Value) :
    act s (callFilter lambdas handle v) = Render.callFilter lambdas handle v := by
  unfold callFilter Render.callFilter
  cases handle.shape with
  | interpolation => exact act_callInterpolation s lambdas handle
  | enclosing => rfl
  | filter => exact bind_congr fun earlier => act_ofExcept s _

theorem act_converse {render : String → Plan String} {render' : String → Act String}
    (same : ∀ text, act s (render text) = render' text) (dialogue : Dialogue) :
    act s (converse render dialogue) = Render.converse render' dialogue := by
  induction dialogue with
  | done result => exact act_ofExcept s result
  | render text next ih =>
    show (Render.observed (act s (render text)) >>= fun answer => act s (converse render (next answer))) = _
    rw [same]
    exact bind_congr ih

theorem act_callEnclosing (lambdas : Lambdas) {render : String → Plan String}
    {render' : String → Act String} (same : ∀ text, act s (render text) = render' text)
    (handle : Lambda) (text : String) :
    act s (callEnclosing lambdas render handle text) =
      Render.callEnclosing lambdas render' handle text := by
  unfold callEnclosing Render.callEnclosing
  cases handle.shape with
  | interpolation => exact act_callInterpolation s lambdas handle
  | enclosing => exact bind_congr fun earlier => act_converse s same _
  | filter => exact act_callFilter s lambdas handle _

theorem act_forFrames (sec : Section) (frames : List Value) :
    act s (forFrames sec frames) = Stage.forFrames (s.body sec) frames := by
  induction frames with
  | nil => rfl
  | cons frame rest ih =>
    show (withFrame frame (s.body sec) >>= fun first =>
      act s (forFrames sec rest) >>= fun more => Pure.pure (first ++ more)) = _
    rw [ih]
    rfl

end

end Plan

namespace Place

variable (s : Stage)

theorem act_textOf (span : Span) (v : Value) :
    (s.place.textOf span v).act s = s.textOf span v := by
  unfold textOf Stage.textOf
  cases v.text? <;> rfl

theorem act_resolve (span : Span) (v : Value) :
    (s.place.resolve span v).act s = s.resolve span v := by
  unfold resolve Stage.resolve
  show (match v.callable? s.program.strictCallables with | none => _ | some handle => _ : Plan Value).act s = _
  cases v.callable? s.program.strictCallables with
  | none => rfl
  | some handle =>
    show (located s.program.source span (Plan.act s _) >>= fun result => Plan.act s (s.place.textOf span result) >>= _) = _
    rw [Plan.act_callInterpolation]
    refine bind_congr fun result => ?_
    rw [act_textOf]
    rfl

theorem act_apply (ref : Ref) (v : Value) : (s.place.apply ref v).act s = s.apply ref v := by
  unfold apply Stage.apply
  rw [Plan.act_find]
  refine bind_congr fun m => ?_
  show Plan.act s (match (m.frames.find ref).callable? s.program.strictCallables with
    | none => _
    | some handle => _) = _
  cases (m.frames.find ref).callable? s.program.strictCallables with
  | none => rfl
  | some handle => exact congrArg _ (Plan.act_callFilter s _ handle v)

theorem act_renderFor (sec : Section) (text : String) :
    (renderFor sec text).act s = s.renderFor sec text := rfl

theorem act_enclose (sec : Section) (handle : Lambda) :
    (s.place.enclose sec handle).act s = s.enclose sec handle := by
  unfold enclose Stage.enclose
  show (located s.program.source sec.span (Plan.act s _) >>= fun result =>
    Plan.act s (s.place.textOf sec.span result) >>= fun text => Plan.act s (ite _ _ _)) = _
  rw [Plan.act_callEnclosing s _ (act_renderFor s sec)]
  refine bind_congr fun result => ?_
  rw [act_textOf]
  refine bind_congr fun text => ?_
  by_cases tagged : Text.contains sec.opening text.toList
  · rw [if_pos tagged, if_pos tagged]
    rfl
  · rw [if_neg tagged, if_neg tagged]
    by_cases blank : text.isEmpty
    · rw [if_pos blank, if_pos blank]
      rfl
    · rw [if_neg blank, if_neg blank]
      rfl

theorem act_repeated (key : Key) (v : Value) :
    (s.place.repeated key v).act s = s.repeated key v := by
  unfold repeated Stage.repeated
  show Plan.act s (match Entries.get? key s.program.sections with | none => _ | some sec => _) = _
  cases Entries.get? key s.program.sections with
  | none => rfl
  | some sec =>
    show Plan.act s (match v.callable? s.program.strictCallables with
      | some handle => _
      | none => _) = _
    dsimp only
    cases v.callable? s.program.strictCallables with
    | some handle => exact act_enclose s sec handle
    | none =>
      dsimp only
      by_cases empty : v.isEmpty
      · rw [if_pos empty, if_pos empty]
        rfl
      · rw [if_neg empty, if_neg empty]
        exact Plan.act_forFrames s sec v.frames

theorem act_fetchPartial (name : String) :
    (s.place.fetchPartial name).act s = s.fetchPartial name := by
  unfold fetchPartial Stage.fetchPartial Engine.fetchPartial
  show Plan.act s (match s.env.engine.partials.bind (·.load s.env.shelves name) with
    | none => _
    | some source => _) = _
  cases s.env.engine.partials.bind (·.load s.env.shelves name) with
  | none => rfl
  | some source => exact (inStore_map _ _).symm

theorem act_partialCall (name indent : String) :
    (s.place.partialCall name indent).act s = s.partialCall name indent := by
  unfold partialCall Stage.partialCall
  show (Plan.act s (s.place.fetchPartial name) >>= fun found => Plan.act s
    (match found with | none => _ | some program => _)) = _
  rw [act_fetchPartial]
  refine bind_congr fun found => ?_
  cases found <;> rfl

theorem act_parentCall (name indent : String) (given : List (String × Key)) :
    (s.place.parentCall name indent given).act s = s.parentCall name indent given := by
  unfold parentCall Stage.parentCall
  show (Plan.act s (s.place.fetchPartial name) >>= fun found => Plan.act s
    (match found with | none => _ | some program => _)) = _
  rw [act_fetchPartial]
  refine bind_congr fun found => ?_
  cases found <;> rfl

theorem act_slot (name : String) : (slot name).act s = s.slot name := by
  unfold slot Stage.slot
  rw [Plan.act_given]
  refine bind_congr fun m => ?_
  cases m.overlay.find? name with
  | none => rfl
  | some override =>
    dsimp only
    cases Entries.get? override.key override.program.blocks <;> rfl

theorem act_step (instr : Instr) (expression : Option Value) :
    (s.place.step instr expression).act s = s.step instr expression := by
  unfold step Stage.step
  cases instr with
  | text text => rfl
  | lookup ref => cases expression <;> rfl
  | resolve span =>
    cases expression with
    | none => rfl
    | some v =>
      show (Plan.act s (s.place.resolve span v) >>= _) = _
      rw [act_resolve]
      rfl
  | apply ref =>
    cases expression with
    | none => rfl
    | some v =>
      show (Plan.act s (s.place.apply ref v) >>= _) = _
      rw [act_apply]
      rfl
  | emit isEscaped span =>
    cases expression with
    | none => rfl
    | some v =>
      show (Plan.act s (s.place.textOf span v) >>= _) = _
      rw [act_textOf]
      rfl
  | «repeated» key =>
    cases expression with
    | none => rfl
    | some v =>
      show (Plan.act s (s.place.repeated key v) >>= _) = _
      rw [act_repeated]
      rfl
  | unlessEmpty skip => cases expression <;> rfl
  | partialCall name indent =>
    show (Plan.act s (s.place.partialCall name indent) >>= _) = _
    rw [act_partialCall]
    rfl
  | parentCall name indent given =>
    show (Plan.act s (s.place.parentCall name indent given) >>= _) = _
    rw [act_parentCall]
    rfl
  | slot name skip =>
    show (Plan.act s (slot name) >>= fun found => Plan.act s
      (match found with | some text => _ | none => _)) = _
    rw [act_slot]
    refine bind_congr fun found => ?_
    cases found <;> rfl
  | strayArgument name => rfl

/-- Instructions are carried out as they are planned. -/
theorem act_steps (instrs : List Instr) (skip : Nat) (expression : Option Value) :
    (s.place.steps instrs skip expression).act s = s.steps instrs skip expression := by
  induction instrs generalizing skip expression with
  | nil =>
    cases skip with
    | zero => cases expression <;> rfl
    | succ skip => rfl
  | cons instr rest ih =>
    cases skip with
    | succ skip => exact ih skip expression
    | zero =>
      show (Plan.act s (s.place.step instr expression) >>= fun outcome =>
        Plan.act s (s.place.steps rest outcome.skip outcome.expression) >>= _) = _
      rw [act_step]
      refine bind_congr fun outcome => ?_
      rw [ih]
      rfl

end Place

end Mustache.Render
