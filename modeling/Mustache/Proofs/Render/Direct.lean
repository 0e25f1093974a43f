import Mustache.Proofs.Program.Plain
import Mustache.Render

/-! Templates evaluated from their trees, by recursion and without a machine: what frames, arguments
and depth a part is evaluated with is handed down to it, and every template that is wanted is read
anew. -/
namespace Mustache.Direct

open Markup

/-- What evaluation leaves behind besides its text. -/
structure Trace where
  /-- Whether the next text starts a line of the template. -/
  lineStart : Bool
  /-- The calls so far, the last one first. -/
  calls : List Call

structure Reply (α : Type) where
  outcome : Except Render.Stop α
  trace : Trace
  /-- The sources that were read, in order. -/
  reads : List String

def Eval (α : Type) : Type := Trace → Reply α

def Eval.pure {α : Type} (a : α) : Eval α := fun t => ⟨.ok a, t, []⟩

def Eval.bind {α β : Type} (first : Eval α) (next : α → Eval β) : Eval β := fun t =>
  match (first t).outcome with
  | .ok a =>
    let later := next a (first t).trace
    ⟨later.outcome, later.trace, (first t).reads ++ later.reads⟩
  | .error stop => ⟨.error stop, (first t).trace, (first t).reads⟩

instance : Monad Eval where
  pure := Eval.pure
  bind := Eval.bind

theorem Eval.id_map {α : Type} (x : Eval α) : (Functor.map id x : Eval α) = x := by
  funext t
  show Eval.bind x (fun a => Eval.pure (id a)) t = x t
  unfold Eval.bind Eval.pure
  rcases x t with ⟨outcome, trace, reads⟩
  cases outcome with
  | error stop => rfl
  | ok a => simp

theorem Eval.pure_bind {α β : Type} (a : α) (f : α → Eval β) : Eval.bind (Eval.pure a) f = f a := rfl

theorem Eval.bind_assoc {α β γ : Type} (x : Eval α) (f : α → Eval β) (g : β → Eval γ) :
    Eval.bind (Eval.bind x f) g = Eval.bind x fun a => Eval.bind (f a) g := by
  funext t
  unfold Eval.bind
  cases (x t).outcome with
  | error stop => rfl
  | ok a =>
    dsimp only
    cases (f a (x t).trace).outcome with
    | error stop => rfl
    | ok b => simp only [List.append_assoc]

instance : LawfulMonad Eval :=
  LawfulMonad.mk' Eval Eval.id_map Eval.pure_bind Eval.bind_assoc

def stop {α : Type} (stop : Render.Stop) : Eval α := fun t => ⟨.error stop, t, []⟩

def raise {α : Type} (cause : Cause) : Eval α := stop (.error { cause })

def ofExcept {α : Type} : Except Error α → Eval α
  | .ok a => pure a
  | .error e => stop (.error e)

def observed {α : Type} (action : Eval α) : Eval (Except Error α) := fun t =>
  let reply := action t
  ⟨match reply.outcome with
    | .ok a => .ok (.ok a)
    | .error (.error e) => .ok (.error e)
    | .error (.fault f) => .error (.fault f), reply.trace, reply.reads⟩

def keepingLineStart {α : Type} (action : Eval α) : Eval α := fun t =>
  let reply := action t
  { reply with trace := { reply.trace with lineStart := t.lineStart } }

def fromLineStart {α : Type} (action : Eval α) : Eval α := fun t =>
  action { t with lineStart := true }

def record (call : Call) : Eval Nat := fun t =>
  ⟨.ok (t.calls.countP (·.id == call.id)), { t with calls := call :: t.calls }, []⟩

structure Template where
  source : String
  tree : List Node

/-- A block argument, with the template in which it stands. -/
structure Given where
  template : Template
  body : Occurrence

/-- The data and arguments that are in scope, and how deeply what is evaluated is nested. -/
structure Scope where
  frames : Frames
  overlay : String → Option Given
  depth : Nat

def Scope.push (frame : Value) (scope : Scope) : Scope :=
  { scope with frames := frame :: scope.frames }

/-- The last of the arguments with a name, unless the name has one from further out. -/
def Scope.give (template : Template) (given : List (String × Occurrence)) (scope : Scope) : Scope :=
  { scope with
    overlay := fun name => scope.overlay name <|>
      (given.reverse.find? (·.1 = name)).map fun (_, body) => ⟨template, body⟩ }

/-- Where evaluation is: the template, the places that errors point at, and the indent in force. -/
structure Page where
  template : Template
  place : Span → Span
  indent : String

/-- Whether a section's own name is looked up with the pragmas before it, or with those that its
body switches on as well. -/
inductive Sight
  | early
  | late

def Sight.pragmas (set : Pragmas) (nodes : List Node) : Sight → Pragmas
  | .early => set
  | .late => set.insertAll (Node.pragmasOf nodes)

abbrev Evaluator := Page → Scope → Pragmas → List Node → Eval String

section

variable (env : Render.Env) (sight : Sight) (nested : Evaluator) (page : Page) (scope : Scope)

/-- Of the bodies that read the same, errors point into the first. -/
def placeOf (template : Template) (o : Occurrence) : Span → Span :=
  match (Node.bodiesOf false env.engine.pragmas template.tree).find? fun b =>
      b.role = o.role ∧ b.identity template.source = o.identity template.source with
  | some first => .move o.body.span.start first.body.span.start
  | none => id

def located {α : Type} (span : Span) (action : Eval α) : Eval α := fun t =>
  let reply := action t
  { reply with
    outcome := match reply.outcome with
      | .error (.error e) => .error (.error (e.orAt page.template.source (page.place span)))
      | outcome => outcome }

def textOf (span : Span) (v : Value) : Eval String :=
  match v.text? with
  | .ok text => pure text
  | .error cause => stop (.error (.locatedAt cause page.template.source (page.place span)))

def literal (text : String) : Eval String := fun t =>
  ⟨.ok (if t.lineStart then page.indent ++ text else text),
    { t with lineStart := Render.Stage.endsLine text }, []⟩

def interpolated (text : String) : Eval String := fun t =>
  ⟨.ok (if t.lineStart then page.indent ++ text else text), { t with lineStart := false }, []⟩

def escaped (text : String) : String :=
  match env.engine.escape with
  | some escape => escape text
  | none => Html.escape env.engine.entityFlags text

def callInterpolation (handle : Lambda) : Eval Value := do
  match handle.shape with
  | .interpolation =>
    let earlier ← record (.interpolation handle.id)
    ofExcept (env.lambdas.interpolation handle.id earlier)
  | .enclosing => raise .sectionInterpolated
  | .filter => raise .filterInterpolated

def callFilter (handle : Lambda) (v : Value) : Eval Value := do
  match handle.shape with
  | .interpolation => callInterpolation env handle
  | .enclosing => raise .sectionApplied
  | .filter =>
    let earlier ← record (.filter handle.id v)
    ofExcept (env.lambdas.filter handle.id earlier v)

def converse (render : String → Eval String) : Dialogue → Eval Value
  | .done result => ofExcept result
  | .render text next => do
    let answer ← observed (render text)
    converse render (next answer)

def callEnclosing (render : String → Eval String) (handle : Lambda) (text : String) : Eval Value := do
  match handle.shape with
  | .interpolation => callInterpolation env handle
  | .enclosing =>
    let earlier ← record (.enclosing handle.id text)
    converse render (env.lambdas.enclosing handle.id earlier text)
  | .filter => callFilter env handle (.string text)

def read (source : String) : Eval Template := fun t =>
  ⟨match parse env.engine.pragmas source with
    | .ok tree => .ok ⟨source, tree⟩
    | .error flaw => .error (.error (.locatedAt flaw.cause source flaw.span)), t, [source]⟩

/-- Reads a text that a lambda gave, with the delimiters of a tag in force. -/
def readLambda (changeTag : Option String) (text : String) : Eval Template :=
  read env (match changeTag with
    | some tag => tag ++ "\n" ++ text
    | none => text)

def readPartial (name : String) : Eval (Option Template) := do
  match env.engine.partials.bind (·.load env.shelves name) with
  | some source => return some (← read env source)
  | none => pure none

def whole (template : Template) (indent : String) (scope : Scope) : Eval String :=
  nested ⟨template, id, indent⟩ scope env.engine.pragmas template.tree

def deeper {α : Type} (action : Scope → Eval α) : Eval α :=
  if env.engine.maxDepth ≤ scope.depth then raise (.tooDeep env.engine.maxDepth)
  else action { scope with depth := scope.depth + 1 }

def resolve (span : Span) (v : Value) : Eval Value := do
  match v.callable? env.engine.strictCallables with
  | none => pure v
  | some handle =>
    let result ← located page span (callInterpolation env handle)
    let text ← textOf page span result
    let template ← readLambda env none text
    let rendered ← keepingLineStart (deeper env scope (whole env nested template ""))
    pure (.string rendered)

def apply (set : Pragmas) (span : Span) (v : Value) (filter : String) : Eval Value := do
  match (scope.frames.find (Compile.ref set span filter)).callable? env.engine.strictCallables with
  | none =>
    stop (.error (.locatedAt (.unknownFilter filter) page.template.source (page.place span)))
  | some handle => located page span (callFilter env handle v)

def applyAll (set : Pragmas) (span : Span) (v : Value) : List String → Eval Value
  | [] => pure v
  | filter :: rest => do
    let w ← apply env page scope set span v filter
    applyAll set span w rest

def found (set : Pragmas) (span : Span) (name : Name) : Value :=
  scope.frames.find (Compile.ref set span name.path)

/-- Renders a text for a lambda around a section, as if nothing were written before. -/
def renderFor (o : Occurrence) (text : String) : Eval String :=
  keepingLineStart do
    let template ← readLambda env o.body.delims.changeTag? text
    fromLineStart (whole env nested template "" scope)

/-- Renders what a lambda makes of a section's text: as a template if there is a tag in it. -/
def enclose (o : Occurrence) (handle : Lambda) : Eval String := do
  let span := placeOf env page.template o o.body.span
  let result ← located { page with place := id } span
    (callEnclosing env (renderFor env nested scope o) handle (o.body.span.slice page.template.source))
  let text ← textOf { page with place := id } span result
  if Text.contains o.body.delims.opening text.toList then
    let template ← readLambda env o.body.delims.changeTag? text
    deeper env scope (whole env nested template page.indent)
  else if text.isEmpty then pure ""
  else literal page text

def forFrames (action : Value → Eval String) : List Value → Eval String
  | [] => pure ""
  | frame :: rest => do
    let first ← action frame
    let more ← forFrames action rest
    pure (first ++ more)

def partialCall (name indent : String) : Eval String := do
  match ← readPartial env name with
  | none => pure ""
  | some template => deeper env scope (whole env nested template (page.indent ++ indent))

def parentCall (name indent : String) (given : List (String × Occurrence)) : Eval String := do
  match ← readPartial env name with
  | none => pure ""
  | some template =>
    deeper env scope fun scope =>
      whole env nested template (page.indent ++ indent) (scope.give page.template given)

/-- Evaluates a block argument where it is called for, in the template in which it stands. -/
def override (given : Given) : Eval String :=
  deeper env scope fun scope =>
    nested ⟨given.template, placeOf env given.template given.body, ""⟩ scope given.body.pragmas
      given.body.nodes

end

section

variable (env : Render.Env) (sight : Sight) (nested : Evaluator)

mutual

def node (page : Page) (scope : Scope) (set : Pragmas) : Node → Eval String
  | .literal text => literal page text.content
  | .pragma _ _ => pure ""
  | .variable tag name => do
    let v ← resolve env nested page scope tag.span (found scope set tag.span name)
    let v ← applyAll env page scope set tag.span v name.filters
    let text ← textOf page tag.span v
    interpolated page (if tag.kind = .escaped then escaped env text else text)
  | .partialRef tag => partialCall env nested page scope tag.content tag.indent
  | .region .repeated opening name inner closing => do
    let set' := sight.pragmas set inner
    let v ← applyAll env page scope set' opening.span (found scope set' opening.span name) name.filters
    let o : Occurrence := ⟨.repeated, set, opening, inner, closing⟩
    match v.callable? env.engine.strictCallables with
    | some handle => enclose env nested page scope o handle
    | none =>
      if v.isEmpty then pure ""
      else forFrames (fun frame =>
        nodes { page with place := placeOf env page.template o } (scope.push frame) set inner) v.frames
  | .region .inverted opening name inner _ => do
    let v ← applyAll env page scope set opening.span (found scope set opening.span name) name.filters
    if v.isEmpty then nodes page scope set inner else pure ""
  | .region .parent opening name inner _ =>
    parentCall env nested page scope name.path opening.indent (Node.argumentsOf set inner)
  | .region .slot _ name inner _ =>
    match scope.overlay name.path with
    | some given => override env nested scope given
    | none => nodes page scope set inner
  | .region .argument _ _ _ _ => stop (.fault .strayArgument)
  termination_by structural node => node

def nodes (page : Page) (scope : Scope) (set : Pragmas) : List Node → Eval String
  | [] => pure ""
  | first :: rest => do
    let text ← node page scope set first
    let more ← nodes page scope (set.insertAll first.pragmas) rest
    pure (text ++ more)
  termination_by structural nodes => nodes

end

end

/-- Evaluates nodes in which templates nest less deeply than `levels`. -/
def run (env : Render.Env) (sight : Sight) : Nat → Evaluator
  | 0 => fun _ _ _ _ => stop (.fault .exhausted)
  | levels + 1 => nodes env sight (run env sight levels)

def render (env : Render.Env) (sight : Sight) (template : Template) (context : Value)
    (calls : List Call) : Reply String :=
  let levels := env.engine.maxDepth + Render.lambdaAllowance + 1
  let scope : Scope := ⟨Render.initialFrames env.engine.helpers context, fun _ => none, 0⟩
  whole env (run env sight levels) template "" scope ⟨true, calls⟩

end Mustache.Direct
