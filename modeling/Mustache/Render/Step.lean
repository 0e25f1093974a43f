import Mustache.Render.Machine

/-! One instruction of a program: the text that it contributes, the expression that it leaves for
the instructions after it, and how many of those it skips. -/
namespace Mustache.Render

structure Outcome where
  text : String := ""
  expression : Option Value := none
  skip : Nat := 0

abbrev Runner := Program → List Instr → String → Act String

/-- Where an instruction stands: its program, the indent in force, and how to run the body of a
section and what is nested one level deeper. -/
structure Stage where
  env : Env
  program : Program
  indent : String
  body : Section → Act String
  nested : Runner

namespace Stage

def endsLine (text : String) : Bool :=
  text.toList.getLast? == some '\n'

/-- Text of a template, after the indent if it starts a line. -/
def literal (s : Stage) (text : String) : Act String := do
  let m ← get
  set { m with lineStart := endsLine text }
  pure (if m.lineStart then s.indent ++ text else text)

/-- Text of a value, after the indent if it starts a line; it never ends one. -/
def interpolated (s : Stage) (text : String) : Act String := do
  let m ← get
  set { m with lineStart := false }
  pure (if m.lineStart then s.indent ++ text else text)

def textOf (s : Stage) (span : Span) (v : Value) : Act String :=
  match v.text? with
  | .ok text => pure text
  | .error cause => throw (.error (.locatedAt cause s.program.source span))

def escaped (s : Stage) (text : String) : String :=
  match s.program.escape, s.env.engine.escape with
  | .custom, some escape => escape text
  | .html flags, _ => Html.escape flags text
  | .custom, none => Html.escape s.env.engine.entityFlags text

/-- Runs a whole program one level deeper. -/
def invoke (s : Stage) (program : Program) (indent : String) : Act String :=
  deeper s.env.engine.maxDepth (s.nested program program.instrs indent)

def fetchLambda (s : Stage) (changeTag : Option String) (text : String) : Act Program := do
  ofExcept (← inStore (s.env.engine.fetchLambda changeTag text))

/-- Replaces a lambda by what its result renders to, apart from the lines around it. -/
def resolve (s : Stage) (span : Span) (v : Value) : Act Value := do
  match v.callable? s.program.strictCallables with
  | none => pure v
  | some handle =>
    let result ← located s.program.source span (callInterpolation s.env.lambdas handle)
    let text ← s.textOf span result
    let program ← s.fetchLambda none text
    let rendered ← keepingLineStart (s.invoke program "")
    pure (.string rendered)

def apply (s : Stage) (ref : Ref) (v : Value) : Act Value := do
  match ((← get).frames.find ref).callable? s.program.strictCallables with
  | none => throw (.error (.locatedAt (.unknownFilter ref.name) s.program.source ref.span))
  | some handle => located s.program.source ref.span (callFilter s.env.lambdas handle v)

/-- Renders a text for a lambda around a section, as if nothing were written before. -/
def renderFor (s : Stage) (sec : Section) (text : String) : Act String :=
  aside do
    let program ← s.fetchLambda sec.changeTag text
    modify fun m => { m with lineStart := true }
    s.nested program program.instrs ""

/-- Renders what a lambda makes of a section's text: as a template if there is a tag in it. -/
def enclose (s : Stage) (sec : Section) (handle : Lambda) : Act String := do
  let result ← located s.program.source sec.span
    (callEnclosing s.env.lambdas (s.renderFor sec) handle sec.text)
  let text ← s.textOf sec.span result
  if Text.contains sec.opening text.toList then
    let program ← s.fetchLambda sec.changeTag text
    s.invoke program s.indent
  else if text.isEmpty then pure ""
  else s.literal text

def forFrames (action : Act String) : List Value → Act String
  | [] => pure ""
  | frame :: rest => do
    let first ← withFrame frame action
    let more ← forFrames action rest
    pure (first ++ more)

def repeated (s : Stage) (key : Key) (v : Value) : Act String := do
  match Entries.get? key s.program.sections with
  | none => fail .missingSection
  | some sec =>
    match v.callable? s.program.strictCallables with
    | some handle => s.enclose sec handle
    | none => if v.isEmpty then pure "" else forFrames (s.body sec) v.frames

def fetchPartial (s : Stage) (name : String) : Act (Option Program) := do
  ofExcept (← inStore (s.env.engine.fetchPartial s.env.shelves name))

/-- A partial that does not exist renders nothing. -/
def partialCall (s : Stage) (name indent : String) : Act String := do
  match ← s.fetchPartial name with
  | none => pure ""
  | some program => s.invoke program (s.indent ++ indent)

/-- The arguments of a parent, of two with one name the last. -/
def overrides (s : Stage) (given : List (String × Key)) : List (String × Override) :=
  Entries.ofList (given.map fun (name, key) => (name, ⟨s.program, key⟩))

def parentCall (s : Stage) (name indent : String) (given : List (String × Key)) : Act String := do
  match ← s.fetchPartial name with
  | none => pure ""
  | some program =>
    deeper s.env.engine.maxDepth
      (withArguments (s.overrides given) (s.nested program program.instrs (s.indent ++ indent)))

/-- The argument given for a block, rendered without an indent. -/
def slot (s : Stage) (name : String) : Act (Option String) := do
  match (← get).overlay.find? name with
  | none => pure none
  | some override =>
    match Entries.get? override.key override.program.blocks with
    | none => fail .missingBlock
    | some instrs =>
      let text ← deeper s.env.engine.maxDepth (s.nested override.program instrs "")
      pure (some text)

def step (s : Stage) (instr : Instr) (expression : Option Value) : Act Outcome := do
  match instr, expression with
  | .text text, expression => pure { text := ← s.literal text, expression }
  | .lookup ref, none => pure { expression := some ((← get).frames.find ref) }
  | .lookup _, some _ => fail .pendingExpression
  | .resolve span, some v => pure { expression := some (← s.resolve span v) }
  | .apply ref, some v => pure { expression := some (← s.apply ref v) }
  | .emit isEscaped span, some v =>
    let text ← s.textOf span v
    pure { text := ← s.interpolated (if isEscaped then s.escaped text else text) }
  | .repeated key, some v => pure { text := ← s.repeated key v }
  | .unlessEmpty skip, some v => pure { skip := if v.isEmpty then 0 else skip }
  | .resolve _, none | .apply _, none | .emit _ _, none | .repeated _, none
  | .unlessEmpty _, none => fail .noExpression
  | .partialCall name indent, expression =>
    pure { text := ← s.partialCall name indent, expression }
  | .parentCall name indent given, expression =>
    pure { text := ← s.parentCall name indent given, expression }
  | .slot name skip, expression =>
    match ← s.slot name with
    | some text => pure { text, expression, skip }
    | none => pure { expression }
  | .strayArgument _, _ => fail .strayArgument

/-- Runs instructions one after another, the first `skip` of them left out. -/
def steps (s : Stage) : List Instr → Nat → Option Value → Act String
  | [], 0, none => pure ""
  | [], 0, some _ => fail .pendingExpression
  | [], _ + 1, _ => fail .skipTooFar
  | _ :: rest, skip + 1, expression => steps s rest skip expression
  | instr :: rest, 0, expression => do
    let outcome ← s.step instr expression
    let more ← steps s rest outcome.skip outcome.expression
    pure (outcome.text ++ more)

end Stage
end Mustache.Render
