import Mustache.Context
import Mustache.Engine

/-! The machine that runs programs: its state, how a run can stop, and actions that leave the state
as they found it, whether they succeed or not. -/
namespace Mustache.Render

structure Machine where
  frames : Frames
  overlay : Overlay
  /-- How many partials, parents, block arguments and lambda templates are being rendered. -/
  depth : Nat
  /-- Whether the next text starts a line of the template, where an indent is due. -/
  lineStart : Bool
  store : Store

/-- Failures of the machine itself, which no compiled program brings about. -/
inductive Fault
  | noExpression
  | pendingExpression
  | missingSection
  | missingBlock
  | skipTooFar
  | strayArgument
  | noFrame
  /-- Texts that lambdas have rendered are nested too deeply. -/
  | exhausted
  deriving DecidableEq, Repr

inductive Stop
  | error (e : Error)
  | fault (f : Fault)
  deriving DecidableEq

abbrev Act := ExceptT Stop (StateM Machine)

structure Env where
  engine : Engine
  shelves : Shelves
  lambdas : Lambdas

def raise {α : Type} (cause : Cause) : Act α :=
  throw (.error { cause })

def fail {α : Type} (fault : Fault) : Act α :=
  throw (.fault fault)

def ofExcept {α : Type} : Except Error α → Act α
  | .ok a => pure a
  | .error e => throw (.error e)

def inStore {α : Type} (action : StateM Store α) : Act α :=
  modifyGet fun m => let (a, store) := action.run m.store; (a, { m with store })

/-- Errors without a place point at this one. -/
def located {α : Type} (source : String) (span : Span) (action : Act α) : Act α :=
  ExceptT.adapt
    (fun
      | .error e => .error (e.orAt source span)
      | .fault f => .fault f)
    action

/-- The error of an action as a value; a fault still stops the run. -/
def observed {α : Type} (action : Act α) : Act (Except Error α) :=
  ExceptT.mk do
    match ← action.run with
    | .ok a => pure (.ok (.ok a))
    | .error (.error e) => pure (.ok (.error e))
    | .error (.fault f) => pure (.error (.fault f))

/-- Runs the second action after the first one, also when that stops. -/
def andFinally {α : Type} (action : Act α) (cleanup : Act Unit) : Act α :=
  ExceptT.mk do
    let result ← action.run
    match ← cleanup.run with
    | .ok () => pure result
    | .error stop => pure (.error stop)

def popFrame : Act Unit := do
  match (← get).frames with
  | [] => fail .noFrame
  | _ :: outer => modify fun m => { m with frames := outer }

def withFrame {α : Type} (frame : Value) (action : Act α) : Act α := do
  modify fun m => { m with frames := frame :: m.frames }
  andFinally action popFrame

def popOverlay : Act Unit := do
  match (← get).overlay with
  | [] => fail .noFrame
  | _ :: outer => modify fun m => { m with overlay := outer }

def withArguments {α : Type} (given : List (String × Override)) (action : Act α) : Act α := do
  modify fun m => { m with overlay := m.overlay.push given }
  andFinally action popOverlay

/-- Renders something one level deeper, unless the limit is reached. -/
def deeper {α : Type} (limit : Nat) (action : Act α) : Act α := do
  if limit ≤ (← get).depth then raise (.tooDeep limit)
  modify fun m => { m with depth := m.depth + 1 }
  andFinally action (modify fun m => { m with depth := m.depth - 1 })

def keepingLineStart {α : Type} (action : Act α) : Act α := do
  let lineStart := (← get).lineStart
  andFinally action (modify fun m => { m with lineStart })

/-- Runs an action on a copy of the machine, of which only the store is kept. -/
def aside {α : Type} (action : Act α) : Act α := do
  let before ← get
  andFinally action (modify fun m => { before with store := m.store })

def record (call : Call) : Act Nat :=
  inStore do
    let earlier := (← get).callCount call.id
    modify fun store => { store with calls := call :: store.calls }
    pure earlier

def callInterpolation (lambdas : Lambdas) (handle : Lambda) : Act Value := do
  match handle.shape with
  | .interpolation =>
    let earlier ← record (.interpolation handle.id)
    ofExcept (lambdas.interpolation handle.id earlier)
  | .enclosing => raise .sectionInterpolated
  | .filter => raise .filterInterpolated

def callFilter (lambdas : Lambdas) (handle : Lambda) (v : Value) : Act Value := do
  match handle.shape with
  | .interpolation => callInterpolation lambdas handle
  | .enclosing => raise .sectionApplied
  | .filter =>
    let earlier ← record (.filter handle.id v)
    ofExcept (lambdas.filter handle.id earlier v)

/-- Carries on a dialogue until it is done. -/
def converse (render : String → Act String) : Dialogue → Act Value
  | .done result => ofExcept result
  | .render text next => do
    let answer ← observed (render text)
    converse render (next answer)

def callEnclosing (lambdas : Lambdas) (render : String → Act String) (handle : Lambda)
    (text : String) : Act Value := do
  match handle.shape with
  | .interpolation => callInterpolation lambdas handle
  | .enclosing =>
    let earlier ← record (.enclosing handle.id text)
    converse render (lambdas.enclosing handle.id earlier text)
  | .filter => callFilter lambdas handle (.string text)

end Mustache.Render
