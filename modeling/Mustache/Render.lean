import Mustache.Render.Step

/-! Rendering: a program run against the helpers of an engine and a context. Bodies of sections
nest no deeper than their source is long; what else is nested is limited by the engine. -/
namespace Mustache.Render

/-- Runs instructions in which bodies of sections nest less deeply than `budget`. -/
def runBody (env : Env) (nested : Runner) (program : Program) (indent : String) :
    Nat → List Instr → Act String
  | 0, _ => fail .exhausted
  | budget + 1, instrs =>
    let body (sec : Section) := runBody env nested program indent budget sec.instrs
    Stage.steps ⟨env, program, indent, body, nested⟩ instrs 0 none

/-- Runs instructions in which programs nest less deeply than `levels`. -/
def run (env : Env) : Nat → Runner
  | 0 => fun _ _ _ => fail .exhausted
  | levels + 1 => fun program instrs indent =>
    runBody env (run env levels) program indent (program.source.length + 2) instrs

/-- How deeply texts that lambdas have rendered may nest on top of the engine's own limit. -/
def lambdaAllowance : Nat := 4096

/-- The frames that a render starts with; empty ones are left out. -/
def initialFrames (helpers : List (String × Value)) (context : Value) : Frames :=
  (if context.isEmpty then [] else [context]) ++ (if helpers.isEmpty then [] else [.map helpers])

def initial (env : Env) (context : Value) (store : Store) : Machine where
  frames := initialFrames env.engine.helpers context
  overlay := []
  depth := 0
  lineStart := true
  store := store

/-- The output of a program, or what stopped it. -/
def render (env : Env) (program : Program) (context : Value) : StateM Store (Except Stop String) :=
  fun store =>
    let levels := env.engine.maxDepth + lambdaAllowance + 1
    let (result, m) := (run env levels program program.instrs "").run.run (initial env context store)
    (result, m.store)

end Mustache.Render
