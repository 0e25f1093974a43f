import Mustache.Lambda

/-! Lambdas that follow a script: a fixed answer, a series of answers, or a text put together from
parts of which some are rendered. -/
namespace Mustache

inductive Script
  | always (v : Value)
  | fail (message : String)
  /-- One value for each call, the last one ever after. -/
  | series (values : List Value)

def Script.answer (script : Script) (earlier : Nat) : Except Error Value :=
  match script with
  | always v => .ok v
  | fail message => .error { cause := .raised message }
  | series values => .ok ((values[min earlier (values.length - 1)]?).getD .null)

def Script.behaviour (script : Script) : Behaviour :=
  .interpolation script.answer

inductive Part
  | literal (text : String)
  | body
  | renderedBody
  | rendered (source : String)

/-- Adds the parts to the text so far; the first that fails ends the dialogue. -/
def Part.assemble (text : String) : List Part → String → Dialogue
  | [], soFar => .done (.ok (.string soFar))
  | literal more :: rest, soFar => assemble text rest (soFar ++ more)
  | body :: rest, soFar => assemble text rest (soFar ++ text)
  | renderedBody :: rest, soFar => .render text fun
    | .ok more => assemble text rest (soFar ++ more)
    | .error e => .done (.error e)
  | rendered source :: rest, soFar => .render source fun
    | .ok more => assemble text rest (soFar ++ more)
    | .error e => .done (.error e)

inductive EnclosingScript
  | always (v : Value)
  | fail (message : String)
  | parts (sequence : List Part)

def EnclosingScript.dialogue (script : EnclosingScript) (text : String) : Dialogue :=
  match script with
  | always v => .done (.ok v)
  | fail message => .done (.error { cause := .raised message })
  | parts sequence => Part.assemble text sequence ""

def EnclosingScript.behaviour (script : EnclosingScript) : Behaviour :=
  .enclosing fun _ => script.dialogue

end Mustache
