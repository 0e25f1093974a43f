import Mustache.Value

/-! What lambdas do. A lambda's answer may depend on how often it was called before; one around a
section answers by a dialogue, in which it may have texts rendered where the section stands. -/
namespace Mustache

inductive Dialogue
  | done (result : Except Error Value)
  | render (text : String) (next : Except Error String → Dialogue)

/-- The answers of all lambdas, by identity and number of earlier calls. -/
structure Lambdas where
  interpolation : Nat → Nat → Except Error Value
  enclosing : Nat → Nat → String → Dialogue
  filter : Nat → Nat → Value → Except Error Value

inductive Behaviour
  | interpolation (answer : Nat → Except Error Value)
  | enclosing (dialogue : Nat → String → Dialogue)
  | filter (answer : Nat → Value → Except Error Value)

def Behaviour.shape : Behaviour → LambdaShape
  | interpolation _ => .interpolation
  | enclosing _ => .enclosing
  | filter _ => .filter

/-- The lambdas of a program, each known by its place. -/
structure Registry where
  behaviours : Array Behaviour := #[]

namespace Registry

def add (behaviour : Behaviour) (registry : Registry) : Lambda × Registry :=
  (⟨behaviour.shape, registry.behaviours.size⟩, ⟨registry.behaviours.push behaviour⟩)

def lambdas (registry : Registry) : Lambdas where
  interpolation id earlier :=
    match registry.behaviours[id]? with
    | some (.interpolation answer) => answer earlier
    | _ => .ok .null
  enclosing id earlier text :=
    match registry.behaviours[id]? with
    | some (.enclosing dialogue) => dialogue earlier text
    | _ => .done (.ok .null)
  filter id earlier v :=
    match registry.behaviours[id]? with
    | some (.filter answer) => answer earlier v
    | _ => .ok v

end Registry
end Mustache
