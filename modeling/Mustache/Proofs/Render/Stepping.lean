import Mustache.Proofs.Render.Parts

/-! Stretches of instructions against the nodes that they are compiled from, whatever comes after
them. -/
namespace Mustache.Render

open Markup Direct

def joined {m : Type → Type} [Monad m] (first more : m String) : m String := do
  let text ← first
  let others ← more
  pure (text ++ others)

section

variable {m : Type → Type} [Monad m] [LawfulMonad m]

theorem map_empty_append (more : m String) : (HAppend.hAppend "" : String → String) <$> more = more := by
  have same : (HAppend.hAppend "" : String → String) = id := funext fun _ => String.empty_append
  rw [same, id_map]

theorem joined_empty (more : m String) : joined (pure "") more = more := by
  simp [joined, map_empty_append]

theorem joined_empty_right (first : m String) : joined first (pure "") = first := by
  simp [joined]

theorem joined_bind {α : Type} (first : m α) (next : α → m String) (more : m String) :
    joined (first >>= next) more = first >>= fun a => joined (next a) more := by
  simp [joined]

theorem joined_assoc (first second third : m String) :
    joined (joined first second) third = joined first (joined second third) := by
  simp only [joined, bind_assoc, pure_bind, String.append_assoc]

end

namespace Stage

variable (s : Stage) (rest : List Instr)

theorem steps_skip (skipped : List Instr) (expression : Option Value) :
    s.steps (skipped ++ rest) skipped.length expression = s.steps rest 0 expression := by
  induction skipped with
  | nil => rfl
  | cons instr more ih => exact ih

theorem steps_cons (instr : Instr) (expression : Option Value) :
    s.steps (instr :: rest) 0 expression = s.step instr expression >>= fun outcome =>
      joined (pure outcome.text) (s.steps rest outcome.skip outcome.expression) := by
  simp only [joined, pure_bind]
  rfl

theorem steps_text (text : String) (expression : Option Value) :
    s.steps (.text text :: rest) 0 expression = joined (s.literal text) (s.steps rest 0 expression) := by
  have stepped : s.step (.text text) expression =
      s.literal text >>= fun text => pure { text, expression } := rfl
  simp [steps_cons, stepped, joined]

theorem steps_lookup (ref : Ref) :
    s.steps (.lookup ref :: rest) 0 none =
      get >>= fun m : Machine => s.steps rest 0 (some (m.frames.find ref)) := by
  have stepped : s.step (.lookup ref) none =
      get >>= fun m : Machine => pure { expression := some (m.frames.find ref) } := rfl
  simp [steps_cons, stepped, joined_empty]

theorem steps_resolve (span : Span) (v : Value) :
    s.steps (.resolve span :: rest) 0 (some v) =
      s.resolve span v >>= fun u => s.steps rest 0 (some u) := by
  have stepped : s.step (.resolve span) (some v) =
      s.resolve span v >>= fun u => pure { expression := some u } := rfl
  simp [steps_cons, stepped, joined_empty]

theorem steps_apply (ref : Ref) (v : Value) :
    s.steps (.apply ref :: rest) 0 (some v) = s.apply ref v >>= fun u => s.steps rest 0 (some u) := by
  have stepped : s.step (.apply ref) (some v) =
      s.apply ref v >>= fun u => pure { expression := some u } := rfl
  simp [steps_cons, stepped, joined_empty]

theorem steps_emit (isEscaped : Bool) (span : Span) (v : Value) :
    s.steps (.emit isEscaped span :: rest) 0 (some v) =
      s.textOf span v >>= fun text =>
        joined (s.interpolated (if isEscaped then s.escaped text else text)) (s.steps rest 0 none) := by
  have stepped : s.step (.emit isEscaped span) (some v) = s.textOf span v >>= fun text =>
      s.interpolated (if isEscaped then s.escaped text else text) >>= fun text =>
        pure { text } := rfl
  simp [steps_cons, stepped, joined]

theorem steps_repeated (key : Key) (v : Value) :
    s.steps (.repeated key :: rest) 0 (some v) =
      joined (s.repeated key v) (s.steps rest 0 none) := by
  have stepped : s.step (.repeated key) (some v) =
      s.repeated key v >>= fun text => pure { text } := rfl
  simp [steps_cons, stepped, joined]

theorem steps_unlessEmpty (skip : Nat) (v : Value) :
    s.steps (.unlessEmpty skip :: rest) 0 (some v) =
      s.steps rest (if v.isEmpty then 0 else skip) none := by
  have stepped : s.step (.unlessEmpty skip) (some v) =
      pure { skip := if v.isEmpty then 0 else skip } := rfl
  simp [steps_cons, stepped, joined_empty]

theorem steps_partialCall (name indent : String) (expression : Option Value) :
    s.steps (.partialCall name indent :: rest) 0 expression =
      joined (s.partialCall name indent) (s.steps rest 0 expression) := by
  have stepped : s.step (.partialCall name indent) expression =
      s.partialCall name indent >>= fun text => pure { text, expression } := rfl
  simp [steps_cons, stepped, joined]

theorem steps_parentCall (name indent : String) (given : List (String × Key))
    (expression : Option Value) :
    s.steps (.parentCall name indent given :: rest) 0 expression =
      joined (s.parentCall name indent given) (s.steps rest 0 expression) := by
  have stepped : s.step (.parentCall name indent given) expression =
      s.parentCall name indent given >>= fun text => pure { text, expression } := rfl
  simp [steps_cons, stepped, joined]

theorem steps_strayArgument (name : String) (expression : Option Value) :
    s.steps (.strayArgument name :: rest) 0 expression = fail .strayArgument := by
  have stepped : s.step (.strayArgument name) expression = fail .strayArgument := rfl
  rw [steps_cons, stepped]
  rfl

theorem steps_slot (name : String) (skip : Nat) (expression : Option Value) :
    s.steps (.slot name skip :: rest) 0 expression = s.slot name >>= fun found =>
      match found with
      | some text => joined (pure text) (s.steps rest skip expression)
      | none => s.steps rest 0 expression := by
  have stepped : s.step (.slot name skip) expression = s.slot name >>= fun found =>
      match found with
      | some text => pure { text, expression, skip }
      | none => pure { expression } := rfl
  rw [steps_cons, stepped, bind_assoc]
  apply bind_congr
  intro found
  cases found with
  | some text => simp only [pure_bind]
  | none => simp only [pure_bind, joined_empty]

end Stage
end Mustache.Render
