import Mustache.Proofs.Render.Tables

/-! The parts of a step against direct evaluation, given that whatever is nested one level deeper
runs as it is evaluated. -/
namespace Mustache.Render

open Markup Direct

/-- Programs run as the nodes that they are made of are evaluated. -/
def Runs (w : World) (run : Runner) (nested : Evaluator) : Prop :=
  ∀ program page scope set nodes, Mirrors w program page.template →
    Within w page.template set nodes →
    Simulates w Eq scope
      (run program ((Compile.plainOf page.template.source set nodes).map (Instr.respan page.place))
        page.indent)
      (nested page scope set nodes)

/-- The body that a table holds for a section runs as the section's own nodes are evaluated. -/
def Fills (w : World) (s : Stage) (page : Page) (nested : Evaluator) (o : Occurrence) : Prop :=
  ∀ sec scope, Filed w page.template o sec →
    Simulates w Eq scope (s.body sec)
      (Direct.nodes w.env w.sight nested { page with place := placeOf w.env page.template o } scope
        o.pragmas o.nodes)

structure Staged (w : World) (s : Stage) (page : Page) (nested : Evaluator) : Prop where
  env : s.env = w.env
  mirrors : Mirrors w s.program page.template
  indent : s.indent = page.indent
  runs : Runs w s.nested nested

theorem Staged.escaped {w : World} {s : Stage} {page : Page} {nested : Evaluator}
    (staged : Staged w s page nested) (text : String) :
    s.escaped text = Direct.escaped w.env text := by
  unfold Stage.escaped Direct.escaped
  rw [staged.mirrors.told.escape, staged.env]
  dsimp only [Engine.dialect, Engine.escapeMode]
  cases w.env.engine.escape <;> rfl

theorem map_respan_id (instrs : List Instr) : instrs.map (Instr.respan id) = instrs := by
  have same : Instr.respan id = id := by
    funext instr
    cases instr <;> rfl
  rw [same, List.map_id]

theorem inStore_map {α β : Type} (action : StateM Store (Except Error α)) (f : α → β) :
    (do ofExcept (← inStore do return (← action).map f) : Act β) =
      (do
        let a ← (do ofExcept (← inStore action) : Act α)
        pure (f a)) := by
  apply ExceptT.ext
  funext m
  have answered : (do ofExcept (← inStore action) : Act α).run.run m =
      (ofExcept (action.run m.store).1).run.run { m with store := (action.run m.store).2 } := rfl
  show (ofExcept ((action.run m.store).1.map f)).run.run { m with store := (action.run m.store).2 } =
    StateT.run (ExceptT.run _) m
  rw [run_bind, answered]
  cases (action.run m.store).1 <;> rfl

theorem Runs.whole {w : World} {scope : Scope} {runner : Runner} {nested : Evaluator}
    (runs : Runs w runner nested) {program : Program} {template : Template}
    (mirrors : Mirrors w program template) (indent : String) :
    Simulates w Eq scope (runner program program.instrs indent)
      (Direct.whole w.env nested template indent scope) := by
  have entire := runs program ⟨template, id, indent⟩ scope w.env.engine.pragmas template.tree mirrors
    (.whole w template)
  rw [map_respan_id] at entire
  rw [mirrors.told.instrs]
  exact entire

namespace Simulates

variable {w : World} {scope : Scope} {s : Stage} {page : Page} {nested : Evaluator}

theorem callInterpolation (handle : Lambda) :
    Simulates w Eq scope (Render.callInterpolation w.env.lambdas handle)
      (Direct.callInterpolation w.env handle) := by
  unfold Render.callInterpolation Direct.callInterpolation
  cases handle.shape with
  | interpolation =>
    apply (Simulates.record _).bind
    rintro earlier _ rfl
    exact .ofExcept _
  | enclosing => exact .stop _
  | filter => exact .stop _

theorem callFilter (handle : Lambda) (v : Value) :
    Simulates w Eq scope (Render.callFilter w.env.lambdas handle v)
      (Direct.callFilter w.env handle v) := by
  unfold Render.callFilter Direct.callFilter
  cases handle.shape with
  | interpolation => exact .callInterpolation handle
  | enclosing => exact .stop _
  | filter =>
    apply (Simulates.record _).bind
    rintro earlier _ rfl
    exact .ofExcept _

theorem converse {render : String → Act String} {render' : String → Eval String}
    (texts : ∀ text, Simulates w Eq scope (render text) (render' text)) (dialogue : Dialogue) :
    Simulates w Eq scope (Render.converse render dialogue) (Direct.converse render' dialogue) := by
  induction dialogue with
  | done result => exact .ofExcept result
  | render text next ih =>
    apply (Simulates.observed (texts text)).bind
    rintro answer _ rfl
    exact ih answer

theorem callEnclosing {render : String → Act String} {render' : String → Eval String}
    (texts : ∀ text, Simulates w Eq scope (render text) (render' text)) (handle : Lambda)
    (text : String) :
    Simulates w Eq scope (Render.callEnclosing w.env.lambdas render handle text)
      (Direct.callEnclosing w.env render' handle text) := by
  unfold Render.callEnclosing Direct.callEnclosing
  cases handle.shape with
  | interpolation => exact .callInterpolation handle
  | enclosing =>
    apply (Simulates.record _).bind
    rintro earlier _ rfl
    exact .converse texts _
  | filter => exact .callFilter handle _

theorem forFrames {action : Act String} {eval : Value → Eval String}
    (each : ∀ frame, Simulates w Eq (scope.push frame) action (eval frame)) (frames : List Value) :
    Simulates w Eq scope (Stage.forFrames action frames) (Direct.forFrames eval frames) := by
  induction frames with
  | nil => exact .pure rfl
  | cons frame rest ih =>
    apply (Simulates.withFrame frame (each frame)).bind
    rintro first _ rfl
    apply ih.bind
    rintro more _ rfl
    exact .pure rfl

section

variable (staged : Staged w s page nested)

include staged

theorem invoke {program : Program} {template : Template} (mirrors : Mirrors w program template)
    (indent : String) :
    Simulates w Eq scope (s.invoke program indent)
      (Direct.deeper w.env scope (Direct.whole w.env nested template indent)) := by
  unfold Stage.invoke
  rw [staged.env]
  exact .deeper (staged.runs.whole mirrors indent)

theorem fetchLambda (changeTag : Option String) (text : String) :
    Simulates w (Mirrors w) scope (s.fetchLambda changeTag text)
      (Direct.readLambda w.env changeTag text) := by
  unfold Stage.fetchLambda
  rw [staged.env]
  exact .fetch .lambda _

theorem fetchPartial (name : String) :
    Simulates w (Option.Rel (Mirrors w)) scope (s.fetchPartial name)
      (Direct.readPartial w.env name) := by
  unfold Stage.fetchPartial Direct.readPartial Engine.fetchPartial
  rw [staged.env]
  cases w.env.engine.partials.bind (·.load w.env.shelves name) with
  | none => exact .pure .none
  | some source =>
    dsimp only
    rw [inStore_map]
    apply (Simulates.fetch _ _).bind
    intro program template mirrors
    exact .pure (.some mirrors)

theorem textOf (span : Span) (v : Value) :
    Simulates w Eq scope (s.textOf (page.place span) v) (Direct.textOf page span v) := by
  unfold Stage.textOf Direct.textOf
  cases v.text? with
  | ok text => exact .pure rfl
  | error cause =>
    rw [staged.mirrors.told.sameSource]
    exact .stop _

theorem resolve (span : Span) (v : Value) :
    Simulates w Eq scope (s.resolve (page.place span) v)
      (Direct.resolve w.env nested page scope span v) := by
  unfold Stage.resolve Direct.resolve
  rw [staged.mirrors.told.strictCallables, staged.env]
  dsimp only [Engine.dialect]
  cases v.callable? w.env.engine.strictCallables with
  | none => exact .pure rfl
  | some handle =>
    rw [staged.mirrors.told.sameSource]
    apply (Simulates.located page span (.callInterpolation handle)).bind
    rintro result _ rfl
    apply (Simulates.textOf staged span result).bind
    rintro text _ rfl
    apply (Simulates.fetchLambda staged none text).bind
    intro program template mirrors
    apply (Simulates.keepingLineStart (.invoke staged mirrors "")).bind
    rintro rendered _ rfl
    exact .pure rfl

theorem apply (set : Pragmas) (span : Span) (filter : String) (v : Value) :
    Simulates w Eq scope (s.apply ((Compile.ref set span filter).respan page.place) v)
      (Direct.apply w.env page scope set span v filter) := by
  unfold Stage.apply Direct.apply
  apply Simulates.get
  intro m t related
  have found : m.frames.find ((Compile.ref set span filter).respan page.place) =
      scope.frames.find (Compile.ref set span filter) := by
    rw [related.frames]
    rfl
  rw [found, staged.mirrors.told.strictCallables, staged.mirrors.told.sameSource, staged.env]
  dsimp only [Engine.dialect]
  cases (scope.frames.find (Compile.ref set span filter)).callable? w.env.engine.strictCallables with
  | none => exact .stop _
  | some handle => exact .located page span (.callFilter handle v)

theorem renderFor {o : Occurrence} {sec : Section} (filed : Filed w page.template o sec)
    (text : String) :
    Simulates w Eq scope (s.renderFor sec text) (Direct.renderFor w.env nested scope o text) := by
  unfold Stage.renderFor Direct.renderFor
  rw [filed.changeTag]
  apply Simulates.aside
  apply (Simulates.fetchLambda staged _ text).bind
  intro program template mirrors
  exact .fromLineStart (staged.runs.whole mirrors "")

theorem enclose {o : Occurrence} {sec : Section} (filed : Filed w page.template o sec)
    (handle : Lambda) :
    Simulates w Eq scope (s.enclose sec handle) (Direct.enclose w.env nested page scope o handle) := by
  have still : Staged w s { page with place := id } nested := ⟨staged.env, staged.mirrors, staged.indent, staged.runs⟩
  unfold Stage.enclose Direct.enclose
  rw [filed.span, filed.text, filed.opening, filed.changeTag, staged.mirrors.told.sameSource, staged.env,
    ← staged.indent]
  apply (Simulates.located { page with place := id } _
    (.callEnclosing (fun text => .renderFor staged filed text) handle _)).bind
  rintro result _ rfl
  apply (Simulates.textOf still _ result).bind
  rintro text _ rfl
  split
  · apply (Simulates.fetchLambda staged _ text).bind
    intro program template mirrors
    exact .invoke staged mirrors _
  · split
    · exact .pure rfl
    · exact .literal staged.indent text

theorem partialCall (name indent : String) :
    Simulates w Eq scope (s.partialCall name indent)
      (Direct.partialCall w.env nested page scope name indent) := by
  unfold Stage.partialCall Direct.partialCall
  rw [← staged.indent]
  apply (Simulates.fetchPartial staged name).bind
  intro program template mirrors
  cases mirrors with
  | none => exact .pure rfl
  | some mirrors => exact .invoke staged mirrors _

/-- The arguments of a parent, on top of those from further out. -/
theorem stands_give (outer : Overlay)
    (related : ∀ name, Option.Rel (Stands w) (outer.find? name) (scope.overlay name))
    {given : List (String × Occurrence)}
    (members : ∀ name o, (name, o) ∈ given →
      o ∈ Node.bodiesOf false w.env.engine.pragmas page.template.tree ∧ o.role = .argument)
    (name : String) :
    Option.Rel (Stands w)
      ((outer.push (s.overrides
        (given.map fun (name, o) => (name, o.key page.template.source)))).find? name)
      ((scope.give page.template given).overlay name) := by
  have pushed := Overlay.find?_push outer
    (s.overrides (given.map fun (name, o) => (name, o.key page.template.source))) name
  rw [pushed]
  dsimp only [Scope.give]
  have before := related name
  generalize outer.find? name = found at before ⊢
  generalize scope.overlay name = expected at before ⊢
  cases before with
  | some stands => exact .some stands
  | none =>
    unfold Stage.overrides
    rw [Entries.get?_ofList, List.map_map, ← List.map_reverse, List.find?_map, Option.map_map]
    show Option.Rel _ (((given.reverse.find? fun entry => entry.1 = name).map _)) _
    cases last : given.reverse.find? fun entry => entry.1 = name with
    | none => exact .none
    | some entry =>
      have there := List.mem_reverse.1 (List.mem_of_find?_eq_some last)
      obtain ⟨member, role⟩ := members _ _ there
      exact .some ⟨staged.mirrors, member, role, rfl⟩

theorem parentCall (name indent : String) {given : List (String × Occurrence)}
    (members : ∀ name o, (name, o) ∈ given →
      o ∈ Node.bodiesOf false w.env.engine.pragmas page.template.tree ∧ o.role = .argument) :
    Simulates w Eq scope
      (s.parentCall name indent (given.map fun (name, o) => (name, o.key page.template.source)))
      (Direct.parentCall w.env nested page scope name indent given) := by
  unfold Stage.parentCall Direct.parentCall
  rw [← staged.indent, staged.env]
  apply (Simulates.fetchPartial staged name).bind
  intro program template mirrors
  cases mirrors with
  | none => exact .pure rfl
  | @some program template mirrors =>
    apply Simulates.deeper
    have inner : Simulates w Eq ({ scope with depth := scope.depth + 1 }.give page.template given)
        (s.nested program program.instrs (s.indent ++ indent))
        (Direct.whole w.env nested template (s.indent ++ indent) _) := staged.runs.whole mirrors _
    refine .withArguments _ ?_ ?_ ?_ inner
    · rfl
    · rfl
    · intro outer related name
      exact stands_give staged outer related members name

theorem override {given : Given} {override : Override} (stands : Stands w override given) :
    ∃ instrs, Entries.get? override.key override.program.blocks = some instrs ∧
      Simulates w Eq scope
        (Render.deeper w.env.engine.maxDepth (s.nested override.program instrs ""))
        (Direct.override w.env nested scope given) := by
  obtain ⟨instrs, stored, same⟩ := stands.mirrors.exists_block stands.member stands.role
  rw [← stands.key] at stored
  refine ⟨instrs, stored, ?_⟩
  unfold Direct.override
  apply Simulates.deeper
  rw [same]
  exact staged.runs override.program ⟨given.template, _, ""⟩ _ _ _ stands.mirrors
    (.of_mem stands.member)

theorem slot_given {name : String} {given : Given} (present : scope.overlay name = some given) :
    Simulates w (fun found text => found = some text) scope (s.slot name)
      (Direct.override w.env nested scope given) := by
  unfold Stage.slot
  apply Simulates.get
  intro m t related
  have found := related.overlay name
  rw [present] at found
  generalize m.overlay.find? name = override at found ⊢
  cases found with
  | some stands =>
    obtain ⟨instrs, stored, simulates⟩ := Simulates.override staged stands
    dsimp only
    rw [stored, staged.env]
    rw [← bind_pure (Direct.override w.env nested scope given)]
    apply simulates.bind
    rintro text _ rfl
    exact .pure rfl

omit staged in
theorem slot_absent {name : String} (absent : scope.overlay name = none)
    {next : Option String → Act String} {eval : Eval String}
    (later : Simulates w Eq scope (next none) eval) :
    Simulates w Eq scope (s.slot name >>= next) eval := by
  unfold Stage.slot
  rw [bind_assoc]
  apply Simulates.get
  intro m t related
  have found := related.overlay name
  rw [absent] at found
  generalize m.overlay.find? name = override at found ⊢
  cases found with
  | none => exact later

theorem repeats {o : Occurrence}
    (member : o ∈ Node.bodiesOf false w.env.engine.pragmas page.template.tree)
    (role : o.role = .repeated) (fills : Fills w s page nested o) (v : Value) :
    Simulates w Eq scope (s.repeated (o.key page.template.source) v)
      (match v.callable? w.env.engine.strictCallables with
      | some handle => Direct.enclose w.env nested page scope o handle
      | none =>
        if v.isEmpty then Pure.pure ""
        else Direct.forFrames (fun frame =>
          Direct.nodes w.env w.sight nested { page with place := placeOf w.env page.template o }
            (scope.push frame) o.pragmas o.nodes) v.frames) := by
  obtain ⟨sec, stored, filed⟩ := staged.mirrors.exists_section member role
  unfold Stage.repeated
  rw [stored, staged.mirrors.told.strictCallables]
  dsimp only [Engine.dialect]
  cases v.callable? w.env.engine.strictCallables with
  | some handle => exact .enclose staged filed handle
  | none =>
    dsimp only
    split
    · exact .pure rfl
    · exact .forFrames (fun frame => fills sec _ filed) _

end

end Simulates
end Mustache.Render
