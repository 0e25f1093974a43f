import Mustache.Proofs.Inert
import Mustache.Proofs.Markup.Appended
import Mustache.Proofs.Render.Stepping

/-! Evaluation with data that has no lambdas. What a part of a template evaluates to depends neither
on where it stands nor on what was evaluated before it, as long as no indent is in force. -/
namespace Mustache

/-- A stop without the place that it points at: a fault, or the kind and message of an error. -/
def Render.Stop.unplaced : Render.Stop → Render.Stop
  | .error e => .error { cause := e.cause }
  | .fault f => .fault f

namespace Direct

open Markup

/-- Evaluations of one outcome, places aside, that read the same sources, whatever was evaluated
before them. All that is read is involved. -/
def Alike {α : Type} (involved : String → Prop) (x y : Eval α) : Prop :=
  ∀ t t', (∀ source ∈ (x t).reads, involved source) →
    (x t).outcome.mapError Render.Stop.unplaced = (y t').outcome.mapError Render.Stop.unplaced ∧
      (x t).reads = (y t').reads

namespace Alike

variable {involved : String → Prop} {env : Render.Env} {α β : Type}

theorem pure (a : α) : Alike involved (Pure.pure a) (Pure.pure a) := fun _ _ _ => ⟨rfl, rfl⟩

theorem stop {first second : Render.Stop} (same : first.unplaced = second.unplaced) :
    Alike involved (Direct.stop first : Eval α) (Direct.stop second) :=
  fun _ _ _ => ⟨congrArg Except.error same, rfl⟩

theorem bind {x y : Eval α} {next next' : α → Eval β} (first : Alike involved x y)
    (later : ∀ a, Alike involved (next a) (next' a)) :
    Alike involved (x >>= next) (y >>= next') := by
  intro t t' among
  have unfolded (x : Eval α) (next : α → Eval β) : x >>= next = Eval.bind x next := rfl
  have start := first t t'
  rw [unfolded] at among ⊢
  rw [unfolded]
  unfold Eval.bind at among ⊢
  generalize x t = reply at among start ⊢
  generalize y t' = reply' at start ⊢
  obtain ⟨outcome, trace, reads⟩ := reply
  obtain ⟨outcome', trace', reads'⟩ := reply'
  cases outcome with
  | error stop =>
    obtain ⟨same, rfl⟩ := start among
    cases outcome' with
    | error stop' => exact ⟨congrArg Except.error (Except.error.inj same), rfl⟩
    | ok b => cases same
  | ok a =>
    obtain ⟨same, rfl⟩ := start fun source member => among source (List.mem_append_left _ member)
    cases outcome' with
    | error stop' => cases same
    | ok b =>
      obtain rfl := Except.ok.inj same
      obtain ⟨same', reads'⟩ := later a trace trace' fun source member =>
        among source (List.mem_append_right _ member)
      exact ⟨same', congrArg (reads ++ ·) reads'⟩

theorem joined {x y more more' : Eval String} (first : Alike involved x y)
    (later : Alike involved more more') :
    Alike involved (Render.joined x more) (Render.joined y more') :=
  first.bind fun text => later.bind fun others => .pure (text ++ others)

/-- What is evaluated second may as well be evaluated by itself. -/
theorem apart (first : Eval String) {second : Eval String} (alike : Alike involved second second)
    (t t' : Trace) (among : ∀ source ∈ (second t').reads, involved source) :
    ((Render.joined first second t).outcome.mapError Render.Stop.unplaced = do
      let text ← (first t).outcome.mapError Render.Stop.unplaced
      let more ← (second t').outcome.mapError Render.Stop.unplaced
      Pure.pure (text ++ more)) ∧
    ∀ source ∈ (Render.joined first second t).reads,
      source ∈ (first t).reads ∨ source ∈ (second t').reads := by
  have unfolded : Render.joined first second =
      Eval.bind first fun text => Eval.bind second fun more => Eval.pure (text ++ more) := rfl
  rw [unfolded]
  unfold Eval.bind Eval.pure
  generalize first t = reply
  obtain ⟨_ | text, trace, reads⟩ := reply
  · exact ⟨rfl, fun source member => .inl member⟩
  · obtain ⟨same, reads'⟩ := alike t' trace among
    dsimp only
    rw [same, reads']
    generalize second trace = reply
    obtain ⟨_ | more, trace', reads''⟩ := reply
    · exact ⟨rfl, fun source member => List.mem_append.1 member⟩
    · refine ⟨rfl, fun source member => ?_⟩
      rw [List.append_nil] at member
      exact List.mem_append.1 member

/-- A source that is read twice has one tree. -/
theorem read_bind (source : String) {next next' : Template → Eval α}
    (later : involved source → ∀ tree, parse env.engine.pragmas source = .ok tree →
      Alike involved (next ⟨source, tree⟩) (next' ⟨source, tree⟩)) :
    Alike involved (read env source >>= next) (read env source >>= next') := by
  have unfolded (next : Template → Eval α) (t : Trace) :
      (read env source >>= next) t = Eval.bind (read env source) next t := rfl
  intro t t' among
  rw [unfolded] at among ⊢
  rw [unfolded]
  unfold Eval.bind read at among ⊢
  cases parsed : parse env.engine.pragmas source with
  | error flaw => exact ⟨rfl, rfl⟩
  | ok tree =>
    rw [parsed] at among
    obtain ⟨same, reads⟩ := later (among source List.mem_cons_self) tree parsed t t'
      fun other member => among other (List.mem_cons_of_mem source member)
    exact ⟨same, congrArg (source :: ·) reads⟩

end Alike

/-! ### Scopes -/

/-- Block arguments of the same nodes, wherever these stand. -/
structure Given.Alike (given given' : Given) : Prop where
  nodes : ∃ offset, given'.body.nodes = Node.shiftAll offset given.body.nodes
  pragmas : given.body.pragmas = given'.body.pragmas
  flush : Node.Flush given.body.nodes

/-- Scopes of the same data, without lambdas. -/
structure Scope.Alike (scope scope' : Scope) : Prop where
  frames : scope.frames = scope'.frames
  inert : scope.frames.Inert
  depth : scope.depth = scope'.depth
  overlay : ∀ name, Option.Rel Given.Alike (scope.overlay name) (scope'.overlay name)

namespace Scope.Alike

variable {scope scope' : Scope}

theorem inert' (alike : scope.Alike scope') : scope'.frames.Inert := by
  rw [← alike.frames]
  exact alike.inert

theorem push (alike : scope.Alike scope') {frame : Value} (inert : frame.Inert) :
    (scope.push frame).Alike (scope'.push frame) where
  frames := congrArg (frame :: ·) alike.frames
  inert := by
    intro other member
    rcases List.mem_cons.1 member with rfl | outer
    · exact inert
    · exact alike.inert other outer
  depth := alike.depth
  overlay := alike.overlay

theorem deeper (alike : scope.Alike scope') :
    ({ scope with depth := scope.depth + 1 } : Scope).Alike
      { scope' with depth := scope'.depth + 1 } where
  frames := alike.frames
  inert := alike.inert
  depth := congrArg (· + 1) alike.depth
  overlay := alike.overlay

theorem found (alike : scope.Alike scope') (set : Pragmas) (span span' : Span) (name : Name) :
    Direct.found scope set span name = Direct.found scope' set span' name := by
  unfold Direct.found
  rw [alike.frames]
  rfl

theorem give (alike : scope.Alike scope') (template template' : Template) (set : Pragmas)
    (offset : Nat) {nodes : List Node} (flush : Node.Flush nodes) :
    (scope.give template (Node.argumentsOf set nodes)).Alike
      (scope'.give template' (Node.argumentsOf set (Node.shiftAll offset nodes))) where
  frames := alike.frames
  inert := alike.inert
  depth := alike.depth
  overlay := by
    intro name
    unfold Scope.give
    dsimp only
    rw [Compile.argumentsOf_shiftAll, ← List.map_reverse, List.find?_map, Option.map_map]
    -- An argument from further out keeps its name.
    have outer := alike.overlay name
    generalize scope.overlay name = above at outer
    generalize scope'.overlay name = above' at outer
    cases outer with
    | some given => exact .some given
    | none =>
      show Option.Rel Given.Alike (Option.map _ _) (Option.map _
        ((Node.argumentsOf set nodes).reverse.find? fun entry => decide (entry.1 = name)))
      cases found : (Node.argumentsOf set nodes).reverse.find? fun entry => decide (entry.1 = name) with
      | none => exact .none
      | some entry =>
        obtain ⟨name', o⟩ := entry
        have member := List.mem_reverse.1 (List.mem_of_find?_eq_some found)
        have within := Node.tokensOf_sublist_of_mem (Compile.mem_bodiesOf_of_mem_argumentsOf member).1
        refine .some ⟨⟨offset, rfl⟩, rfl, ?_⟩
        intro t there
        exact flush t (within.subset (List.mem_cons_of_mem _ (List.mem_append_left _ there)))

end Scope.Alike

/-! ### Parts of a template -/

/-- Evaluators to which it does not matter where nodes stand. -/
def Uniform (involved : String → Prop) (nested nested' : Evaluator) : Prop :=
  ∀ page page' : Page, page.indent = "" → page'.indent = "" → ∀ scope scope' : Scope, scope.Alike scope' →
    ∀ set offset nodes, Node.Flush nodes →
      Alike involved (nested page scope set nodes) (nested' page' scope' set (Node.shiftAll offset nodes))

namespace Alike

section

variable {involved : String → Prop} {env : Render.Env} {α : Type} {page page' : Page}
  {scope scope' : Scope} {nested nested' : Evaluator}

theorem literal (empty : page.indent = "") (empty' : page'.indent = "") (text : String) :
    Alike involved (Direct.literal page text) (Direct.literal page' text) := by
  have plain (page : Page) (empty : page.indent = "") (t : Trace) :
      (Direct.literal page text t).outcome = .ok text := by
    simp only [Direct.literal, empty, String.empty_append, ite_self]
  exact fun t t' _ => ⟨by rw [plain page empty, plain page' empty'], rfl⟩

theorem interpolated (empty : page.indent = "") (empty' : page'.indent = "") (text : String) :
    Alike involved (Direct.interpolated page text) (Direct.interpolated page' text) := by
  have plain (page : Page) (empty : page.indent = "") (t : Trace) :
      (Direct.interpolated page text t).outcome = .ok text := by
    simp only [Direct.interpolated, empty, String.empty_append, ite_self]
  exact fun t t' _ => ⟨by rw [plain page empty, plain page' empty'], rfl⟩

theorem textOf (span span' : Span) (v : Value) :
    Alike involved (Direct.textOf page span v) (Direct.textOf page' span' v) := by
  unfold Direct.textOf
  cases v.text? with
  | ok text => exact .pure text
  | error cause => exact .stop rfl

theorem deeper (scopes : scope.Alike scope') {action action' : Scope → Eval α}
    (inner : ∀ s s' : Scope, s.Alike s' → Alike involved (action s) (action' s')) :
    Alike involved (Direct.deeper env scope action) (Direct.deeper env scope' action') := by
  unfold Direct.deeper
  rw [← scopes.depth]
  split
  · exact .stop rfl
  · have below := inner _ _ scopes.deeper
    rwa [← scopes.depth] at below

/-- Nothing is a filter, so that the first one is missed. -/
theorem filtered (scopes : scope.Alike scope') (set : Pragmas) (span span' : Span) (name : Name)
    {next next' : Value → Eval α} (later : ∀ v, v.Inert → Alike involved (next v) (next' v)) :
    Alike involved
      (applyAll env page scope set span (found scope set span name) name.filters >>= next)
      (applyAll env page' scope' set span' (found scope' set span' name) name.filters >>= next') := by
  rw [scopes.found set span span' name]
  have inert : (found scope' set span' name).Inert := scopes.inert'.find _
  cases name.filters with
  | nil => exact later _ inert
  | cons filter more =>
    have missed (page : Page) (scope : Scope) (data : scope.frames.Inert) (span : Span) (v : Value)
        (next : Value → Eval α) : (applyAll env page scope set span v (filter :: more) >>= next) =
          Direct.stop (.error (.locatedAt (.unknownFilter filter) page.template.source
            (page.place span))) := by
      unfold applyAll Direct.apply
      rw [(data.find _).callable?_eq_none]
      rfl
    rw [missed _ _ scopes.inert, missed _ _ scopes.inert']
    exact .stop rfl

theorem forFrames {action action' : Value → Eval String} {frames : List Value}
    (each : ∀ frame ∈ frames, Alike involved (action frame) (action' frame)) :
    Alike involved (Direct.forFrames action frames) (Direct.forFrames action' frames) := by
  induction frames with
  | nil => exact .pure ""
  | cons frame rest ih =>
    exact .joined (each frame List.mem_cons_self)
      (ih fun other member => each other (List.mem_cons_of_mem frame member))

theorem ofPartial (flush : ∀ source, involved source → Markup.Flush env.engine.pragmas source)
    (name : String) {next next' : Template → Eval String}
    (later : ∀ source tree, Node.Flush tree →
      Alike involved (next ⟨source, tree⟩) (next' ⟨source, tree⟩)) :
    Alike involved
      (readPartial env name >>= fun template? => match template? with
        | none => Pure.pure ""
        | some template => next template)
      (readPartial env name >>= fun template? => match template? with
        | none => Pure.pure ""
        | some template => next' template) := by
  unfold readPartial
  cases env.engine.partials.bind (·.load env.shelves name) with
  | none => exact .pure ""
  | some source =>
    simp only [bind_assoc, pure_bind]
    apply Alike.read_bind source
    intro there tree parsed
    exact later source tree ((flush source there).nodes parsed)

theorem whole (uniform : Uniform involved nested nested') (scopes : scope.Alike scope')
    (source : String) {tree : List Node} (flush : Node.Flush tree) :
    Alike involved (Direct.whole env nested ⟨source, tree⟩ "" scope)
      (Direct.whole env nested' ⟨source, tree⟩ "" scope') := by
  have there := uniform ⟨⟨source, tree⟩, id, ""⟩ ⟨⟨source, tree⟩, id, ""⟩ rfl rfl scope scope' scopes
    env.engine.pragmas 0 tree flush
  rwa [Node.shiftAll_zero] at there

end

/-! ### Nodes -/

section

variable {involved : String → Prop} {env : Render.Env} {sight : Sight} {nested nested' : Evaluator}
  {page page' : Page} {scope scope' : Scope} (scopes : scope.Alike scope') (set : Pragmas)
  {opening opening' closing closing' : Token} {name : Name} {inner inner' : List Node}

include scopes

theorem interpolation (empty : page.indent = "") (empty' : page'.indent = "") {tag tag' : Token}
    (kind : tag.kind = tag'.kind) (name : Name) :
    Alike involved (node env sight nested page scope set (.variable tag name))
      (node env sight nested' page' scope' set (.variable tag' name)) := by
  have called (nested : Evaluator) (page : Page) (scope : Scope) (data : scope.frames.Inert) (span : Span) :
      resolve env nested page scope span (found scope set span name) =
        Pure.pure (found scope set span name) := by
    unfold resolve found
    rw [(data.find _).callable?_eq_none]
  unfold node
  rw [called _ _ _ scopes.inert, called _ _ _ scopes.inert', pure_bind, pure_bind, kind]
  apply Alike.filtered scopes
  intro v _
  exact (Alike.textOf tag.span tag'.span v).bind fun text => .interpolated empty empty' _

theorem repeated (same : sight.pragmas set inner = sight.pragmas set inner')
    (each : ∀ frame : Value, frame.Inert → ∀ place place', Alike involved
      (nodes env sight nested { page with place } (scope.push frame) set inner)
      (nodes env sight nested' { page' with place := place' } (scope'.push frame) set inner')) :
    Alike involved
      (node env sight nested page scope set (.region .repeated opening name inner closing))
      (node env sight nested' page' scope' set (.region .repeated opening' name inner' closing')) := by
  simp only [node, same]
  apply Alike.filtered scopes
  intro v inert
  rw [inert.callable?_eq_none]
  dsimp only
  split
  · exact .pure ""
  · exact .forFrames fun frame member => each frame (inert.frames member) _ _

theorem inverted (inside : Alike involved (nodes env sight nested page scope set inner)
      (nodes env sight nested' page' scope' set inner')) :
    Alike involved
      (node env sight nested page scope set (.region .inverted opening name inner closing))
      (node env sight nested' page' scope' set (.region .inverted opening' name inner' closing')) := by
  simp only [node]
  apply Alike.filtered scopes
  intro v _
  split
  · exact inside
  · exact .pure ""

end

end Alike

theorem Sight.pragmas_shiftAll (sight : Sight) (set : Pragmas) (offset : Nat) (nodes : List Node) :
    sight.pragmas set (Node.shiftAll offset nodes) = sight.pragmas set nodes := by
  cases sight with
  | early => rfl
  | late => exact congrArg set.insertAll (Node.pragmasOf_shiftAll offset nodes)

namespace Uniform

variable {involved : String → Prop} {env : Render.Env} {nested nested' : Evaluator}

section

variable {page page' : Page} {scope scope' : Scope} (uniform : Uniform involved nested nested')

include uniform

theorem override (scopes : scope.Alike scope') {given given' : Given} (same : given.Alike given') :
    Alike involved (Direct.override env nested scope given) (Direct.override env nested' scope' given') := by
  obtain ⟨offset, moved⟩ := same.nodes
  unfold Direct.override
  refine .deeper scopes fun s s' below => ?_
  rw [moved, ← same.pragmas]
  exact uniform _ _ rfl rfl s s' below _ offset _ same.flush

variable (flush : ∀ source, involved source → Markup.Flush env.engine.pragmas source)

include flush

theorem partialCall (scopes : scope.Alike scope') (empty : page.indent = "")
    (empty' : page'.indent = "") (name : String) :
    Alike involved (Direct.partialCall env nested page scope name "")
      (Direct.partialCall env nested' page' scope' name "") := by
  apply Alike.ofPartial flush
  intro source tree upright
  rw [empty, empty']
  exact .deeper scopes fun s s' below => .whole uniform below source upright

theorem parentCall (scopes : scope.Alike scope') (empty : page.indent = "")
    (empty' : page'.indent = "") (name : String) (set : Pragmas) (offset : Nat) {nodes : List Node}
    (inside : Node.Flush nodes) :
    Alike involved
      (Direct.parentCall env nested page scope name "" (Node.argumentsOf set nodes))
      (Direct.parentCall env nested' page' scope' name ""
        (Node.argumentsOf set (Node.shiftAll offset nodes))) := by
  apply Alike.ofPartial flush
  intro source tree upright
  rw [empty, empty']
  exact .deeper scopes fun s s' below =>
    .whole uniform (below.give page.template page'.template set offset inside) source upright

/-- Where nodes stand does not matter if it does not in the templates that they call for. -/
theorem nodes (sight : Sight) :
    Uniform involved (Direct.nodes env sight nested) (Direct.nodes env sight nested') := by
  intro page page' empty empty' scope scope' scopes set offset nodes upright
  -- The pages vary because a section's body has places of its own, the scopes because frames are pushed.
  induction nodes using Node.forest generalizing page page' scope scope' set with
  | nil => exact .pure ""
  | literal t rest ih =>
    have later := ih page page' empty empty' scope scope' scopes set fun u there =>
      upright u (List.mem_cons_of_mem t there)
    exact .joined (.literal empty empty' t.content) later
  | pragma t p rest ih =>
    have later := ih page page' empty empty' scope scope' scopes (set.insert p) fun u there =>
      upright u (List.mem_cons_of_mem t there)
    exact .joined (.pure "") later
  | interpolation t name rest ih =>
    have later := ih page page' empty empty' scope scope' scopes set fun u there =>
      upright u (List.mem_cons_of_mem t there)
    have kind : t.kind = (t.shift offset).kind := rfl
    exact .joined (.interpolation scopes set empty empty' kind name) later
  | partialRef t rest ih =>
    have later := ih page page' empty empty' scope scope' scopes set fun u there =>
      upright u (List.mem_cons_of_mem t there)
    have call := uniform.partialCall flush scopes empty empty' t.content
    rw [← upright t List.mem_cons_self] at call
    exact .joined call later
  | region role opening name nodes closing rest inner ih =>
    have within : Node.Flush nodes := fun u there =>
      upright u (List.mem_append_left _ (List.mem_append_left _ (List.mem_cons_of_mem opening there)))
    have later := ih page page' empty empty' scope scope' scopes
      (set.insertAll (Node.pragmasOf nodes)) fun u there => upright u (List.mem_append_right _ there)
    have switched : (Node.shift offset (.region role opening name nodes closing)).pragmas =
        Node.pragmasOf nodes := Node.pragmasOf_shiftAll offset nodes
    refine .joined ?_ (by rw [switched]; exact later)
    cases role with
    | «repeated» =>
      refine .repeated scopes set (sight.pragmas_shiftAll set offset nodes).symm ?_
      intro frame inert place place'
      exact inner { page with place } { page' with place := place' } empty empty' _ _
        (scopes.push inert) set within
    | inverted =>
      exact .inverted scopes set (inner page page' empty empty' scope scope' scopes set within)
    | parent =>
      have call := uniform.parentCall flush scopes empty empty' name.path set offset within
      rw [← upright opening List.mem_cons_self] at call
      exact call
    | slot =>
      have overlay := scopes.overlay name.path
      simp only [Node.shift, node]
      generalize scope.overlay name.path = given at overlay
      generalize scope'.overlay name.path = given' at overlay
      cases overlay with
      | none => exact inner page page' empty empty' scope scope' scopes set within
      | some same => exact uniform.override scopes same
    | argument => exact .stop rfl

end

theorem run (flush : ∀ source, involved source → Markup.Flush env.engine.pragmas source)
    (sight : Sight) (levels : Nat) :
    Uniform involved (Direct.run env sight levels) (Direct.run env sight levels) := by
  induction levels with
  | zero => exact fun _ _ _ _ _ _ _ _ _ _ _ => .stop rfl
  | succ levels ih => exact ih.nodes flush sight

end Uniform

end Direct
end Mustache
