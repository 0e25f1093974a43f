import Mustache.Proofs.Engine.Fetching
import Mustache.Proofs.Program.Deduplication
import Mustache.Proofs.Render.Direct

/-! Actions of the machine against direct evaluation: started alike they have the same outcome, make
the same calls and leave what is in scope as it was. -/
namespace Mustache.Render

open Markup Direct

/-- The engine and lambdas that are at work, the sources whose programs may be found in a store, and
how sections are looked up. -/
structure World where
  env : Env
  known : Engine → String → Prop
  sight : Sight

/-- A source that the engine may read: it is told apart from all others that are known, and so are
the bodies in it. Unless sections are looked up late, it anchors no names. -/
structure Readable (w : World) (source : String) : Prop where
  isKnown : w.known w.env.engine source
  apart : Apart w.known w.env.engine source
  distinct : ∀ tree, parse w.env.engine.pragmas source = .ok tree →
    Hash.Distinct (Node.identities source w.env.engine.pragmas tree)
  sighted : w.sight = .late ∨
    ∀ tree, parse w.env.engine.pragmas source = .ok tree → Pragma.anchoredDot ∉ Node.pragmasOf tree

/-- A program that is made of a template. -/
structure Mirrors (w : World) (program : Program) (template : Template) : Prop where
  readable : Readable w template.source
  parsed : parse w.env.engine.pragmas template.source = .ok template.tree
  told : program.Told w.env.engine.dialect template.source template.tree

theorem Mirrors.of_parse {w : World} {source : String} {tree : List Node}
    (readable : Readable w source) (key : Key) (parsed : parse w.env.engine.pragmas source = .ok tree) :
    Mirrors w (.ofNodes w.env.engine.dialect key source tree) ⟨source, tree⟩ where
  readable := readable
  parsed := parsed
  told := Program.told_of_compile parsed (Program.compile_of_tree w.env.engine.dialect key parsed)
    (readable.distinct tree parsed)

/-- A block argument of a program, in the template that the program is made of. -/
structure Stands (w : World) (override : Override) (given : Given) : Prop where
  mirrors : Mirrors w override.program given.template
  member : given.body ∈ Node.bodiesOf false w.env.engine.pragmas given.template.tree
  role : given.body.role = .argument
  key : override.key = given.body.key given.template.source

/-- A machine in the state that evaluation in a scope has come to. -/
structure Related (w : World) (scope : Scope) (m : Machine) (t : Trace) : Prop where
  frames : m.frames = scope.frames
  overlay : ∀ name, Option.Rel (Stands w) (m.overlay.find? name) (scope.overlay name)
  depth : m.depth = scope.depth
  lineStart : m.lineStart = t.lineStart
  calls : m.store.calls = t.calls
  genuine : Genuine w.known m.store

inductive Agrees {α β : Type} (R : α → β → Prop) : Except Stop α → Except Stop β → Prop
  | ok (a : α) (b : β) (same : R a b) : Agrees R (.ok a) (.ok b)
  | error (stop : Stop) : Agrees R (.error stop) (.error stop)

def Simulates (w : World) {α β : Type} (R : α → β → Prop) (scope : Scope) (action : Act α)
    (eval : Eval β) : Prop :=
  ∀ m t, Related w scope m t → (∀ source ∈ (eval t).reads, Readable w source) →
    Agrees R (action.run.run m).1 (eval t).outcome ∧
      Related w scope (action.run.run m).2 (eval t).trace ∧ (action.run.run m).2.overlay = m.overlay

/-! ### What actions do to a machine -/

section

variable {α β : Type} (m : Machine)

theorem run_bind (action : Act α) (next : α → Act β) :
    (action >>= next).run.run m =
      match action.run.run m with
      | (.ok a, m') => (next a).run.run m'
      | (.error stop, m') => (.error stop, m') := by
  have unfolded : (action >>= next).run.run m =
      (ExceptT.bindCont next (action.run.run m).1).run (action.run.run m).2 := rfl
  rw [unfolded]
  rcases action.run.run m with ⟨result, m'⟩
  cases result <;> rfl

theorem run_modify (change : Machine → Machine) :
    (modify change : Act Unit).run.run m = (.ok (), change m) := rfl

theorem run_get : (get : Act Machine).run.run m = (.ok m, m) := rfl

theorem run_andFinally (action : Act α) (cleanup : Act Unit) :
    (andFinally action cleanup).run.run m =
      match action.run.run m with
      | (result, m') =>
        match cleanup.run.run m' with
        | (.ok (), m'') => (result, m'')
        | (.error stop, m'') => (.error stop, m'') := by
  unfold andFinally
  simp only [ExceptT.run_mk, StateT.run_bind]
  generalize action.run.run m = ran
  obtain ⟨result, m'⟩ := ran
  show (pure (result, m') >>= _ : Id (Except Stop α × Machine)) = _
  rw [pure_bind]
  dsimp only
  generalize cleanup.run.run m' = cleaned
  obtain ⟨_ | _, m''⟩ := cleaned <;> rfl

theorem run_observed (action : Act α) :
    (observed action).run.run m =
      (match (action.run.run m).1 with
        | .ok a => .ok (.ok a)
        | .error (.error e) => .ok (.error e)
        | .error (.fault f) => .error (.fault f), (action.run.run m).2) := by
  unfold observed
  rw [ExceptT.run_mk, StateT.run_bind]
  show ((match (action.run.run m).1 with
    | .ok a => Pure.pure (.ok (.ok a))
    | .error (.error e) => Pure.pure (.ok (.error e))
    | .error (.fault f) => Pure.pure (.error (.fault f)) :
      StateM Machine (Except Stop (Except Error α))).run (action.run.run m).2) = _
  generalize (action.run.run m).1 = result
  rcases result with (_ | _) | _ <;> rfl

theorem run_located (source : String) (span : Span) (action : Act α) :
    (located source span action).run.run m =
      (match (action.run.run m).1 with
        | .ok a => .ok a
        | .error (.error e) => .error (.error (e.orAt source span))
        | .error (.fault f) => .error (.fault f), (action.run.run m).2) := by
  unfold located
  show (((fun result : Except Stop α => _) <$> action.run).run m) = _
  rw [StateT.run_map]
  show (_, (action.run.run m).2) = _
  generalize (action.run.run m).1 = result
  rcases result with (_ | _) | _ <;> rfl

theorem ok_of_map {ε : Type} {result : Except ε α} {f : α → β} {b : β} (ok : result.map f = .ok b) :
    ∃ a, result = .ok a ∧ f a = b := by
  cases result with
  | error e => cases ok
  | ok a => exact ⟨a, rfl, Except.ok.inj ok⟩

theorem ok_of_bind {first : Act α} {next : α → Act β} {m : Machine} {b : β}
    (ok : ((first >>= next).run.run m).1 = .ok b) :
    ∃ a, (first.run.run m).1 = .ok a ∧ ((next a).run.run (first.run.run m).2).1 = .ok b := by
  rw [run_bind] at ok
  generalize first.run.run m = ran at ok ⊢
  obtain ⟨_ | a, m'⟩ := ran
  · cases ok
  · exact ⟨a, rfl, ok⟩

theorem ok_of_andFinally {action : Act α} (cleanup : Act Unit) {m : Machine} {a : α}
    (ok : ((andFinally action cleanup).run.run m).1 = .ok a) : (action.run.run m).1 = .ok a := by
  rw [run_andFinally] at ok
  generalize action.run.run m = ran at ok ⊢
  obtain ⟨result, m'⟩ := ran
  dsimp only at ok
  generalize cleanup.run.run m' = ended at ok
  obtain ⟨_ | _, m''⟩ := ended
  · cases ok
  · exact ok

end

/-! ### Rules -/

namespace Simulates

variable {w : World} {α β γ δ : Type} {R : α → β → Prop} {R' : γ → δ → Prop} {scope : Scope}
  {action : Act α} {eval : Eval β}

theorem pure {a : α} {b : β} (same : R a b) :
    Simulates w R scope (Pure.pure a) (Pure.pure b) :=
  fun _ _ related _ => ⟨.ok a b same, related, rfl⟩

theorem stop (stop : Stop) : Simulates w R scope (throw stop) (Direct.stop stop) :=
  fun _ _ related _ => ⟨.error stop, related, rfl⟩

theorem ofExcept {α : Type} (result : Except Error α) :
    Simulates w Eq scope (Render.ofExcept result) (Direct.ofExcept result) := by
  cases result with
  | ok a => exact .pure rfl
  | error e => exact .stop (.error e)

theorem bind {next : α → Act γ} {after : β → Eval δ} (first : Simulates w R scope action eval)
    (later : ∀ a b, R a b → Simulates w R' scope (next a) (after b)) :
    Simulates w R' scope (action >>= next) (eval >>= after) := by
  intro m t related readable
  have unfolded : (eval >>= after) t = Eval.bind eval after t := rfl
  rw [unfolded] at readable ⊢
  rw [run_bind]
  unfold Eval.bind at readable ⊢
  have start := first m t related
  generalize action.run.run m = ran at start ⊢
  generalize eval t = reply at start readable ⊢
  obtain ⟨result, m'⟩ := ran
  obtain ⟨outcome, t', reads⟩ := reply
  cases outcome with
  | error stop =>
    obtain ⟨agrees, related', overlay⟩ := start readable
    cases agrees
    exact ⟨.error stop, related', overlay⟩
  | ok b =>
    obtain ⟨agrees, related', overlay⟩ := start fun source member =>
      readable source (List.mem_append_left _ member)
    cases agrees with
    | ok a b same =>
      obtain ⟨agrees', related'', overlay'⟩ := later a b same m' t' related' fun source member =>
        readable source (List.mem_append_right _ member)
      exact ⟨agrees', related'', overlay'.trans overlay⟩

theorem get {next : Machine → Act α} {eval : Eval β}
    (later : ∀ m t, Related w scope m t → Simulates w R scope (next m) eval) :
    Simulates w R scope (MonadState.get >>= next) eval := by
  intro m t related readable
  rw [run_bind, run_get]
  exact later m t related m t related readable

theorem withFrame (frame : Value) (inner : Simulates w R (scope.push frame) action eval) :
    Simulates w R scope (Render.withFrame frame action) eval := by
  intro m t related readable
  unfold Render.withFrame
  rw [run_bind, run_modify]
  dsimp only
  rw [run_andFinally]
  have entered : Related w (scope.push frame) { m with frames := frame :: m.frames } t :=
    ⟨congrArg (frame :: ·) related.frames, related.overlay, related.depth, related.lineStart,
      related.calls, related.genuine⟩
  obtain ⟨agrees, left, overlay⟩ := inner _ t entered readable
  generalize action.run.run { m with frames := frame :: m.frames } = ran at agrees left overlay ⊢
  obtain ⟨result, m'⟩ := ran
  have popped : popFrame.run.run m' = (.ok (), { m' with frames := scope.frames }) := by
    have frames : m'.frames = frame :: scope.frames := left.frames
    unfold popFrame
    rw [run_bind, run_get]
    dsimp only
    rw [frames]
    rfl
  dsimp only
  rw [popped]
  exact ⟨agrees, ⟨rfl, left.overlay, left.depth, left.lineStart, left.calls, left.genuine⟩, overlay⟩

theorem deeper {after : Scope → Eval β}
    (inner : Simulates w R { scope with depth := scope.depth + 1 } action
      (after { scope with depth := scope.depth + 1 })) :
    Simulates w R scope (Render.deeper w.env.engine.maxDepth action)
      (Direct.deeper w.env scope after) := by
  intro m t related readable
  unfold Render.deeper
  unfold Direct.deeper at readable ⊢
  rw [run_bind, run_get]
  dsimp only
  rw [related.depth]
  by_cases limit : w.env.engine.maxDepth ≤ scope.depth
  · rw [if_pos limit, if_pos limit]
    exact ⟨.error _, related, rfl⟩
  · rw [if_neg limit] at readable
    rw [if_neg limit, if_neg limit, run_bind, run_modify]
    dsimp only
    rw [run_andFinally]
    have entered : Related w { scope with depth := scope.depth + 1 } { m with depth := m.depth + 1 } t :=
      ⟨related.frames, related.overlay, congrArg (· + 1) related.depth, related.lineStart,
        related.calls, related.genuine⟩
    obtain ⟨agrees, left, overlay⟩ := inner _ t entered readable
    generalize action.run.run { m with depth := m.depth + 1 } = ran at agrees left overlay ⊢
    obtain ⟨result, m'⟩ := ran
    refine ⟨agrees, ⟨left.frames, left.overlay, ?_, left.lineStart, left.calls, left.genuine⟩, overlay⟩
    exact congrArg (· - 1) left.depth

theorem withArguments {scope' : Scope} (given : List (String × Override))
    (frames : scope'.frames = scope.frames) (depth : scope'.depth = scope.depth)
    (overlay : ∀ outer : Overlay,
      (∀ name, Option.Rel (Stands w) (outer.find? name) (scope.overlay name)) →
        ∀ name, Option.Rel (Stands w) ((outer.push given).find? name) (scope'.overlay name))
    (inner : Simulates w R scope' action eval) :
    Simulates w R scope (Render.withArguments given action) eval := by
  intro m t related readable
  unfold Render.withArguments
  rw [run_bind, run_modify]
  dsimp only
  rw [run_andFinally]
  have entered : Related w scope' { m with overlay := m.overlay.push given } t :=
    ⟨related.frames.trans frames.symm, overlay m.overlay related.overlay,
      related.depth.trans depth.symm, related.lineStart, related.calls, related.genuine⟩
  obtain ⟨agrees, left, kept⟩ := inner _ t entered readable
  generalize action.run.run { m with overlay := m.overlay.push given } = ran at agrees left kept ⊢
  obtain ⟨result, m'⟩ := ran
  have popped : popOverlay.run.run m' = (.ok (), { m' with overlay := m.overlay }) := by
    unfold popOverlay
    rw [run_bind, run_get]
    dsimp only at kept ⊢
    rw [kept]
    rfl
  dsimp only
  rw [popped]
  exact ⟨agrees, ⟨left.frames.trans frames, related.overlay, left.depth.trans depth, left.lineStart,
    left.calls, left.genuine⟩, rfl⟩

theorem keepingLineStart (inner : Simulates w R scope action eval) :
    Simulates w R scope (Render.keepingLineStart action) (Direct.keepingLineStart eval) := by
  intro m t related readable
  unfold Render.keepingLineStart
  rw [run_bind, run_get]
  dsimp only
  rw [run_andFinally]
  obtain ⟨agrees, left, overlay⟩ := inner m t related readable
  generalize action.run.run m = ran at agrees left overlay ⊢
  obtain ⟨result, m'⟩ := ran
  exact ⟨agrees, ⟨left.frames, left.overlay, left.depth, related.lineStart, left.calls, left.genuine⟩,
    overlay⟩

theorem aside (inner : Simulates w R scope action eval) :
    Simulates w R scope (Render.aside action) (Direct.keepingLineStart eval) := by
  intro m t related readable
  unfold Render.aside
  rw [run_bind, run_get]
  dsimp only
  rw [run_andFinally]
  obtain ⟨agrees, left, -⟩ := inner m t related readable
  generalize action.run.run m = ran at agrees left ⊢
  obtain ⟨result, m'⟩ := ran
  exact ⟨agrees, ⟨related.frames, related.overlay, related.depth, related.lineStart, left.calls,
    left.genuine⟩, rfl⟩

theorem observed {eval : Eval α} (inner : Simulates w Eq scope action eval) :
    Simulates w Eq scope (Render.observed action) (Direct.observed eval) := by
  intro m t related readable
  obtain ⟨agrees, left⟩ := inner m t related readable
  rw [run_observed]
  unfold Direct.observed
  dsimp only
  generalize action.run.run m = ran at agrees left ⊢
  generalize eval t = reply at agrees left ⊢
  obtain ⟨result, m'⟩ := ran
  obtain ⟨outcome, t', reads⟩ := reply
  refine ⟨?_, left⟩
  cases agrees with
  | ok a b same => exact .ok _ _ (congrArg Except.ok same)
  | error stop =>
    cases stop with
    | error e => exact .ok _ _ rfl
    | fault f => exact .error _

theorem located (page : Page) (span : Span) (inner : Simulates w R scope action eval) :
    Simulates w R scope (Render.located page.template.source (page.place span) action)
      (Direct.located page span eval) := by
  intro m t related readable
  obtain ⟨agrees, left⟩ := inner m t related readable
  rw [run_located]
  unfold Direct.located
  dsimp only
  generalize action.run.run m = ran at agrees left ⊢
  generalize eval t = reply at agrees left ⊢
  obtain ⟨result, m'⟩ := ran
  obtain ⟨outcome, t', reads⟩ := reply
  refine ⟨?_, left⟩
  cases agrees with
  | ok a b same => exact .ok a b same
  | error stop =>
    cases stop with
    | error e => exact .error _
    | fault f => exact .error _

theorem record (call : Call) :
    Simulates w Eq scope (Render.record call) (Direct.record call) := by
  intro m t related readable
  have earlier : m.store.callCount call.id = t.calls.countP (·.id == call.id) := by
    rw [Store.callCount, related.calls]
  refine ⟨.ok _ _ earlier, ⟨related.frames, related.overlay, related.depth, related.lineStart,
    congrArg (call :: ·) related.calls, related.genuine.of_calls _⟩, rfl⟩

theorem fromLineStart (inner : Simulates w R scope action eval) :
    Simulates w R scope (do modify fun m => { m with lineStart := true }; action)
      (Direct.fromLineStart eval) := by
  intro m t related readable
  rw [run_bind, run_modify]
  have entered : Related w scope { m with lineStart := true } { t with lineStart := true } :=
    ⟨related.frames, related.overlay, related.depth, rfl, related.calls, related.genuine⟩
  exact inner _ _ entered readable

theorem literal {s : Stage} {page : Page} (indent : s.indent = page.indent) (text : String) :
    Simulates w Eq scope (s.literal text) (Direct.literal page text) := by
  intro m t related readable
  have unfolded : (s.literal text).run.run m =
      (.ok (if m.lineStart then s.indent ++ text else text),
        { m with lineStart := Stage.endsLine text }) := rfl
  rw [unfolded, related.lineStart, indent]
  exact ⟨.ok _ _ rfl, ⟨related.frames, related.overlay, related.depth, rfl, related.calls,
    related.genuine⟩, rfl⟩

theorem interpolated {s : Stage} {page : Page} (indent : s.indent = page.indent) (text : String) :
    Simulates w Eq scope (s.interpolated text) (Direct.interpolated page text) := by
  intro m t related readable
  have unfolded : (s.interpolated text).run.run m =
      (.ok (if m.lineStart then s.indent ++ text else text), { m with lineStart := false }) := rfl
  rw [unfolded, related.lineStart, indent]
  exact ⟨.ok _ _ rfl, ⟨related.frames, related.overlay, related.depth, rfl, related.calls,
    related.genuine⟩, rfl⟩

theorem fetch (origin : Engine.Origin) (source : String) :
    Simulates w (Mirrors w) scope
      (do Render.ofExcept (← inStore (w.env.engine.fetch origin source))) (Direct.read w.env source) := by
  intro m t related readable
  have here : Readable w source := readable source (List.mem_singleton_self source)
  obtain ⟨result, calls, genuine⟩ :=
    Engine.fetch_run related.genuine here.isKnown here.apart origin
  have stored : (inStore (w.env.engine.fetch origin source)).run.run m =
      (.ok ((w.env.engine.fetch origin source).run m.store).1,
        { m with store := ((w.env.engine.fetch origin source).run m.store).2 }) := rfl
  rw [run_bind, stored]
  dsimp only
  rw [result]
  have left : Related w scope
      { m with store := ((w.env.engine.fetch origin source).run m.store).2 } t :=
    ⟨related.frames, related.overlay, related.depth, related.lineStart, calls.trans related.calls,
      genuine⟩
  unfold Direct.read
  cases parsed : parse w.env.engine.pragmas source with
  | error flaw =>
    rw [Program.compile_of_flaw w.env.engine.dialect _ parsed]
    exact ⟨.error _, left, rfl⟩
  | ok tree =>
    rw [Program.compile_of_tree w.env.engine.dialect _ parsed]
    exact ⟨.ok _ _ (.of_parse here _ parsed), left, rfl⟩

end Simulates

end Mustache.Render
