import Mustache.Proofs.Render.Noted

/-! What a run writes, piece after piece: the texts of templates, and those that values and lambdas
put among them. -/
namespace Mustache

/-- Fetching and recording calls only makes a store grow. -/
theorem Engine.Fetches.follows {e : Engine} {store store' : Store} {made : List Fetch}
    (fetches : e.Fetches store made store') : store.Follows store' := by
  induction fetches with
  | nil => exact .refl store
  | calls made before calls _ ih => exact ih.trans (.calls before calls)
  | fetch made before origin source _ ih => exact ih.trans (e.fetch_answers origin source before).follows

namespace Render

theorem Accounts.built {e : Engine} {α : Type} {action : Act α} {notes : Machine → List Note}
    (accounts : Accounts e action notes) {m : Machine} (built : m.store.Built) :
    (action.run.run m).2.store.Built :=
  (accounts m).fetches.follows.built built

inductive Written
  /-- Text of a template. -/
  | template (text : String)
  /-- Text of a value or of a lambda. -/
  | inserted (text : String)
  /-- The argument given for a block is written in its place. -/
  | argument (name : String)

namespace Written

/-- Neither an argument nor a value or lambda with more than one line. -/
def Plain : Written → Prop
  | template _ => True
  | inserted text => '\n' ∉ text.toList
  | argument _ => False

instance : DecidablePred Plain
  | template _ => .isTrue trivial
  | inserted text => inferInstanceAs (Decidable ('\n' ∉ text.toList))
  | argument _ => .isFalse id

/-- Whether the next text starts a line. Only texts of templates end lines. -/
def endsLine : Written → Bool
  | template text => Stage.endsLine text
  | inserted _ | argument _ => false

end Written

/-- What bodies and what is nested one level deeper write. -/
structure Writers where
  body : Section → Machine → List Written
  nested : Program → List Instr → String → Machine → List Written

/-- What is written after something has been run, unless it has stopped. -/
def following {α : Type} (more : α → Machine → List Written) : Except Stop α × Machine → List Written
  | (.ok a, m) => more a m
  | (.error _, _) => []

theorem following_nothing {α : Type} (ran : Except Stop α × Machine) :
    following (fun _ _ => []) ran = [] := by
  obtain ⟨_ | _, _⟩ := ran <;> rfl

/-- What is rendered for a lambda in place of a value is no output by itself. -/
def Plan.writes (s : Stage) (w : Writers) : {α : Type} → Plan α → Machine → List Written
  | _, .bind first next, m =>
    writes s w first m ++ following (fun a => writes s w (next a)) ((first.act s).run.run m)
  | _, .given name, m => if (m.overlay.find? name).isSome then [.argument name] else []
  | _, .put text _, _ => [.inserted text]
  | _, .located _ inner, m => writes s w inner m
  | _, .observed inner, m => writes s w inner m
  | _, .within frame sec, m => w.body sec { m with frames := frame :: m.frames }
  | _, .invoke invocation program instrs indent, m =>
    if s.env.engine.maxDepth ≤ m.depth then [] else w.nested program instrs indent (m.enter invocation)
  | _, .answer program, m => w.nested program program.instrs "" { m with lineStart := true }
  | _, .keepingLineStart _, _ | _, .aside _, _ | _, .pure _, _ | _, .stop _, _ | _, .reach _, _
  | _, .find _, _ | _, .record _, _ | _, .fetch _ _, _ => []

theorem Plan.writes_map {α β : Type} (s : Stage) (w : Writers) (plan : Plan α) (f : α → β) :
    (plan >>= fun a => pure (f a)).writes s w = plan.writes s w := by
  funext m
  show plan.writes s w m ++ following (fun _ _ => []) _ = _
  rw [following_nothing, List.append_nil]

namespace Stage

/-- What one instruction writes. -/
def writesOf (s : Stage) (w : Writers) (instr : Instr) (expression : Option Value) (m : Machine) :
    List Written :=
  match instr with
  | .text text => [.template text]
  | _ => (s.place.step instr expression).writes s w m

def writes (s : Stage) (w : Writers) : List Instr → Nat → Option Value → Machine → List Written
  | [], _, _, _ => []
  | _ :: rest, skip + 1, expression, m => writes s w rest skip expression m
  | instr :: rest, 0, expression, m =>
    s.writesOf w instr expression m ++
      following (fun outcome => writes s w rest outcome.skip outcome.expression)
        ((s.step instr expression).run.run m)

end Stage

def writesOfBody (env : Env) (runner : Runner)
    (nested : Program → List Instr → String → Machine → List Written) (program : Program)
    (indent : String) : Nat → List Instr → Machine → List Written
  | 0, _ => fun _ => []
  | budget + 1, instrs =>
    let body (sec : Section) := runBody env runner program indent budget sec.instrs
    let written (sec : Section) := writesOfBody env runner nested program indent budget sec.instrs
    Stage.writes ⟨env, program, indent, body, runner⟩ ⟨written, nested⟩ instrs 0 none

def writesOfRun (env : Env) : Nat → Program → List Instr → String → Machine → List Written
  | 0 => fun _ _ _ _ => []
  | levels + 1 => fun program instrs indent =>
    writesOfBody env (run env levels) (writesOfRun env levels) program indent (program.source.length + 2)
      instrs

/-! ### Plans that write nothing -/

namespace Plan

/-- Nothing is written by a plan, or what is written is put aside. -/
def Silent : {α : Type} → Plan α → Prop
  | _, .bind first next => Silent first ∧ ∀ a, Silent (next a)
  | _, .located _ inner => Silent inner
  | _, .observed inner => Silent inner
  | _, .given _ | _, .put _ _ | _, .within _ _ | _, .invoke _ _ _ _ | _, .answer _ => False
  | _, .keepingLineStart _ | _, .aside _ | _, .pure _ | _, .stop _ | _, .reach _ | _, .find _
  | _, .record _ | _, .fetch _ _ => True

variable {α : Type}

theorem Silent.run {plan : Plan α} (silent : plan.Silent) (s : Stage) (w : Writers) (m : Machine) :
    plan.writes s w m = [] ∧ ((plan.act s).run.run m).2.lineStart = m.lineStart := by
  induction plan generalizing m with
  | bind first next ih ih' =>
    obtain ⟨nothing, kept⟩ := ih silent.1 m
    show first.writes s w m ++ following _ _ = [] ∧
      ((first.act s >>= fun a => (next a).act s).run.run m).2.lineStart = _
    rw [nothing, run_bind]
    generalize (first.act s).run.run m = ran at kept ⊢
    obtain ⟨_ | a, m'⟩ := ran
    · exact ⟨rfl, kept⟩
    · obtain ⟨nothing', kept'⟩ := ih' a (silent.2 a) m'
      exact ⟨nothing', kept'.trans kept⟩
  | located span inner ih =>
    obtain ⟨nothing, kept⟩ := ih silent m
    refine ⟨nothing, ?_⟩
    show ((Render.located s.program.source span (inner.act s)).run.run m).2.lineStart = _
    rw [run_located]
    exact kept
  | observed inner ih =>
    obtain ⟨nothing, kept⟩ := ih silent m
    refine ⟨nothing, ?_⟩
    show ((Render.observed (inner.act s)).run.run m).2.lineStart = _
    rw [run_observed]
    exact kept
  | keepingLineStart inner ih =>
    refine ⟨rfl, ?_⟩
    let cleanup : Act Unit := modify fun ended => { ended with lineStart := m.lineStart }
    show ((andFinally (inner.act s) cleanup).run.run m).2.lineStart = _
    rw [run_andFinally]
    rfl
  | aside inner ih =>
    refine ⟨rfl, ?_⟩
    let cleanup : Act Unit := modify fun ended => { m with store := ended.store }
    show ((andFinally (inner.act s) cleanup).run.run m).2.lineStart = _
    rw [run_andFinally]
    rfl
  | fetch origin source =>
    refine ⟨rfl, ?_⟩
    show ((inStore (s.env.engine.fetch origin source) >>= Render.ofExcept).run.run m).2.lineStart = _
    rw [run_fetch]
  | given | put | within | invoke | answer => exact silent.elim
  | pure | stop | reach | find | record => exact ⟨rfl, rfl⟩

theorem silent_ofExcept (result : Except Error α) : (ofExcept result).Silent := by
  cases result <;> trivial

theorem silent_callInterpolation (lambdas : Lambdas) (handle : Lambda) :
    (callInterpolation lambdas handle).Silent := by
  unfold callInterpolation
  cases handle.shape with
  | interpolation => exact ⟨trivial, fun earlier => silent_ofExcept _⟩
  | enclosing => trivial
  | filter => trivial

theorem silent_callFilter (lambdas : Lambdas) (handle : Lambda) (v : Value) :
    (callFilter lambdas handle v).Silent := by
  unfold callFilter
  cases handle.shape with
  | interpolation => exact silent_callInterpolation lambdas handle
  | enclosing => trivial
  | filter => exact ⟨trivial, fun earlier => silent_ofExcept _⟩

theorem silent_converse {render : String → Plan String} (silent : ∀ text, (render text).Silent)
    (dialogue : Dialogue) : (converse render dialogue).Silent := by
  induction dialogue with
  | done result => exact silent_ofExcept result
  | render text next ih => exact ⟨silent text, ih⟩

theorem silent_callEnclosing (lambdas : Lambdas) {render : String → Plan String}
    (silent : ∀ text, (render text).Silent) (handle : Lambda) (text : String) :
    (callEnclosing lambdas render handle text).Silent := by
  unfold callEnclosing
  cases handle.shape with
  | interpolation => exact silent_callInterpolation lambdas handle
  | enclosing => exact ⟨trivial, fun earlier => silent_converse silent _⟩
  | filter => exact silent_callFilter lambdas handle _

end Plan

namespace Place

variable (p : Place)

theorem silent_textOf (span : Span) (v : Value) : (p.textOf span v).Silent := by
  unfold textOf
  cases v.text? <;> trivial

theorem silent_resolve (span : Span) (v : Value) : (p.resolve span v).Silent := by
  unfold resolve
  cases v.callable? p.program.strictCallables with
  | none => trivial
  | some handle =>
    refine ⟨Plan.silent_callInterpolation _ handle, fun result => ⟨p.silent_textOf span result, ?_⟩⟩
    exact fun text => ⟨trivial, fun program => ⟨trivial, fun rendered => trivial⟩⟩

theorem silent_apply (ref : Ref) (v : Value) : (p.apply ref v).Silent := by
  refine ⟨trivial, fun found => ?_⟩
  dsimp only
  cases found.callable? p.program.strictCallables with
  | none => trivial
  | some handle => exact Plan.silent_callFilter _ handle v

theorem silent_fetchPartial (name : String) : (p.fetchPartial name).Silent := by
  unfold fetchPartial
  cases p.env.engine.partials.bind (·.load p.env.shelves name) with
  | none => trivial
  | some source => exact ⟨trivial, fun program => trivial⟩

end Place

end Render
end Mustache
