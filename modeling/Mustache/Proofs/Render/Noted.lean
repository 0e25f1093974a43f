import Mustache.Proofs.Engine.Fetched
import Mustache.Proofs.Render.Accounted

/-! What there is to note of a run: the instructions that it comes to, with their expressions, and the
sources that are fetched meanwhile. The machine that a run starts with decides both. -/
namespace Mustache.Render

inductive Note
  | came (program : Program) (instr : Instr) (expression : Option Value)
  | fetched (fetch : Fetch)

def Note.fetch? : Note → Option Fetch
  | came _ _ _ => none
  | fetched fetch => some fetch

/-- The lambda that a section is for, if the note tells of one. -/
def Note.callable? : Note → Option Lambda
  | .came within (.repeated _) (some v) => v.callable? within.strictCallables
  | _ => none

def fetchesIn (notes : List Note) : List Fetch := notes.filterMap Note.fetch?

theorem fetchesIn_append (notes more : List Note) :
    fetchesIn (notes ++ more) = fetchesIn notes ++ fetchesIn more :=
  List.filterMap_append

theorem mem_fetchesIn {notes : List Note} {fetch : Fetch} :
    fetch ∈ fetchesIn notes ↔ .fetched fetch ∈ notes := by
  unfold fetchesIn
  rw [List.mem_filterMap]
  constructor
  · rintro ⟨_ | other, member, same⟩
    · cases same
    · cases same
      exact member
  · exact fun member => ⟨_, member, rfl⟩

/-- What is noted of bodies and of what is nested one level deeper. -/
structure Noters where
  body : Section → Machine → List Note
  nested : Program → List Instr → String → Machine → List Note

/-- What is noted after something has been run, unless it has stopped. -/
def afterwards {α : Type} (more : α → Machine → List Note) : Except Stop α × Machine → List Note
  | (.ok a, m) => more a m
  | (.error _, _) => []

def Plan.notes (s : Stage) (n : Noters) : {α : Type} → Plan α → Machine → List Note
  | _, .bind first next, m =>
    notes s n first m ++ afterwards (fun a => notes s n (next a)) ((first.act s).run.run m)
  | _, .fetch origin source, m => [.fetched (s.env.engine.fetched origin source m.store)]
  | _, .located _ inner, m => notes s n inner m
  | _, .observed inner, m => notes s n inner m
  | _, .keepingLineStart inner, m => notes s n inner m
  | _, .aside inner, m => notes s n inner m
  | _, .within frame sec, m => n.body sec { m with frames := frame :: m.frames }
  | _, .invoke invocation program instrs indent, m =>
    if s.env.engine.maxDepth ≤ m.depth then [] else n.nested program instrs indent (m.enter invocation)
  | _, .answer program, m => n.nested program program.instrs "" { m with lineStart := true }
  | _, .pure _, _ | _, .stop _, _ | _, .reach _, _ | _, .find _, _ | _, .given _, _ | _, .put _ _, _
  | _, .record _, _ => []

def Stage.notes (s : Stage) (n : Noters) : List Instr → Nat → Option Value → Machine → List Note
  | [], _, _, _ => []
  | _ :: rest, skip + 1, expression, m => notes s n rest skip expression m
  | instr :: rest, 0, expression, m =>
    .came s.program instr expression :: ((s.place.step instr expression).notes s n m ++
      afterwards (fun outcome => notes s n rest outcome.skip outcome.expression)
        ((s.step instr expression).run.run m))

def notesOfBody (env : Env) (runner : Runner)
    (nested : Program → List Instr → String → Machine → List Note) (program : Program)
    (indent : String) : Nat → List Instr → Machine → List Note
  | 0, _ => fun _ => []
  | budget + 1, instrs =>
    let body (sec : Section) := runBody env runner program indent budget sec.instrs
    let noted (sec : Section) := notesOfBody env runner nested program indent budget sec.instrs
    Stage.notes ⟨env, program, indent, body, runner⟩ ⟨noted, nested⟩ instrs 0 none

def notesOfRun (env : Env) : Nat → Program → List Instr → String → Machine → List Note
  | 0 => fun _ _ _ _ => []
  | levels + 1 => fun program instrs indent =>
    notesOfBody env (run env levels) (notesOfRun env levels) program indent (program.source.length + 2)
      instrs

def notesOfRender (env : Env) (program : Program) (context : Value) (store : Store) : List Note :=
  notesOfRun env (env.engine.maxDepth + lambdaAllowance + 1) program program.instrs ""
    (initial env context store)

/-- A machine that has been left by something of which there are these notes. -/
structure Left (e : Engine) (m : Machine) (notes : List Note) (m' : Machine) : Prop where
  overlay : m'.overlay = m.overlay
  fetches : e.Fetches m.store (fetchesIn notes) m'.store

theorem Left.trans {e : Engine} {first second third : Machine} {notes more : List Note}
    (before : Left e first notes second) (after : Left e second more third) :
    Left e first (notes ++ more) third where
  overlay := after.overlay.trans before.overlay
  fetches := by
    rw [fetchesIn_append]
    exact before.fetches.trans after.fetches

/-- The notes account for what an action does to the store. -/
def Accounts (e : Engine) {α : Type} (action : Act α) (notes : Machine → List Note) : Prop :=
  ∀ m, Left e m (notes m) (action.run.run m).2

theorem Accounts.bind {e : Engine} {α β : Type} {first : Act α} {next : α → Act β}
    {notes : Machine → List Note} {more : α → Machine → List Note} (before : Accounts e first notes)
    (after : ∀ a, Accounts e (next a) (more a)) :
    Accounts e (first >>= next) fun m => notes m ++ afterwards more (first.run.run m) := by
  intro m
  have left := before m
  rw [run_bind]
  dsimp only
  generalize first.run.run m = ran at left ⊢
  obtain ⟨stop | a, m'⟩ := ran
  · have same : afterwards more (.error stop, m') = [] := rfl
    rw [same, List.append_nil]
    exact left
  · exact left.trans (after a m')

theorem Accounts.map {e : Engine} {α β : Type} {action : Act α} {notes : Machine → List Note}
    (accounts : Accounts e action notes) (f : α → β) :
    Accounts e (action >>= fun a => pure (f a)) notes := by
  intro m
  have left := accounts m
  rw [run_bind]
  generalize action.run.run m = ran at left ⊢
  obtain ⟨_ | a, m'⟩ := ran <;> exact left

/-- Running something that is cleaned up after leaves the store that it has left. -/
theorem Accounts.andFinally {e : Engine} {α : Type} {action : Act α} (cleanup : Act Unit) {m : Machine}
    (overlay : Overlay) {notes : List Note}
    (inner : e.Fetches m.store (fetchesIn notes) (action.run.run m).2.store)
    (cleaned : (cleanup.run.run (action.run.run m).2).2.overlay = overlay ∧
      (cleanup.run.run (action.run.run m).2).2.store = (action.run.run m).2.store) :
    ((andFinally action cleanup).run.run m).2.overlay = overlay ∧
      e.Fetches m.store (fetchesIn notes) ((andFinally action cleanup).run.run m).2.store := by
  rw [run_andFinally]
  generalize action.run.run m = ran at inner cleaned ⊢
  obtain ⟨result, m'⟩ := ran
  dsimp only at cleaned ⊢
  generalize cleanup.run.run m' = ended at cleaned ⊢
  obtain ⟨_ | _, m''⟩ := ended <;> exact ⟨cleaned.1, cleaned.2 ▸ inner⟩

theorem popFrame_run (m : Machine) :
    (popFrame.run.run m).2.overlay = m.overlay ∧ (popFrame.run.run m).2.store = m.store := by
  unfold popFrame
  rw [run_bind, run_get]
  dsimp only
  cases m.frames <;> exact ⟨rfl, rfl⟩

theorem Accounts.entering {e : Engine} {action : Act String} {notes : Machine → List Note}
    (accounts : Accounts e action notes) (invocation : Invocation) (m : Machine) :
    Left e m (notes { m with overlay := invocation.overlay m.overlay })
      ((Plan.entering invocation action).run.run m).2 := by
  cases invocation with
  | parent program name keys =>
    let pushed : Machine := { m with overlay := m.overlay.push (Invocation.overrides program keys) }
    have left := accounts pushed
    have popped : popOverlay.run.run (action.run.run pushed).2 =
        (.ok (), { (action.run.run pushed).2 with overlay := m.overlay }) := by
      unfold popOverlay
      rw [run_bind, run_get]
      dsimp only
      rw [left.overlay]
      rfl
    have finished := andFinally popOverlay m.overlay left.fetches
      (by rw [popped]; exact ⟨rfl, rfl⟩)
    have unfolded : (Plan.entering (.parent program name keys) action).run.run m =
        (Render.andFinally action popOverlay).run.run pushed := rfl
    rw [unfolded]
    exact ⟨finished.1, finished.2⟩
  | _ => exact accounts m

theorem Accounts.plan {s : Stage} {n : Noters}
    (body : ∀ sec, Accounts s.env.engine (s.body sec) (n.body sec))
    (nested : ∀ program instrs indent,
      Accounts s.env.engine (s.nested program instrs indent) (n.nested program instrs indent))
    {α : Type} (plan : Plan α) : Accounts s.env.engine (plan.act s) (plan.notes s n) := by
  induction plan with
  | pure a => exact fun m => ⟨rfl, .nil⟩
  | bind first next ih ih' => exact ih.bind ih'
  | stop cause => exact fun m => ⟨rfl, .nil⟩
  | reach instrs => exact fun m => ⟨rfl, .nil⟩
  | find ref => exact fun m => ⟨rfl, .nil⟩
  | given name => exact fun m => ⟨rfl, .nil⟩
  | put text ends => exact fun m => ⟨rfl, .nil⟩
  | record call => exact fun m => ⟨rfl, .calls [] _ _ .nil⟩
  | fetch origin source =>
    intro m
    show Left _ _ _ (((inStore (s.env.engine.fetch origin source) >>= ofExcept).run.run m).2)
    rw [run_fetch]
    exact ⟨rfl, .single _ _ _ _⟩
  | located span inner ih =>
    intro m
    show Left _ _ _ ((Render.located s.program.source span (inner.act s)).run.run m).2
    rw [run_located]
    exact ih m
  | observed inner ih =>
    intro m
    show Left _ _ _ ((Render.observed (inner.act s)).run.run m).2
    rw [run_observed]
    exact ih m
  | keepingLineStart inner ih =>
    intro m
    let cleanup : Act Unit := modify fun ended => { ended with lineStart := m.lineStart }
    have left := ih m
    have finished := andFinally cleanup m.overlay left.fetches ⟨left.overlay, rfl⟩
    exact ⟨finished.1, finished.2⟩
  | aside inner ih =>
    intro m
    let cleanup : Act Unit := modify fun ended => { m with store := ended.store }
    have finished := andFinally cleanup m.overlay (ih m).fetches ⟨rfl, rfl⟩
    exact ⟨finished.1, finished.2⟩
  | within frame sec =>
    intro m
    have left := body sec { m with frames := frame :: m.frames }
    have popped := popFrame_run ((s.body sec).run.run { m with frames := frame :: m.frames }).2
    have finished := andFinally popFrame m.overlay left.fetches
      ⟨popped.1.trans left.overlay, popped.2⟩
    exact ⟨finished.1, finished.2⟩
  | invoke invocation program instrs indent =>
    intro m
    show Left _ _ (if _ then _ else _) ((deeper s.env.engine.maxDepth (Plan.entering invocation
      (s.nested program instrs indent))).run.run m).2
    rw [run_deeper]
    split
    · exact ⟨rfl, .nil⟩
    · have left := (nested program instrs indent).entering invocation { m with depth := m.depth + 1 }
      exact ⟨left.overlay, left.fetches⟩
  | answer program =>
    intro m
    have left := nested program program.instrs "" { m with lineStart := true }
    exact ⟨left.overlay, left.fetches⟩

theorem Accounts.steps {s : Stage} {n : Noters}
    (body : ∀ sec, Accounts s.env.engine (s.body sec) (n.body sec))
    (nested : ∀ program instrs indent,
      Accounts s.env.engine (s.nested program instrs indent) (n.nested program instrs indent))
    (instrs : List Instr) (skip : Nat) (expression : Option Value) :
    Accounts s.env.engine (s.steps instrs skip expression) (s.notes n instrs skip expression) := by
  induction instrs generalizing skip expression with
  | nil =>
    cases skip with
    | zero => cases expression <;> exact fun m => ⟨rfl, .nil⟩
    | succ skip => exact fun m => ⟨rfl, .nil⟩
  | cons instr rest ih =>
    cases skip with
    | succ skip => exact ih skip expression
    | zero =>
      have first := Accounts.plan body nested (s.place.step instr expression)
      rw [Place.act_step] at first
      have whole := first.bind fun outcome =>
        (ih outcome.skip outcome.expression).map (outcome.text ++ ·)
      exact fun m => ⟨(whole m).overlay, (whole m).fetches⟩

theorem accounts_runBody {env : Env} {runner : Runner}
    {nested : Program → List Instr → String → Machine → List Note}
    (accounts : ∀ program instrs indent,
      Accounts env.engine (runner program instrs indent) (nested program instrs indent))
    (program : Program) (indent : String) (budget : Nat) (instrs : List Instr) :
    Accounts env.engine (runBody env runner program indent budget instrs)
      (notesOfBody env runner nested program indent budget instrs) := by
  induction budget generalizing instrs with
  | zero => exact fun m => ⟨rfl, .nil⟩
  | succ budget ih =>
    let body (sec : Section) := runBody env runner program indent budget sec.instrs
    let s : Stage := ⟨env, program, indent, body, runner⟩
    have bodies (sec : Section) : Accounts s.env.engine (s.body sec) _ := ih sec.instrs
    exact Accounts.steps (n := ⟨_, nested⟩) bodies accounts instrs 0 none

theorem accounts_run (env : Env) (levels : Nat) (program : Program) (instrs : List Instr)
    (indent : String) :
    Accounts env.engine (run env levels program instrs indent)
      (notesOfRun env levels program instrs indent) := by
  induction levels generalizing program instrs indent with
  | zero => exact fun m => ⟨rfl, .nil⟩
  | succ levels ih => exact accounts_runBody ih program indent _ instrs

/-- The store that a render leaves is the one that it was given, after the fetches noted. -/
theorem fetches_render (env : Env) (program : Program) (context : Value) (store : Store) :
    env.engine.Fetches store (fetchesIn (notesOfRender env program context store))
      (render env program context store).2 :=
  (accounts_run env _ program program.instrs "" (initial env context store)).fetches

end Mustache.Render
