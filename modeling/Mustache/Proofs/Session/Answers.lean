import Mustache.Proofs.Render.Correct
import Mustache.Session

/-! What an engine answers to a request does not depend on the programs that it finds in its
store. -/
namespace Mustache

open Markup

/-- From every store that can be relied on, an action comes to one result after the same calls. -/
def Yields (known : Engine → String → Prop) (calls : List Call) {α : Type} (action : StateM Store α)
    (a : α) (calls' : List Call) : Prop :=
  ∀ store, Genuine known store → store.calls = calls →
    (action.run store).1 = a ∧ (action.run store).2.calls = calls' ∧
      Genuine known (action.run store).2

namespace Yields

variable {known : Engine → String → Prop} {calls calls' calls'' : List Call} {α β : Type}

theorem pure (a : α) : Yields known calls (Pure.pure a) a calls :=
  fun _ genuine same => ⟨rfl, same, genuine⟩

theorem bind {action : StateM Store α} {next : α → StateM Store β} {a : α} {b : β}
    (first : Yields known calls action a calls') (later : Yields known calls' (next a) b calls'') :
    Yields known calls (action >>= next) b calls'' := by
  intro store genuine same
  obtain ⟨result, middle, genuine'⟩ := first store genuine same
  have unfolded : (action >>= next).run store =
      (next (action.run store).1).run (action.run store).2 := rfl
  rw [unfolded, result]
  exact later _ genuine' middle

theorem fetch {e : Engine} {source : String} (there : known e source) (apart : Apart known e source)
    (origin : Engine.Origin) :
    Yields known calls (e.fetch origin source)
      (Program.compile e.dialect (e.templateKey source) source) calls := by
  intro store genuine same
  obtain ⟨result, kept, genuine'⟩ := Engine.fetch_run genuine there apart origin
  exact ⟨result, kept.trans same, genuine'⟩

theorem render {env : Render.Env} {program : Program} {template : Direct.Template}
    (mirrors : Render.Mirrors ⟨env, known, .late⟩ program template) {context : Value}
    (readable : ∀ source ∈ (Direct.render env .late template context calls).reads,
      Render.Readable ⟨env, known, .late⟩ source) :
    Yields known calls (Render.render env program context)
      (Direct.render env .late template context calls).outcome
      (Direct.render env .late template context calls).trace.calls := by
  rintro store genuine rfl
  exact Render.render_of_mirrors mirrors context genuine readable

end Yields

namespace Session

theorem bind_eq_ok {ε α β : Type} {first : Except ε α} {next : α → Except ε β} {b : β}
    (same : first >>= next = .ok b) : ∃ a, first = .ok a ∧ next a = .ok b := by
  cases first with
  | error e => cases same
  | ok a => exact ⟨a, rfl, same⟩

/-- The sources that are read to present one. -/
def presented (env : Render.Env) (calls : List Call) (source : String) (input : Input) :
    List String :=
  source :: match parse env.engine.pragmas source, input.value with
    | .ok tree, .ok context => (Direct.render env .late ⟨source, tree⟩ context calls).reads
    | _, _ => []

end Session

/-- The sources that are read, and hashed, for a request. -/
def Request.reads (env : Render.Env) (calls : List Call) : Request → List String
  | .render name input =>
    match env.engine.loader.load env.shelves name with
    | some source => Session.presented env calls source input
    | none => []
  | .compileRender source input => Session.presented env calls source input
  | .loadTemplate name => (env.engine.loader.load env.shelves name).toList
  | .compile source | .templateKey source | .describe source => [source]
  | _ => []

def Request.engine (e : Engine) : Request → Engine
  | .addHelper name v => e.addHelper name v
  | .removeHelper name => (e.removeHelper name).2
  | _ => e

namespace Session

variable {known : Engine → String → Prop} {calls : List Call} {env : Render.Env}

theorem exists_present {source : String} {input : Input} (answer : Program → String → Answer)
    (readable : ∀ text ∈ presented env calls source input,
      Render.Readable ⟨env, known, .late⟩ text) :
    ∃ reply calls', Yields known calls
      (present env (Program.compile env.engine.dialect (env.engine.templateKey source) source) input
        answer) reply calls' := by
  have here := readable source List.mem_cons_self
  unfold present
  cases parsed : parse env.engine.pragmas source with
  | error flaw =>
    rw [Program.compile_of_flaw env.engine.dialect _ parsed]
    exact ⟨_, _, .pure _⟩
  | ok tree =>
    rw [Program.compile_of_tree env.engine.dialect _ parsed]
    dsimp only
    cases arrived : input.value with
    | error e => exact ⟨_, _, .pure _⟩
    | ok context =>
      have mirrors := Render.Mirrors.of_parse here (env.engine.templateKey source) parsed
      have later : ∀ text ∈ (Direct.render env .late ⟨source, tree⟩ context calls).reads,
          Render.Readable ⟨env, known, .late⟩ text := by
        intro text member
        apply readable
        unfold presented
        rw [parsed, arrived]
        exact List.mem_cons_of_mem source member
      have rendered := Yields.render mirrors later
      generalize (Direct.render env .late ⟨source, tree⟩ context calls).outcome = outcome at rendered
      rcases outcome with (e | fault) | text
      · exact ⟨_, _, rendered.bind (.pure _)⟩
      · exact ⟨_, _, rendered.bind (.pure _)⟩
      · exact ⟨_, _, rendered.bind (.pure _)⟩

/-- The answer to a request does not depend on the store, unless the store is what is asked about. -/
theorem exists_answer {request : Request} (shown : ∀ source, request ≠ .describe source)
    (readable : ∀ text ∈ request.reads env calls, Render.Readable ⟨env, known, .late⟩ text) :
    ∃ reply calls', Yields known calls (answer env request) (reply, request.engine env.engine) calls' := by
  cases request with
  | render name input =>
    dsimp only [Request.reads] at readable
    unfold answer Engine.fetchNamed
    dsimp only
    cases loaded : env.engine.loader.load env.shelves name with
    | none => exact ⟨_, _, .bind (.pure _) (.bind (.pure _) (.pure _))⟩
    | some source =>
      rw [loaded] at readable
      have here := readable source List.mem_cons_self
      obtain ⟨reply, calls', presents⟩ := exists_present (fun _ text => .output text) readable
      exact ⟨_, _, (Yields.fetch here.isKnown here.apart .template).bind (presents.bind (.pure _))⟩
  | compileRender source input =>
    have here := readable source List.mem_cons_self
    obtain ⟨reply, calls', presents⟩ := exists_present (fun program text => .rendered text program) readable
    exact ⟨_, _, (Yields.fetch here.isKnown here.apart .template).bind (presents.bind (.pure _))⟩
  | compile source =>
    have here := readable source List.mem_cons_self
    exact ⟨_, _, (Yields.fetch here.isKnown here.apart .template).bind (.pure _)⟩
  | loadTemplate name =>
    dsimp only [Request.reads] at readable
    unfold answer Engine.fetchNamed
    dsimp only
    cases loaded : env.engine.loader.load env.shelves name with
    | none => exact ⟨_, _, .bind (.pure _) (.pure _)⟩
    | some source =>
      rw [loaded] at readable
      have here := readable source (List.mem_singleton_self source)
      exact ⟨_, _, (Yields.fetch here.isKnown here.apart .template).bind (.pure _)⟩
  | templateKey source => exact ⟨_, _, .pure _⟩
  | addHelper name v => exact ⟨_, _, .pure _⟩
  | getHelper name =>
    unfold answer
    dsimp only
    cases env.engine.helper name with
    | ok v => exact ⟨_, _, .pure _⟩
    | error e => exact ⟨_, _, .pure _⟩
  | hasHelper name => exact ⟨_, _, .pure _⟩
  | removeHelper name => exact ⟨_, _, .pure _⟩
  | helpers => exact ⟨_, _, .pure _⟩
  | settings => exact ⟨_, _, .pure _⟩
  | describe source => exact absurd rfl (shown source)

theorem engine_of_answer (env : Render.Env) (request : Request) (store : Store) :
    ((answer env request).run store).1.2 = request.engine env.engine := by
  cases request with
  | getHelper name =>
    unfold answer
    dsimp only
    cases env.engine.helper name <;> rfl
  | describe source =>
    unfold answer
    rw [StateT.run_bind]
    generalize (env.engine.fetch .template source).run store = fetched
    obtain ⟨_ | _, store'⟩ := fetched <;> rfl
  | _ => rfl

end Session
end Mustache
