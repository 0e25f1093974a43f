import Mustache.Proofs.Render.Accounted
import Mustache.Proofs.Render.Faultless
import Mustache.Proofs.Render.Stepping

/-! What blocks render: the argument of the outermost parent that gives one, and their own bodies only
if no parent does. -/
namespace Mustache.Render

open Markup

section

variable (s : Stage) {m : Machine} {name : String}

/-- A block for which nothing is given renders its own body. -/
theorem run_slot_body (absent : m.overlay.find? name = none) (skip : Nat) (list : List Instr)
    (expression : Option Value) :
    (s.steps (.slot name skip :: list) 0 expression).run.run m =
      (s.steps list 0 expression).run.run m := by
  have looked : (s.slot name).run.run m = (.ok none, m) := by
    unfold Stage.slot
    rw [run_bind, run_get]
    dsimp only
    rw [absent]
    rfl
  rw [Stage.steps_slot, run_bind, looked]

/-- A block for which an argument is given renders it, and its own body is left out. -/
theorem run_slot_given {o : Override} (given : m.overlay.find? name = some o) {instrs : List Instr}
    (found : Entries.get? o.key o.program.blocks = some instrs) (body rest : List Instr)
    (expression : Option Value) :
    (s.steps (.slot name body.length :: (body ++ rest)) 0 expression).run.run m =
      (joined (deeper s.env.engine.maxDepth (s.nested o.program instrs ""))
        (s.steps rest 0 expression)).run.run m := by
  let argument : Act String := deeper s.env.engine.maxDepth (s.nested o.program instrs "")
  have looked : (s.slot name).run.run m = (argument >>= fun text => pure (some text)).run.run m := by
    unfold Stage.slot
    rw [run_bind, run_get]
    dsimp only
    rw [given]
    dsimp only
    rw [found]
  rw [Stage.steps_slot, run_bind, looked, ← run_bind, bind_assoc]
  simp only [pure_bind, Stage.steps_skip, joined]
  rfl

end

/-- In a render, a block renders the argument that the outermost of the parents that give one gives for
its name, out of the program that has the tag of that parent, and its own body just if none does.
A name that has an argument keeps it while more is entered and left, and as long as the parent that
gave it is being rendered. -/
theorem render_most_derived (env : Env) {program : Program} (built : program.Built) (context : Value)
    {store : Store} (stored : store.Built) :
    let seen := watchRender env program context store
    (render env program context store = (seen.outcome, seen.machine.store) ∧
        seen.machine.overlay = []) ∧
      (∀ moment ∈ seen.moments, ∀ owner name skip list,
        moment.event = .reached owner (.slot name skip :: list) →
          ∃ body rest, list = body ++ rest ∧ body.length = skip ∧
            ∀ (s : Stage) expression, s.env = env →
              let reached := (s.steps (.slot name skip :: list) 0 expression).run.run moment.machine
              match supplied moment.active name with
              | none => reached = (s.steps (body ++ rest) 0 expression).run.run moment.machine
              | some o => ∃ instrs, Entries.get? o.key o.program.blocks = some instrs ∧
                reached = (joined (deeper env.engine.maxDepth (s.nested o.program instrs ""))
                  (s.steps rest 0 expression)).run.run moment.machine) ∧
      (∀ moment ∈ seen.moments, ∀ name, moment.machine.overlay.find? name = supplied moment.active name ∧
        ∀ o, supplied moment.active name = some o ↔
          ∃ inner invocation outer, moment.active = inner ++ invocation :: outer ∧
            invocation.supplies? name = some o ∧ ∀ other ∈ outer, other.supplies? name = none) ∧
      ∀ moment ∈ seen.moments, ∀ later ∈ seen.moments, ∀ inner,
        later.active = inner ++ moment.active → ∀ name o,
          moment.machine.overlay.find? name = some o → later.machine.overlay.find? name = some o := by
  intro seen
  obtain ⟨steady, fits⟩ := keeps_watchRun Fits.invariant
    (env.engine.maxDepth + lambdaAllowance + 1) program program.instrs "" []
    (initial env context store) (.here env.engine.maxDepth _)
  have overlay (moment : Moment) (member : moment ∈ seen.moments) (name : String) :
      moment.machine.overlay.find? name = supplied moment.active name :=
    (fits moment member).overlay name
  have placed : Placed Program.Built 0 (initial env context store) := ⟨rfl, nofun⟩
  have sound := (good_watchRun_built env (env.engine.maxDepth + lambdaAllowance + 1) 0
    ⟨built, .main⟩ "" [] _ placed (steady.store.built stored).memo).2.2
  refine ⟨⟨render_eq_watchRender .., steady.overlay⟩, ?_, ?_, ?_⟩
  · intro moment member owner name skip list reached
    obtain ⟨pending, ready⟩ := (sound moment member).ready owner _ reached
    -- the body is what may be skipped, so there is as much of it
    have enough : skip ≤ list.length :=
      (ready.2 (skip, pending) (List.mem_cons_of_mem _ List.mem_cons_self)).skip_le
    have length : (list.take skip).length = skip := List.length_take_of_le enough
    refine ⟨list.take skip, list.drop skip, (List.take_append_drop skip list).symm, length, ?_⟩
    intro s expression same
    cases given : supplied moment.active name with
    | none =>
      dsimp only
      rw [List.take_append_drop]
      exact run_slot_body s ((overlay moment member name).trans given) skip list expression
    | some o =>
      have there := (overlay moment member name).trans given
      obtain ⟨instrs, found⟩ :=
        Option.isSome_iff_exists.1 ((sound moment member).resolves name o there).found
      have ran := run_slot_given s there found (list.take skip) (list.drop skip) expression
      rw [List.take_append_drop, length, same] at ran
      exact ⟨instrs, found, ran⟩
  · exact fun moment member name => ⟨overlay moment member name, fun o => supplied_eq_some_iff⟩
  · intro moment member later member' inner nested name o found
    rw [overlay moment member] at found
    rw [overlay later member', nested, supplied_append, found]
    rfl

/-- Two parents that each give an argument for the block of a partial. -/
theorem render_most_derived_nested :
    ∃ tree, parse { blocks := true }
          "\x7b\x7b<q\x7d\x7d\x7b\x7b$b\x7d\x7d1\x7b\x7b/b\x7d\x7d\x7b\x7b/q\x7d\x7d" = .ok tree ∧
      let engine : Engine :=
        { pragmas := { blocks := true }
          partials := some (.fixed [
            ("q", "\x7b\x7b<p\x7d\x7d\x7b\x7b$b\x7d\x7d2\x7b\x7b/b\x7d\x7d\x7b\x7b/p\x7d\x7d"),
            ("p", "\x7b\x7b$b\x7d\x7d3\x7b\x7b/b\x7d\x7d")]) }
      let env : Env := ⟨engine, [], ({} : Registry).lambdas⟩
      let program := Program.ofNodes engine.dialect default
        "\x7b\x7b<q\x7d\x7d\x7b\x7b$b\x7d\x7d1\x7b\x7b/b\x7d\x7d\x7b\x7b/q\x7d\x7d" tree
      let seen := watchRender env program .null {}
      (render env program .null {}).1 = .ok "1" ∧
        seen.moments.map (fun moment => (moment.active.length,
            (supplied moment.active "b").map fun o => decide (o.program = program))) =
          [(0, none), (0, none), (1, some true), (1, some true), (2, some true), (2, some true),
            (3, some true)] ∧
        ∀ moment ∈ seen.moments, moment.machine.overlay.find? "b" = supplied moment.active "b" := by
  generalize whole :
    "\x7b\x7b<q\x7d\x7d\x7b\x7b$b\x7d\x7d1\x7b\x7b/b\x7d\x7d\x7b\x7b/q\x7d\x7d" = source
  let given : Node := .region .argument ⟨.blockOpen, ⟨6, 12⟩, "b", .default, "", false⟩ ⟨"b", []⟩
    [.literal ⟨.text, ⟨12, 13⟩, "1", .default, "", false⟩] ⟨.close, ⟨13, 19⟩, "b", .default, "", false⟩
  let tree : List Node := [.region .parent ⟨.parentOpen, ⟨0, 6⟩, "q", .default, "", false⟩ ⟨"q", []⟩
    [given] ⟨.close, ⟨19, 25⟩, "q", .default, "", false⟩]
  have parsed : parse { blocks := true } source = .ok tree := by
    subst whole
    with_unfolding_all rfl
  refine ⟨tree, parsed, ?_⟩
  intro engine env program seen
  have built : program.Built := ⟨_, _, _, Program.compile_of_tree _ default parsed⟩
  have derived := render_most_derived env built .null Store.built_empty
  obtain ⟨ended, counted⟩ : seen.outcome = .ok "1" ∧
      seen.moments.map (fun moment => (moment.active.length,
          (supplied moment.active "b").map fun o => decide (o.program = program))) =
        [(0, none), (0, none), (1, some true), (1, some true), (2, some true), (2, some true),
          (3, some true)] := by
    subst whole
    decide +kernel
  have first (ran : Except Stop String × Store) (seen : Watched String)
      (same : ran = (seen.outcome, seen.machine.store)) (ended : seen.outcome = .ok "1") :
      ran.1 = .ok "1" := by
    rw [same]
    exact ended
  exact ⟨first _ seen derived.1.1 ended, counted,
    fun moment member => (derived.2.2.1 moment member "b").1⟩

end Mustache.Render
