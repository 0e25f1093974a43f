import Mustache.Proofs.Render.Balanced

/-! What a machine holds at every moment of a run: its depth counts what is being rendered, and its
overlay has for each name the argument of the outermost parent that gives one. -/
namespace Mustache.Render

/-- The argument for a name that the outermost of the parents that give one gives. -/
def supplied (active : List Invocation) (name : String) : Option Override :=
  active.reverse.findSome? (Invocation.supplies? name)

theorem supplied_append (inner active : List Invocation) (name : String) :
    supplied (inner ++ active) name = (supplied active name <|> supplied inner name) := by
  unfold supplied
  rw [List.reverse_append, List.findSome?_append]
  cases List.findSome? (Invocation.supplies? name) active.reverse <;> rfl

theorem supplied_cons (invocation : Invocation) (active : List Invocation) (name : String) :
    supplied (invocation :: active) name = (supplied active name <|> invocation.supplies? name) := by
  have single : supplied [invocation] name = invocation.supplies? name := List.findSome?_singleton
  rw [← single]
  exact supplied_append [invocation] active name

theorem supplied_eq_some_iff {active : List Invocation} {name : String} {o : Override} :
    supplied active name = some o ↔ ∃ inner invocation outer, active = inner ++ invocation :: outer ∧
      invocation.supplies? name = some o ∧ ∀ other ∈ outer, other.supplies? name = none := by
  unfold supplied
  rw [List.findSome?_eq_some_iff]
  constructor
  · rintro ⟨outer, invocation, inner, reversed, gives, silent⟩
    refine ⟨inner.reverse, invocation, outer.reverse, ?_, gives, ?_⟩
    · rw [← List.reverse_reverse active, reversed]
      simp
    · exact fun other member => silent other (List.mem_reverse.1 member)
  · rintro ⟨inner, invocation, outer, rfl, gives, silent⟩
    refine ⟨outer.reverse, invocation, inner.reverse, by simp, gives, ?_⟩
    exact fun other member => silent other (List.mem_reverse.1 member)

/-- A machine at a moment of a run, told by what is being rendered. -/
structure Fits (limit : Nat) (entry : Machine) (active : List Invocation) (m : Machine) : Prop where
  depth : m.depth = entry.depth + active.length
  bounded : m.depth ≤ max entry.depth limit
  overlay : ∀ name, m.overlay.find? name = (entry.overlay.find? name <|> supplied active name)

namespace Fits

variable {limit : Nat} {entry : Machine}

theorem here (limit : Nat) (m : Machine) : Fits limit m [] m where
  depth := rfl
  bounded := Nat.le_max_left _ _
  overlay := by
    intro name
    cases m.overlay.find? name <;> rfl

theorem invariant : Invariant limit (Fits limit entry) where
  kept := by
    intro active m m' fits overlay depth
    exact ⟨depth ▸ fits.depth, depth ▸ fits.bounded, overlay ▸ fits.overlay⟩
  entered := by
    intro active m invocation fits below
    constructor
    · show m.depth + 1 = _
      rw [fits.depth, List.length_cons, Nat.add_assoc]
    · show m.depth + 1 ≤ _
      omega
    · intro name
      show (invocation.overlay m.overlay).find? name = _
      rw [Invocation.find?_overlay, fits.overlay, supplied_cons]
      cases entry.overlay.find? name <;> rfl

end Fits

theorem run_deeper (limit : Nat) (action : Act String) (m : Machine) :
    (deeper limit action).run.run m =
      if limit ≤ m.depth then (.error (.error { cause := .tooDeep limit }), m)
      else
        let (result, after) := action.run.run { m with depth := m.depth + 1 }
        (result, { after with depth := after.depth - 1 }) := by
  unfold deeper
  rw [run_bind, run_get]
  dsimp only
  by_cases full : limit ≤ m.depth
  · rw [if_pos full, if_pos full]
    rfl
  · rw [if_neg full, if_neg full, run_bind, run_modify]
    dsimp only
    rw [run_andFinally]
    rfl

/-- However a run ends, it leaves the frames, the overlay and the depth as they were. While it lasts,
the depth counts what is being rendered, and something to be nested is refused just if as much is
being rendered as the limit allows. -/
theorem run_balanced (env : Env) (levels : Nat) (program : Program) (instrs : List Instr)
    (indent : String) (m : Machine) (allowed : m.depth ≤ env.engine.maxDepth) :
    let seen := watchRun env levels program instrs indent [] m
    (run env levels program instrs indent).run.run m = (seen.outcome, seen.machine) ∧
      (seen.machine.frames = m.frames ∧ seen.machine.overlay = m.overlay ∧
        seen.machine.depth = m.depth) ∧
      (∀ moment ∈ seen.moments, moment.machine.depth = m.depth + moment.active.length ∧
        moment.machine.depth ≤ env.engine.maxDepth) ∧
      ∀ moment ∈ seen.moments, ∀ invocation, moment.event = .invoked invocation →
        ∀ action : Act String,
          (deeper env.engine.maxDepth action).run.run moment.machine =
            if m.depth + moment.active.length = env.engine.maxDepth then
              (.error (.error { cause := .tooDeep env.engine.maxDepth }), moment.machine)
            else
              let (result, after) :=
                action.run.run { moment.machine with depth := moment.machine.depth + 1 }
              (result, { after with depth := after.depth - 1 }) := by
  intro seen
  obtain ⟨steady, fits⟩ :=
    keeps_watchRun Fits.invariant levels program instrs indent [] m (.here env.engine.maxDepth m)
  have counted (moment : Moment) (member : moment ∈ seen.moments) :
      moment.machine.depth = m.depth + moment.active.length ∧
        moment.machine.depth ≤ env.engine.maxDepth := by
    have bounded := (fits moment member).bounded
    exact ⟨(fits moment member).depth, by omega⟩
  refine ⟨?_, ⟨steady.frames, steady.overlay, steady.depth⟩, counted, ?_⟩
  · rw [← act_watchRun env levels program instrs indent [], Watch.run_act]
  · intro moment member invocation _ action
    obtain ⟨depth, bounded⟩ := counted moment member
    have full : env.engine.maxDepth ≤ moment.machine.depth ↔
        m.depth + moment.active.length = env.engine.maxDepth := by omega
    rw [run_deeper]
    simp only [full]

/-- An argument with a block of its own name, entered from a depth of one under a limit of three. -/
theorem run_balanced_recursive :
    let env : Env := ⟨{ maxDepth := 3 }, [], ({} : Registry).lambdas⟩
    let program : Program :=
      ⟨default, "", .custom, false, [.slot "b" 0], [], [(default, [.slot "b" 0])]⟩
    let m : Machine := ⟨[.null], [[("b", ⟨program, default⟩)]], 1, true, {}⟩
    let seen := watchRun env 4 program program.instrs "" [] m
    m.depth ≤ env.engine.maxDepth ∧
      ((run env 4 program program.instrs "").run.run m).1 =
        .error (.error { cause := .tooDeep 3 }) ∧
      seen.moments.map (fun moment => (moment.active.length, moment.machine.depth)) =
        [(0, 1), (0, 1), (1, 2), (1, 2), (2, 3), (2, 3)] ∧
      seen.machine.frames = m.frames ∧ seen.machine.overlay = m.overlay ∧ seen.machine.depth = 1 := by
  intro env program m seen
  have balanced := run_balanced env 4 program program.instrs "" m (by decide)
  have ended : seen.outcome = .error (.error { cause := .tooDeep 3 }) ∧
      seen.moments.map (fun moment => (moment.active.length, moment.machine.depth)) =
        [(0, 1), (0, 1), (1, 2), (1, 2), (2, 3), (2, 3)] := by
    decide +kernel
  refine ⟨by decide, ?_, ended.2, balanced.2.1⟩
  rw [balanced.1]
  exact ended.1

end Mustache.Render
