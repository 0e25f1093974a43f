import Mustache.Proofs.Render.Faultless

/-! Rendering ends. What is nested is limited by the depth, bodies of sections by the length of their
source; only texts that lambdas have rendered are not, so it takes lambdas that have none rendered. -/
namespace Mustache.Render

open Markup

section

variable {env : Env}
  (quiet : ∀ id earlier text, ∃ result, env.lambdas.enclosing id earlier text = .done result)

include quiet

/-- Below the limit a run among unambiguous programs has fuel left when it ends, and ends in the same
way with any fuel that is enough. -/
theorem good_watchRun_unambiguous {levels levels' depth : Nat} (allowed : depth ≤ env.engine.maxDepth)
    (enough : env.engine.maxDepth < levels + depth) (enough' : env.engine.maxDepth < levels' + depth)
    {program : Program} {instrs : List Instr}
    (runnable : Runnable Program.Unambiguous program instrs) (indent : String) :
    Good Program.Unambiguous False depth (watchRun env levels program instrs indent)
      (watchRun env levels' program instrs indent) fun _ => True := by
  -- whatever takes a level goes one deeper, and below the limit there are always more levels left
  induction levels generalizing levels' depth program instrs indent with
  | zero => omega
  | succ levels ih =>
    obtain ⟨levels', rfl⟩ := Nat.exists_eq_succ_of_ne_zero (show levels' ≠ 0 by omega)
    refine good_watchBody (settled_watchRun env levels) ?_ False.elim (.inr quiet) runnable.granted
      runnable.granted.built.wellFormed indent runnable.owns (.inr ?_)
    · intro program instrs indent runnable below
      exact ih below (by omega) (by omega) runnable indent
    · exact runnable.granted.shallow runnable.owns

/-- A render ends with an output or an error, whatever partials, parents, block arguments and texts of
lambdas refer to, and more fuel makes no difference to it. Lambdas have no texts rendered; of each
program that is rendered or loaded, bodies that differ have different keys. -/
theorem render_ends {program : Program} (unambiguous : program.Unambiguous) (context : Value)
    (store : Store)
    (loaded : ∀ key other, Entries.get? key (render env program context store).2.memo = some other →
      other.Unambiguous) :
    ((∃ text, (render env program context store).1 = .ok text) ∨
        ∃ e, (render env program context store).1 = .error (.error e)) ∧
      ∀ levels, env.engine.maxDepth < levels →
        (let (result, m) :=
          (run env levels program program.instrs "").run.run (initial env context store)
        (result, m.store)) = render env program context store := by
  let seen := watchRender env program context store
  have placed : Placed Program.Unambiguous 0 (initial env context store) := ⟨rfl, nofun⟩
  rw [render_eq_watchRender] at loaded ⊢
  have good (levels : Nat) (enough : env.engine.maxDepth < levels) :=
    good_watchRun_unambiguous quiet (Nat.zero_le _)
      (show env.engine.maxDepth < env.engine.maxDepth + lambdaAllowance + 1 + 0 by omega)
      (show env.engine.maxDepth < levels + 0 by omega) ⟨unambiguous, .main⟩ "" [] _ placed loaded
  have fine : Fine False (fun _ => True) seen.outcome := (good _ (Nat.lt_succ_self _)).2.1
  refine ⟨?_, ?_⟩
  · show (∃ text, seen.outcome = .ok text) ∨ ∃ e, seen.outcome = .error (.error e)
    generalize seen.outcome = outcome at fine ⊢
    rcases outcome with (e | fault) | text
    · exact .inr ⟨e, rfl⟩
    · exact fine.2.elim
    · exact .inl ⟨text, rfl⟩
  · intro levels enough
    rw [← act_watchRun env levels program program.instrs "" [], Watch.run_act]
    exact congrArg (fun seen : Watched String => (seen.outcome, seen.machine.store))
      (good levels enough).1

end

/-- A partial that calls itself ends with an error. -/
theorem render_ends_cyclic :
    ∃ tree, parse {} "\x7b\x7b>p\x7d\x7d" = .ok tree ∧
      let engine : Engine := { partials := some (.fixed [("p", "\x7b\x7b>p\x7d\x7d")]), maxDepth := 1 }
      let env : Env := ⟨engine, [], ({} : Registry).lambdas⟩
      let program := Program.ofNodes engine.dialect default "\x7b\x7b>p\x7d\x7d" tree
      (render env program .null {}).1 = .error (.error { cause := .tooDeep 1 }) ∧
        ∀ levels, 1 < levels → ((run env levels program program.instrs "").run.run
          (initial env .null {})).1 = .error (.error { cause := .tooDeep 1 }) := by
  generalize whole : "\x7b\x7b>p\x7d\x7d" = source
  let engine : Engine := { partials := some (.fixed [("p", source)]), maxDepth := 1 }
  let env : Env := ⟨engine, [], ({} : Registry).lambdas⟩
  let tree : List Node := [.partialRef ⟨.partialTag, ⟨0, 6⟩, "p", .default, "", true⟩]
  let program := Program.ofNodes engine.dialect default source tree
  have parsed : parse {} source = .ok tree := by
    subst whole
    with_unfolding_all rfl
  have unambiguous (key : Key) : (Program.ofNodes engine.dialect key source tree).Unambiguous := by
    refine ⟨engine.dialect, key, source, tree, parsed, Program.compile_of_tree _ key parsed, ?_⟩
    rintro _ _ ⟨o, ⟨⟩, -⟩
  let ended (ran : Except Stop String × Store) : Prop := ran.1 = .error (.error { cause := .tooDeep 1 })
  let held (ran : Except Stop String × Store) : Bool :=
    ran.2.memo.all fun entry => entry.2 = .ofNodes engine.dialect entry.2.key source tree
  obtain ⟨stopped, all⟩ : ended (render env program .null {}) ∧ held (render env program .null {}) := by
    subst whole
    decide +kernel
  have loaded (key : Key) (other : Program)
      (found : Entries.get? key (render env program .null {}).2.memo = some other) :
      other.Unambiguous := by
    have same : other = .ofNodes engine.dialect other.key source tree :=
      of_decide_eq_true (List.all_eq_true.1 all _ (Entries.mem_of_get? found))
    rw [same]
    exact unambiguous other.key
  have quiet (id earlier : Nat) (text : String) :
      ∃ result, env.lambdas.enclosing id earlier text = .done result := ⟨_, rfl⟩
  have ends := render_ends quiet (unambiguous default) .null {} loaded
  exact ⟨tree, parsed, stopped, fun levels enough =>
    (congrArg Prod.fst (ends.2 levels enough)).trans stopped⟩

end Mustache.Render
