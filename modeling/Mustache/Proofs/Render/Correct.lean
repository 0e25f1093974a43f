import Mustache.Proofs.Engine.Identity
import Mustache.Proofs.Render.Stepping

/-! Programs run as their templates are evaluated. -/
namespace Mustache.Render

open Markup Direct

namespace Simulates

variable {w : World} {scope : Scope} {s : Stage} {page : Page} {nested : Evaluator}
  {rest : List Instr}

theorem joined {first more : Act String} {first' more' : Eval String}
    (before : Simulates w Eq scope first first') (after : Simulates w Eq scope more more') :
    Simulates w Eq scope (Render.joined first more) (Render.joined first' more') := by
  apply before.bind
  rintro text _ rfl
  apply after.bind
  rintro others _ rfl
  exact .pure rfl

theorem steps_lookup {set : Pragmas} {span : Span} {name : String} {eval : Eval String}
    (later : Simulates w Eq scope
      (s.steps rest 0 (some (scope.frames.find (Compile.ref set span name)))) eval) :
    Simulates w Eq scope
      (s.steps (.lookup ((Compile.ref set span name).respan page.place) :: rest) 0 none) eval := by
  rw [Stage.steps_lookup]
  apply Simulates.get
  intro m t related
  rw [related.frames]
  exact later

theorem steps_filters (staged : Staged w s page nested) (set : Pragmas) (span : Span)
    (filters : List String) {next : Value → Eval String}
    (later : ∀ v, Simulates w Eq scope (s.steps rest 0 (some v)) (next v)) (v : Value) :
    Simulates w Eq scope
      (s.steps ((filters.map fun filter =>
        Instr.apply ((Compile.ref set span filter).respan page.place)) ++ rest) 0 (some v))
      (Direct.applyAll w.env page scope set span v filters >>= next) := by
  induction filters generalizing v with
  | nil => exact later v
  | cons filter more ih =>
    rw [List.map_cons, List.cons_append, Stage.steps_apply, Direct.applyAll, bind_assoc]
    apply (Simulates.apply staged set span filter v).bind
    rintro u _ rfl
    exact ih u

theorem steps_filtered (staged : Staged w s page nested) (set : Pragmas) (span : Span) (name : Name)
    {next : Value → Eval String}
    (later : ∀ v, Simulates w Eq scope (s.steps rest 0 (some v)) (next v)) :
    Simulates w Eq scope
      (s.steps ((Compile.filtered set span name).map (Instr.respan page.place) ++ rest) 0 none)
      (Direct.applyAll w.env page scope set span (Direct.found scope set span name) name.filters >>=
        next) := by
  unfold Compile.filtered Compile.filters
  rw [List.map_cons, List.map_map]
  exact .steps_lookup (.steps_filters staged set span name.filters later _)

theorem steps_resolved (staged : Staged w s page nested) (set : Pragmas) (span : Span) (name : Name)
    {next : Value → Eval String}
    (later : ∀ v, Simulates w Eq scope (s.steps rest 0 (some v)) (next v)) :
    Simulates w Eq scope
      (s.steps ((Compile.resolved set span name).map (Instr.respan page.place) ++ rest) 0 none)
      (Direct.resolve w.env nested page scope span (Direct.found scope set span name) >>= fun v =>
        Direct.applyAll w.env page scope set span v name.filters >>= next) := by
  unfold Compile.resolved Compile.filters
  rw [List.map_cons, List.map_cons, List.map_map]
  apply Simulates.steps_lookup
  show Simulates w Eq scope (s.steps (.resolve (page.place span) :: _) 0 _) _
  rw [Stage.steps_resolve]
  apply (Simulates.resolve staged span _).bind
  rintro v _ rfl
  exact .steps_filters staged set span name.filters later v

theorem ref_of_sight (staged : Staged w s page nested) {set : Pragmas} {nodes : List Node}
    (within : ∀ p ∈ Node.pragmasOf nodes, p ∈ Node.pragmasOf page.template.tree) :
    Compile.ref (w.sight.pragmas set nodes) = Compile.ref (set.insertAll (Node.pragmasOf nodes)) := by
  funext span name
  unfold Compile.ref
  rw [lookup_of_sight staged.mirrors.readable staged.mirrors.parsed within]

theorem applyAll_congr {set set' : Pragmas} (same : Compile.ref set = Compile.ref set') (span : Span)
    (filters : List String) (v : Value) :
    Direct.applyAll w.env page scope set span v filters =
      Direct.applyAll w.env page scope set' span v filters := by
  induction filters generalizing v with
  | nil => rfl
  | cons filter more ih =>
    unfold Direct.applyAll Direct.apply
    rw [same]
    simp only [ih]

end Simulates

/-- Instructions run as something is evaluated, whatever comes after them. -/
def Stretch (w : World) (s : Stage) (scope : Scope) (instrs : List Instr) (eval : Eval String) : Prop :=
  ∀ rest more, Simulates w Eq scope (s.steps rest 0 none) more →
    Simulates w Eq scope (s.steps (instrs ++ rest) 0 none) (joined eval more)

namespace Stretch

variable {w : World} {scope : Scope} {s : Stage} {page : Page} {nested : Evaluator}

theorem nil : Stretch w s scope [] (pure "") := by
  intro rest more later
  rw [joined_empty]
  exact later

theorem append {first second : List Instr} {eval eval' : Eval String}
    (before : Stretch w s scope first eval) (after : Stretch w s scope second eval') :
    Stretch w s scope (first ++ second) (joined eval eval') := by
  intro rest more later
  rw [List.append_assoc, joined_assoc]
  exact before _ _ (after rest more later)

section

variable (staged : Staged w s page nested) {set : Pragmas}

include staged

theorem literal (text : String) :
    Stretch w s scope [.text text] (Direct.literal page text) := by
  intro rest more later
  rw [List.singleton_append, Stage.steps_text]
  exact .joined (.literal staged.indent text) later

theorem interpolation (tag : Token) (name : Name) :
    Stretch w s scope
      ((Compile.plain page.template.source set (.variable tag name)).map (Instr.respan page.place))
      (Direct.node w.env w.sight nested page scope set (.variable tag name)) := by
  intro rest more later
  rw [Compile.plain, Direct.node, List.map_append, List.append_assoc, joined_bind]
  simp only [joined_bind]
  apply Simulates.steps_resolved staged
  intro v
  show Simulates w Eq scope (s.steps (.emit (tag.kind = .escaped) (page.place tag.span) :: rest) 0 _) _
  rw [Stage.steps_emit]
  apply (Simulates.textOf staged tag.span v).bind
  rintro text _ rfl
  rw [staged.escaped]
  simp only [decide_eq_true_eq]
  exact .joined (.interpolated staged.indent _) later

theorem partialRef (tag : Token) :
    Stretch w s scope [.partialCall tag.content tag.indent]
      (Direct.partialCall w.env nested page scope tag.content tag.indent) := by
  intro rest more later
  rw [List.singleton_append, Stage.steps_partialCall]
  exact .joined (.partialCall staged tag.content tag.indent) later

theorem parent {given : List (String × Occurrence)}
    (members : ∀ name o, (name, o) ∈ given →
      o ∈ Node.bodiesOf false w.env.engine.pragmas page.template.tree ∧ o.role = .argument)
    (name indent : String) :
    Stretch w s scope
      [.parentCall name indent (given.map fun (name, o) => (name, o.key page.template.source))]
      (Direct.parentCall w.env nested page scope name indent given) := by
  intro rest more later
  rw [List.singleton_append, Stage.steps_parentCall]
  exact .joined (.parentCall staged name indent members) later

theorem «section» {opening closing : Token} {name : Name} {nodes : List Node}
    (member : ⟨.repeated, set, opening, nodes, closing⟩ ∈
      Node.bodiesOf false w.env.engine.pragmas page.template.tree)
    (fills : Fills w s page nested ⟨.repeated, set, opening, nodes, closing⟩) :
    Stretch w s scope
      ((Compile.plain page.template.source set (.region .repeated opening name nodes closing)).map
        (Instr.respan page.place))
      (Direct.node w.env w.sight nested page scope set
        (.region .repeated opening name nodes closing)) := by
  intro rest more later
  have within : Within w page.template set nodes := .of_mem member
  have same : Compile.ref (w.sight.pragmas set nodes) = _ :=
    Simulates.ref_of_sight staged within.pragmas
  rw [Compile.plain, Direct.node, List.map_append, List.append_assoc]
  unfold Direct.found
  rw [same, Simulates.applyAll_congr same, joined_bind]
  apply Simulates.steps_filtered staged
  intro v
  show Simulates w Eq scope (s.steps (.repeated _ :: rest) 0 _) _
  rw [Stage.steps_repeated]
  exact .joined (.repeats staged member rfl fills v) later

theorem inverted {opening closing : Token} {name : Name} {nodes : List Node}
    (inner : Stretch w s scope
      ((Compile.plainOf page.template.source set nodes).map (Instr.respan page.place))
      (Direct.nodes w.env w.sight nested page scope set nodes)) :
    Stretch w s scope
      ((Compile.plain page.template.source set (.region .inverted opening name nodes closing)).map
        (Instr.respan page.place))
      (Direct.node w.env w.sight nested page scope set
        (.region .inverted opening name nodes closing)) := by
  intro rest more later
  rw [Compile.plain, Direct.node, List.map_append, List.append_assoc, joined_bind]
  apply Simulates.steps_filtered staged
  intro v
  show Simulates w Eq scope (s.steps (.unlessEmpty _ :: (_ ++ rest)) 0 _) _
  rw [Stage.steps_unlessEmpty]
  split
  · exact inner rest more later
  · rw [joined_empty, ← List.length_map, Stage.steps_skip]
    exact later

theorem slot {opening closing : Token} {name : Name} {nodes : List Node}
    (inner : Stretch w s scope
      ((Compile.plainOf page.template.source set nodes).map (Instr.respan page.place))
      (Direct.nodes w.env w.sight nested page scope set nodes)) :
    Stretch w s scope
      ((Compile.plain page.template.source set (.region .slot opening name nodes closing)).map
        (Instr.respan page.place))
      (Direct.node w.env w.sight nested page scope set
        (.region .slot opening name nodes closing)) := by
  intro rest more later
  rw [Compile.plain, Direct.node]
  show Simulates w Eq scope (s.steps (.slot name.path _ :: (_ ++ rest)) 0 _) _
  rw [Stage.steps_slot]
  cases found : scope.overlay name.path with
  | some given =>
    apply (Simulates.slot_given staged found).bind
    rintro _ text rfl
    rw [← List.length_map, Stage.steps_skip]
    dsimp only
    unfold joined
    rw [pure_bind]
    apply later.bind
    rintro others _ rfl
    exact .pure rfl
  | none => exact .slot_absent found (inner rest more later)

theorem plainOf {nodes : List Node} (within : Within w page.template set nodes)
    (fills : ∀ o ∈ Node.bodiesOf false set nodes, o.role = .repeated → Fills w s page nested o) :
    Stretch w s scope
      ((Compile.plainOf page.template.source set nodes).map (Instr.respan page.place))
      (Direct.nodes w.env w.sight nested page scope set nodes) := by
  induction nodes using Node.forest generalizing set with
  | nil => exact .nil
  | literal t more ih => exact .append (.literal staged t.content) (ih within.tail fills)
  | pragma t p more ih => exact .append .nil (ih within.tail fills)
  | interpolation t name more ih =>
    rw [Compile.plainOf, Direct.nodes, List.map_append]
    exact .append (.interpolation staged t name) (ih within.tail fills)
  | partialRef t more ih => exact .append (.partialRef staged t) (ih within.tail fills)
  | region role opening name nodes closing more inner ih =>
    have rest := ih within.tail fun o member =>
      fills o (List.mem_append_right _ member)
    rw [Compile.plainOf, Direct.nodes, List.map_append]
    refine .append ?_ rest
    have inside (counts : role.counts false = true) (notParent : role ≠ .parent) :=
      inner (within.inner counts notParent) fun o member =>
        fills o (Node.mem_bodiesOf_region.2 (.inl ⟨counts, .inl (by
          rwa [decide_eq_false notParent])⟩))
    cases role with
    | «repeated» =>
      have member : ⟨.repeated, set, opening, nodes, closing⟩ ∈
          Node.bodiesOf false set (.region .repeated opening name nodes closing :: more) :=
        Node.mem_bodiesOf_region.2 (.inl ⟨rfl, .inr ⟨rfl, rfl⟩⟩)
      exact .section staged (within.bodies _ member) (fills _ member rfl)
    | inverted => exact .inverted staged (inside rfl (by decide))
    | slot => exact .slot staged (inside rfl (by decide))
    | parent =>
      refine .parent staged ?_ _ _
      intro name o given
      obtain ⟨member, role⟩ := Compile.mem_bodiesOf_of_mem_argumentsOf given
      exact ⟨within.bodies _ (Node.mem_bodiesOf_region.2 (.inl ⟨rfl, .inl member⟩)), role⟩
    | argument =>
      intro rest more later
      show Simulates w Eq scope (s.steps (.strayArgument name.path :: rest) 0 none) _
      rw [Stage.steps_strayArgument]
      exact .stop _

end

end Stretch

variable {w : World} {nested : Evaluator} {runner : Runner}

/-- Bodies nest less deeply than the budget, as each is shorter than the one around it. -/
theorem Runs.runBody (runs : Runs w runner nested) (budget : Nat) {program : Program} (page : Page)
    (scope : Scope) {set : Pragmas} {nodes : List Node} (mirrors : Mirrors w program page.template)
    (within : Within w page.template set nodes)
    (shorter : ∀ o ∈ Node.bodiesOf false set nodes, ∀ text,
      o.body.span.Covers page.template.source.toList text → text.length < budget) :
    Simulates w Eq scope
      (Render.runBody w.env runner program page.indent (budget + 1)
        ((Compile.plainOf page.template.source set nodes).map (Instr.respan page.place)))
      (Direct.nodes w.env w.sight nested page scope set nodes) := by
  induction budget using Nat.strongRecOn generalizing page scope set nodes with
  | ind budget ih =>
    let body (sec : Section) := Render.runBody w.env runner program page.indent budget sec.instrs
    have staged : Staged w ⟨w.env, program, page.indent, body, runner⟩ page nested :=
      ⟨rfl, mirrors, rfl, runs⟩
    have fills : ∀ o ∈ Node.bodiesOf false set nodes, o.role = .repeated →
        Fills w ⟨w.env, program, page.indent, body, runner⟩ page nested o := by
      intro o here role sec scope filed
      have member := within.bodies o here
      obtain ⟨text, covers, -⟩ := mirrors.exists_covers member
      have less := shorter o here text covers
      obtain ⟨smaller, rfl⟩ := Nat.exists_eq_add_of_lt (Nat.zero_lt_of_lt less)
      rw [Nat.zero_add] at less ih
      dsimp only [body]
      rw [Nat.zero_add, filed.instrs]
      refine ih smaller (Nat.lt_succ_self _) { page with place := _ } scope mirrors (.of_mem member) ?_
      intro deep there text' covers'
      have := length_lt_of_nested mirrors.parsed member there covers covers'
      omega
    have last : Simulates w Eq scope (pure "" : Act String) (pure "") := .pure rfl
    have stretch := Stretch.plainOf staged within fills [] _ last
    rwa [List.append_nil, joined_empty_right] at stretch

theorem runs_run (w : World) (levels : Nat) :
    Runs w (run w.env levels) (Direct.run w.env w.sight levels) := by
  induction levels with
  | zero =>
    intro program page scope set nodes mirrors within
    exact .stop _
  | succ levels ih =>
    intro program page scope set nodes mirrors within
    unfold run
    rw [mirrors.told.sameSource]
    refine ih.runBody _ page scope mirrors within ?_
    intro o member text covers
    obtain ⟨text', covers', shorter⟩ := mirrors.exists_covers (within.bodies o member)
    rw [covers.part_eq covers']
    omega

theorem Agrees.eq {α : Type} {result outcome : Except Stop α} (agrees : Agrees Eq result outcome) :
    result = outcome := by
  cases agrees with
  | ok a b same => rw [same]
  | error stop => rfl

theorem render_of_mirrors {program : Program} {template : Template}
    (mirrors : Mirrors w program template) (context : Value) {store : Store}
    (genuine : Genuine w.known store)
    (readable : ∀ source ∈ (Direct.render w.env w.sight template context store.calls).reads,
      Readable w source) :
    (render w.env program context store).1 =
        (Direct.render w.env w.sight template context store.calls).outcome ∧
      (render w.env program context store).2.calls =
        (Direct.render w.env w.sight template context store.calls).trace.calls ∧
      Genuine w.known (render w.env program context store).2 := by
  let scope : Scope := ⟨initialFrames w.env.engine.helpers context, fun _ => none, 0⟩
  have simulates : Simulates w Eq scope _ _ :=
    (runs_run w (w.env.engine.maxDepth + lambdaAllowance + 1)).whole mirrors ""
  have start : Related w scope (initial w.env context store) ⟨true, store.calls⟩ :=
    ⟨rfl, fun name => .none, rfl, rfl, rfl, genuine⟩
  obtain ⟨agrees, related, -⟩ := simulates _ _ start readable
  exact ⟨agrees.eq, related.calls, related.genuine⟩

/-- A program renders what its template evaluates to: the same text after the same calls, or the same
error at the same place. The store may hold whatever the engine has compiled before; `sources` are all
those it has read. -/
theorem render_eq_direct (env : Env) {source : String} {tree : List Node} {key : Key}
    {program : Program} (parsed : parse env.engine.pragmas source = .ok tree)
    (compiled : Program.compile env.engine.dialect key source = .ok program) (context : Value)
    {store : Store} {sources : String → Prop}
    (genuine : Genuine (fun e text => e = env.engine ∧ sources text) store)
    (among : ∀ text ∈ source :: (Direct.render env .early ⟨source, tree⟩ context store.calls).reads,
      sources text ∧ ∀ nodes, parse env.engine.pragmas text = .ok nodes →
        Pragma.anchoredDot ∉ Node.pragmasOf nodes)
    (distinct : Hash.Distinct (Hashed fun e text => e = env.engine ∧ sources text)) :
    (render env program context store).1 =
        (Direct.render env .early ⟨source, tree⟩ context store.calls).outcome ∧
      (render env program context store).2.calls =
        (Direct.render env .early ⟨source, tree⟩ context store.calls).trace.calls := by
  let w : World := ⟨env, fun e text => e = env.engine ∧ sources text, .early⟩
  have readable : ∀ text ∈ source ::
      (Direct.render env .early ⟨source, tree⟩ context store.calls).reads, Readable w text := by
    intro text member
    obtain ⟨there, unanchored⟩ := among text member
    have isKnown : w.known env.engine text := ⟨rfl, there⟩
    refine ⟨isKnown, ?_, fun nodes parsed => distinct_of_known distinct isKnown parsed, .inr unanchored⟩
    rintro _ other ⟨rfl, there'⟩ same
    have identity := distinct _ _ ⟨_, other, ⟨rfl, there'⟩, .inl rfl⟩ ⟨_, text, isKnown, .inl rfl⟩ same
    exact ⟨rfl, Engine.source_eq_of_identity identity⟩
  have here := readable source List.mem_cons_self
  have told := Program.told_of_compile parsed compiled (here.distinct tree parsed)
  have mirrors : Mirrors w program ⟨source, tree⟩ := ⟨here, parsed, told⟩
  obtain ⟨outcome, calls, -⟩ := render_of_mirrors mirrors context genuine fun text member =>
    readable text (List.mem_cons_of_mem source member)
  exact ⟨outcome, calls⟩

/-- A partial in a section. -/
theorem render_eq_direct_partial :
    ∃ (tree : List Node) (program : Program),
      parse {} "\x7b\x7b#a\x7d\x7d\x7b\x7b>p\x7d\x7d\x7b\x7b/a\x7d\x7d" = .ok tree ∧
      Program.compile ({} : Engine).dialect default
        "\x7b\x7b#a\x7d\x7d\x7b\x7b>p\x7d\x7d\x7b\x7b/a\x7d\x7d" = .ok program ∧
      (render ⟨{ partials := some (.fixed [("p", "y")]) }, [], ({} : Registry).lambdas⟩ program
        (.map [("a", .bool true)]) {}).1 = .ok "y" := by
  generalize whole : "\x7b\x7b#a\x7d\x7d\x7b\x7b>p\x7d\x7d\x7b\x7b/a\x7d\x7d" = source
  let env : Env := ⟨{ partials := some (.fixed [("p", "y")]) }, [], ({} : Registry).lambdas⟩
  let context : Value := .map [("a", .bool true)]
  let o : Occurrence := ⟨.repeated, {}, ⟨.sectionOpen, ⟨0, 6⟩, "a", .default, "", false⟩,
    [.partialRef ⟨.partialTag, ⟨6, 12⟩, "p", .default, "", false⟩],
    ⟨.close, ⟨12, 18⟩, "a", .default, "", false⟩⟩
  let tree : List Node := [.region .repeated o.opening ⟨"a", []⟩ o.nodes o.closing]
  let texts := [env.engine.identity source, env.engine.identity "y", "\n00\n\n\x7b\x7b>p\x7d\x7d"]
  have parsed : parse {} source = .ok tree := by
    subst whole
    with_unfolding_all rfl
  have parsed' : parse {} "y" = .ok [.literal ⟨.text, ⟨0, 1⟩, "y", .default, "", false⟩] := by
    with_unfolding_all rfl
  have compiled : Program.compile ({} : Engine).dialect default source = .ok _ :=
    Program.compile_of_tree _ default parsed
  have evaluated : (Direct.render env .early ⟨source, tree⟩ context []).reads = ["y"] ∧
      (Direct.render env .early ⟨source, tree⟩ context []).outcome = .ok "y" := by
    subst whole
    decide +kernel
  have hashed (text : String)
      (there : Hashed (fun e text => e = env.engine ∧ (text = source ∨ text = "y")) text) : text ∈ texts := by
    obtain ⟨_, known, ⟨rfl, listed⟩, rfl | ⟨nodes, read, inner, member, rfl⟩⟩ := there
    · rcases listed with rfl | rfl <;> simp [texts]
    · rcases listed with rfl | rfl
      · obtain rfl := Except.ok.inj (parsed.symm.trans read)
        have same : inner.identity known = "\n00\n\n\x7b\x7b>p\x7d\x7d" := by
          rw [List.mem_singleton.1 member, ← whole]
          decide +kernel
        simp [texts, same]
      · obtain rfl := Except.ok.inj (parsed'.symm.trans read)
        cases member
  have distinct : Hash.Distinct (Hashed fun e text => e = env.engine ∧ (text = source ∨ text = "y")) := by
    intro a b here there
    have pairs : ∀ a ∈ texts, ∀ b ∈ texts, Hash.sha256 a = Hash.sha256 b → a = b := by
      subst whole
      decide +kernel
    exact pairs a (hashed a here) b (hashed b there)
  have among : ∀ text ∈ source :: (Direct.render env .early ⟨source, tree⟩ context []).reads,
      (text = source ∨ text = "y") ∧ ∀ nodes, parse {} text = .ok nodes →
        Pragma.anchoredDot ∉ Node.pragmasOf nodes := by
    rw [evaluated.1]
    intro text member
    have listed : text = source ∨ text = "y" := by simpa using member
    refine ⟨listed, ?_⟩
    intro nodes read
    rcases listed with rfl | rfl
    · obtain rfl := Except.ok.inj (parsed.symm.trans read)
      decide
    · obtain rfl := Except.ok.inj (parsed'.symm.trans read)
      decide
  have result := render_eq_direct env parsed compiled context (.fresh []) among distinct
  exact ⟨tree, _, parsed, compiled, result.1.trans evaluated.2⟩

end Mustache.Render
