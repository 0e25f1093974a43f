import Mustache.Proofs.Markup.Stacks
import Mustache.Proofs.Program.Drafted
import Mustache.Proofs.Program.Shallow
import Mustache.Proofs.Render.Safe

/-! Carrying out a safe plan. All that is run keeps to programs of some kind, if those that the store
holds in the end are of that kind; and what is run with one amount of fuel is run in the same way with
another. Compiled programs are such a kind, so nothing goes wrong inside the machine. -/
namespace Mustache.Render

open Markup

/-- Leaves the machine as it was, from any machine. -/
abbrev Settled {α : Type} (w : Watch α) : Prop := Keeps (fun _ _ => True) w

theorem Invariant.true (limit : Nat) : Invariant limit fun _ _ => True :=
  ⟨fun _ _ _ _ _ _ => trivial, fun _ _ _ _ _ => trivial⟩

theorem Settled.steady {α : Type} {w : Watch α} (settled : Settled w) (active : List Invocation)
    (m : Machine) : Steady m (w active m).machine :=
  (settled active m trivial).1

/-- How a run may end: with something that has a property, with an error, or perhaps for lack of
fuel, but with no other fault. -/
def Fine (tires : Prop) {α : Type} (post : α → Prop) : Except Stop α → Prop
  | .ok a => post a
  | .error (.error _) => True
  | .error (.fault fault) => fault = .exhausted ∧ tires

structure Placed (programs : Program → Prop) (depth : Nat) (m : Machine) : Prop where
  depth : m.depth = depth
  resolves : ∀ name o, m.overlay.find? name = some o → Resolves programs o

theorem Placed.steady {programs : Program → Prop} {depth : Nat} {m m' : Machine}
    (placed : Placed programs depth m) (steady : Steady m m') : Placed programs depth m' :=
  ⟨steady.depth.trans placed.depth, steady.overlay ▸ placed.resolves⟩

def Store.Holds (programs : Program → Prop) (store : Store) : Prop :=
  ∀ key program, Entries.get? key store.memo = some program → programs program

theorem Store.Holds.of_follows {programs : Program → Prop} {before after : Store}
    (holds : Store.Holds programs after) (follows : before.Follows after) :
    Store.Holds programs before :=
  fun key program there => holds key program (follows.grown key program there)

/-- A moment at which the arguments that are given resolve and what is reached can be run. -/
structure Sound (programs : Program → Prop) (moment : Moment) : Prop where
  resolves : ∀ name o, moment.machine.overlay.find? name = some o → Resolves programs o
  ready : ∀ owner instrs, moment.event = .reached owner instrs →
    ∃ pending, Ready (.of owner.sections owner.blocks) instrs 0 pending

/-- From a machine at some depth, both run alike and end fine, and all their moments are sound, if all
the programs that the store comes to hold are of some kind. -/
def Good (programs : Program → Prop) (tires : Prop) (depth : Nat) {α : Type} (w w' : Watch α)
    (post : α → Prop) : Prop :=
  ∀ active m, Placed programs depth m → Store.Holds programs (w active m).machine.store →
    w' active m = w active m ∧ Fine tires post (w active m).outcome ∧
      ∀ moment ∈ (w active m).moments, Sound programs moment

namespace Good

variable {programs : Program → Prop} {tires : Prop} {depth : Nat} {α β : Type}

theorem pure {a : α} {post : α → Prop} (here : post a) :
    Good programs tires depth (Watch.pure a) (Watch.pure a) post :=
  fun _ _ _ _ => ⟨rfl, here, nofun⟩

theorem unseen {action : Act α} {post : α → Prop}
    (fine : ∀ m, Placed programs depth m → Store.Holds programs (action.run.run m).2.store →
      Fine tires post (action.run.run m).1) :
    Good programs tires depth (.unseen action) (.unseen action) post :=
  fun _ m placed holds => ⟨rfl, fine m placed holds, nofun⟩

theorem mono {w w' : Watch α} {post post' : α → Prop} (good : Good programs tires depth w w' post)
    (weaker : ∀ a, post a → post' a) : Good programs tires depth w w' post' := by
  intro active m placed holds
  obtain ⟨same, fine, sound⟩ := good active m placed holds
  refine ⟨same, ?_, sound⟩
  rcases outcome : (w active m).outcome with (e | f) | a <;> rw [outcome] at fine
  · trivial
  · exact fine
  · exact weaker a fine

theorem see {event : Event} {post : Unit → Prop}
    (ready : ∀ owner instrs, event = .reached owner instrs →
      ∃ pending, Ready (.of owner.sections owner.blocks) instrs 0 pending) (here : post ()) :
    Good programs tires depth (.see event) (.see event) post := by
  intro active m placed holds
  refine ⟨rfl, here, ?_⟩
  intro moment member
  rw [List.mem_singleton.1 member]
  exact ⟨placed.resolves, ready⟩

theorem bind {first first' : Watch α} {next next' : α → Watch β} {post : α → Prop}
    {post' : β → Prop} (settled : Settled first) (settled' : ∀ a, Settled (next a))
    (before : Good programs tires depth first first' post)
    (after : ∀ a, post a → Good programs tires depth (next a) (next' a) post') :
    Good programs tires depth (Watch.bind first next) (Watch.bind first' next') post' := by
  intro active m placed holds
  have steady := settled.steady active m
  have good := before active m placed
  unfold Watch.bind at holds ⊢
  dsimp only at holds ⊢
  generalize first active m = ran at steady good holds ⊢
  obtain ⟨outcome, m', moments⟩ := ran
  cases outcome with
  | error stop =>
    obtain ⟨same, fine, sound⟩ := good holds
    rw [same]
    refine ⟨rfl, ?_, sound⟩
    cases stop <;> exact fine
  | ok a =>
    -- the store grows, so what it holds in the end covers what it holds in between
    have later := (settled' a).steady active m'
    obtain ⟨same, fine, sound⟩ := good (holds.of_follows later.store)
    obtain ⟨same', fine', sound'⟩ := after a fine active m' (placed.steady steady) holds
    rw [same]
    dsimp only
    rw [same']
    refine ⟨rfl, fine', ?_⟩
    intro moment member
    exact (List.mem_append.1 member).elim (sound moment) (sound' moment)

theorem located (source : String) (span : Span) {inner inner' : Watch α} {post : α → Prop}
    (good : Good programs tires depth inner inner' post) :
    Good programs tires depth (.located source span inner) (.located source span inner') post := by
  intro active m placed holds
  obtain ⟨same, fine, sound⟩ := good active m placed holds
  unfold Watch.located
  dsimp only
  rw [same]
  refine ⟨rfl, ?_, sound⟩
  rcases outcome : (inner active m).outcome with (_ | _) | _ <;> rw [outcome] at fine <;> exact fine

theorem observed {inner inner' : Watch α} {post : Except Error α → Prop}
    (good : Good programs tires depth inner inner' fun a => post (.ok a))
    (failed : ∀ e, post (.error e)) :
    Good programs tires depth (.observed inner) (.observed inner') post := by
  intro active m placed holds
  obtain ⟨same, fine, sound⟩ := good active m placed holds
  unfold Watch.observed
  dsimp only
  rw [same]
  refine ⟨rfl, ?_, sound⟩
  rcases outcome : (inner active m).outcome with (e | f) | a <;> rw [outcome] at fine
  · exact failed e
  · exact fine
  · exact fine

theorem keepingLineStart {inner inner' : Watch α} {post : α → Prop}
    (good : Good programs tires depth inner inner' post) :
    Good programs tires depth (.keepingLineStart inner) (.keepingLineStart inner') post := by
  have ran (inner : Watch α) (active : List Invocation) (m : Machine) :
      Watch.keepingLineStart inner active m = ⟨(inner active m).outcome,
        { (inner active m).machine with lineStart := m.lineStart }, (inner active m).moments⟩ := rfl
  intro active m placed holds
  obtain ⟨same, fine, sound⟩ := good active m placed holds
  rw [ran, ran, same]
  exact ⟨rfl, fine, sound⟩

theorem aside {inner inner' : Watch α} {post : α → Prop}
    (good : Good programs tires depth inner inner' post) :
    Good programs tires depth (.aside inner) (.aside inner') post := by
  have ran (inner : Watch α) (active : List Invocation) (m : Machine) :
      Watch.aside inner active m = ⟨(inner active m).outcome,
        { m with store := (inner active m).machine.store }, (inner active m).moments⟩ := rfl
  intro active m placed holds
  obtain ⟨same, fine, sound⟩ := good active m placed holds
  rw [ran, ran, same]
  exact ⟨rfl, fine, sound⟩

theorem withFrame (frame : Value) {inner inner' : Watch α} {post : α → Prop} (settled : Settled inner)
    (good : Good programs tires depth inner inner' post) :
    Good programs tires depth (.withFrame frame inner) (.withFrame frame inner') post := by
  intro active m placed holds
  let framed : Machine := { m with frames := frame :: m.frames }
  have steady := settled.steady active framed
  rw [Watch.withFrame_apply frame rfl steady.frames] at holds ⊢
  obtain ⟨same, fine, sound⟩ := good active framed ⟨placed.depth, placed.resolves⟩ holds
  rw [Watch.withFrame_apply frame same steady.frames]
  exact ⟨rfl, fine, sound⟩

theorem invoke {limit : Nat} {invocation : Invocation} {inner inner' : Watch String}
    {post : String → Prop} (settled : Settled inner)
    (resolves : ∀ name o, invocation.supplies? name = some o → Resolves programs o)
    (good : depth < limit → Good programs tires (depth + 1) inner inner' post) :
    Good programs tires depth (.deeper limit invocation (Plan.watchEntering invocation inner))
      (.deeper limit invocation (Plan.watchEntering invocation inner')) post := by
  intro active m placed holds
  have here : Sound programs ⟨active, m, .invoked invocation⟩ := ⟨placed.resolves, nofun⟩
  by_cases below : m.depth < limit
  · have steady := settled.steady (invocation :: active) (m.enter invocation)
    rw [Plan.invoke_apply below rfl steady.overlay] at holds ⊢
    have entered : Placed programs (depth + 1) (m.enter invocation) := by
      refine ⟨congrArg (· + 1) placed.depth, ?_⟩
      intro name o found
      have found : (m.overlay.find? name <|> invocation.supplies? name) = some o :=
        (invocation.find?_overlay m.overlay name).symm.trans found
      cases outer : m.overlay.find? name with
      | some o' =>
        rw [outer] at found
        cases found
        exact placed.resolves name o outer
      | none =>
        rw [outer] at found
        exact resolves name o found
    obtain ⟨same, fine, sound⟩ := good (placed.depth ▸ below) _ _ entered holds
    rw [Plan.invoke_apply below same steady.overlay]
    refine ⟨rfl, fine, ?_⟩
    intro moment member
    obtain rfl | later := List.mem_cons.1 member
    · exact here
    · exact sound moment later
  · have full := Nat.le_of_not_lt below
    rw [Watch.deeper_apply, Watch.deeper_apply, if_pos full, if_pos full]
    refine ⟨rfl, trivial, ?_⟩
    intro moment member
    rw [List.mem_singleton.1 member]
    exact here

end Good

structure Watchers.Settle (w : Watchers) : Prop where
  body : ∀ sec, Settled (w.body sec)
  nested : ∀ program instrs indent, Settled (w.nested program instrs indent)

/-- Watchers that run alike and well what is granted where a plan is carried out. -/
structure Watchers.Grants (grant : Grant) (tires : Prop) (place : Place) (depth : Nat)
    (w w' : Watchers) : Prop where
  body : ∀ sec, grant.bodies sec →
    Good grant.programs tires depth (w.body sec) (w'.body sec) fun _ => True
  nested : ∀ program instrs indent, Runnable grant.programs program instrs →
    depth < place.env.engine.maxDepth →
      Good grant.programs tires (depth + 1) (w.nested program instrs indent)
        (w'.nested program instrs indent) fun _ => True
  answer : grant.answers → ∀ program, grant.programs program →
    Good grant.programs tires depth (w.nested program program.instrs "")
      (w'.nested program program.instrs "") fun _ => True
  reaches : ∀ instrs, grant.reaches instrs →
    ∃ pending, Ready (.of place.program.sections place.program.blocks) instrs 0 pending

theorem Plan.settled {place : Place} {w : Watchers} (settle : w.Settle) {α : Type} (plan : Plan α) :
    Settled (plan.watch place w) :=
  Keeps.plan (.true _) rfl settle.body settle.nested plan

/-- A safe plan runs well wherever all that it may run does. -/
theorem Plan.Safe.good {grant : Grant} {tires : Prop} {place : Place} {depth : Nat} {w w' : Watchers}
    (settle : w.Settle) (grants : w.Grants grant tires place depth w')
    {α : Type} {plan : Plan α} {post : α → Prop} (safe : plan.Safe grant post) :
    Good grant.programs tires depth (plan.watch place w) (plan.watch place w') post := by
  induction plan with
  | pure a => exact .pure safe
  | bind first next ih ih' =>
    exact .bind (settled settle first) (fun a => settled settle (next a)) (ih safe)
      fun a later => ih' a later
  | stop cause =>
    obtain ⟨e, rfl⟩ := safe
    exact .unseen fun _ _ _ => trivial
  | reach instrs =>
    refine .see ?_ safe.2
    rintro _ _ ⟨⟩
    exact grants.reaches instrs safe.1
  | find ref => exact .unseen fun m _ _ => safe _
  | given name => exact .unseen fun m placed _ => safe _ (placed.resolves name)
  | put text ends => exact .unseen fun m _ _ => safe _
  | record call => exact .unseen fun m _ _ => safe _
  | fetch origin source =>
    refine .unseen fun m _ holds => ?_
    have answers := Engine.fetch_answers place.env.engine origin source m.store
    rw [run_fetch] at holds ⊢
    cases fetched : ((place.env.engine.fetch origin source).run m.store).1 with
    | error e => trivial
    | ok program =>
      obtain ⟨key, held⟩ := answers.held program fetched
      exact safe program (holds key program held)
  | located span inner ih => exact .located _ _ (ih safe)
  | observed inner ih => exact .observed (ih safe.1) safe.2
  | keepingLineStart inner ih => exact .keepingLineStart (ih safe)
  | aside inner ih => exact .aside (ih safe)
  | within frame sec =>
    refine .withFrame frame (settle.body sec) ?_
    exact (grants.body sec safe.1).mono fun text _ => safe.2 text
  | invoke invocation program instrs indent =>
    refine .invoke (settle.nested program instrs indent) safe.2.1 fun below => ?_
    exact (grants.nested program instrs indent safe.1 below).mono fun text _ => safe.2.2 text
  | answer program =>
    let start : Act Unit := modify fun m => { m with lineStart := true }
    have started : Good grant.programs tires depth (.unseen start) (.unseen start) fun _ => True :=
      .unseen fun _ _ _ => trivial
    refine .bind (.unseen fun _ => ⟨rfl, rfl, rfl, .refl _⟩) (fun _ => settle.nested _ _ _) started ?_
    exact fun _ _ => (grants.answer safe.1 program safe.2.1).mono fun text _ => safe.2.2 text

/-! ### Runs -/

/-- A list of a program runs well if all that is nested in it does, and if its sections do not nest
too deeply for its fuel or may do so. -/
theorem good_watchBody {programs : Program → Prop} {tires answers : Prop} {env : Env} {depth : Nat}
    {nested nested' : Program → List Instr → String → Watch String}
    (settled : ∀ program instrs indent, Settled (nested program instrs indent))
    (good : ∀ program instrs indent, Runnable programs program instrs → depth < env.engine.maxDepth →
      Good programs tires (depth + 1) (nested program instrs indent) (nested' program instrs indent)
        fun _ => True)
    (answering : answers → ∀ program, programs program →
      Good programs tires depth (nested program program.instrs "") (nested' program program.instrs "")
        fun _ => True)
    (quiet : answers ∨
      ∀ id earlier text, ∃ result, env.lambdas.enclosing id earlier text = .done result)
    {program : Program} (granted : programs program) (wellFormed : program.WellFormed)
    (indent : String) {budget : Nat} {instrs : List Instr} (owns : program.Owns instrs)
    (enough : tires ∨ Shallow program budget instrs) :
    Good programs tires depth (watchBody env nested program indent budget instrs)
      (watchBody env nested' program indent budget instrs) fun _ => True := by
  -- the bodies of sections are run with a smaller budget, at the same depth
  induction budget generalizing instrs with
  | zero => exact .unseen fun _ _ _ => ⟨rfl, enough.elim id False.elim⟩
  | succ budget ih =>
    let place : Place := ⟨env, program, indent⟩
    let body (nested : Program → List Instr → String → Watch String) (sec : Section) :=
      watchBody env nested program indent budget sec.instrs
    let grant : Grant := ⟨programs, fun sec => program.Owns sec.instrs ∧
      (tires ∨ Shallow program budget sec.instrs), answers,
      fun more => ∃ pending, Ready (.of program.sections program.blocks) more 0 pending⟩
    have settle : Watchers.Settle ⟨body nested, nested⟩ :=
      ⟨fun sec => keeps_watchBody (.true _) settled program indent budget sec.instrs, settled⟩
    have grants : Watchers.Grants grant tires place depth ⟨body nested, nested⟩
        ⟨body nested', nested'⟩ :=
      ⟨fun sec granted => ih granted.1 granted.2, good, answering, fun _ => id⟩
    have allows : place.Allows grant instrs := by
      refine ⟨granted, quiet, ?_, fun _ pending ready => ⟨pending, ready⟩⟩
      intro key member sec found
      exact ⟨.body key sec found, enough.imp_right fun shallow => shallow key member sec found⟩
    exact (Place.harmless_steps allows (wellFormed.ready owns)).good settle grants

theorem settled_watchRun (env : Env) (levels : Nat) (program : Program) (instrs : List Instr)
    (indent : String) : Settled (watchRun env levels program instrs indent) :=
  keeps_watchRun (.true _) levels program instrs indent

/-- A run among compiled programs comes upon no fault but lack of fuel. -/
theorem good_watchRun_built (env : Env) (levels depth : Nat) {program : Program}
    {instrs : List Instr} (runnable : Runnable Program.Built program instrs) (indent : String) :
    Good Program.Built True depth (watchRun env levels program instrs indent)
      (watchRun env levels program instrs indent) fun _ => True := by
  induction levels generalizing depth program instrs indent with
  | zero => exact .unseen fun _ _ _ => ⟨rfl, trivial⟩
  | succ levels ih =>
    exact good_watchBody (settled_watchRun env levels)
      (fun _ _ indent runnable _ => ih (depth + 1) runnable indent)
      (fun _ _ built => ih depth ⟨built, .main⟩ "") (.inl trivial) runnable.granted
      runnable.granted.wellFormed indent runnable.owns (.inl trivial)

/-- Nothing goes wrong inside. Open tags and scopes stay in step while tags are nested; a tree that
was read is compiled without a slip, to jumps that are all aimed, forward and no further than to the
end; and a list of a compiled program runs into no fault but lack of fuel, if all that the machine
holds is compiled too. -/
theorem run_faultless :
    (∀ pragmas tokens, nestInStep pragmas tokens = (nest pragmas tokens).mapError .flaw) ∧
      (∀ (dialect : Dialect) source tree, parse dialect.pragmas source = .ok tree → ∀ hole key,
        Program.draft dialect hole key source tree = .ok (Program.ofNodes dialect key source tree).aimed ∧
          ∀ list, (Program.ofNodes dialect key source tree).aimed.Owns list →
            ∀ (position : Nat) instr target, list[position]? = some instr →
              instr.target? = some target → position < target ∧ target ≤ list.length) ∧
      ∀ env levels (program : Program) instrs indent (m : Machine), program.Built →
        program.Owns instrs → m.store.Built →
          (∀ name o, m.overlay.find? name = some o → o.program.Built ∧
            Entries.has o.key o.program.blocks = true) →
            ∀ fault, ((run env levels program instrs indent).run.run m).1 = .error (.fault fault) →
              fault = .exhausted := by
  refine ⟨nestInStep_eq, ?_, ?_⟩
  · intro dialect source tree parsed hole key
    have built : (Program.ofNodes dialect key source tree).Built := by
      refine ⟨dialect, key, source, ?_⟩
      unfold Program.compile
      rw [parsed]
    exact ⟨Program.draft_eq parsed hole key, fun list owns _ _ _ there jumps =>
      built.wellFormed.target_le owns there jumps⟩
  · intro env levels program instrs indent m built owns stored resolves fault stopped
    have placed : Placed Program.Built m.depth m :=
      ⟨rfl, fun name o found => ⟨(resolves name o found).1, (resolves name o found).2⟩⟩
    have steady := (settled_watchRun env levels program instrs indent).steady [] m
    have good := good_watchRun_built env levels m.depth ⟨built, owns⟩ indent [] m placed
      (steady.store.built stored).memo
    rw [← act_watchRun env levels program instrs indent [], Watch.run_act] at stopped
    have ended : (watchRun env levels program instrs indent [] m).outcome = .error (.fault fault) :=
      stopped
    have fine := good.2.1
    rw [ended] at fine
    exact fine.1

/-- An inverted section, drafted with any hole and then run. -/
theorem run_faultless_inverted :
    ∃ tree, parse {} "\x7b\x7b^a\x7d\x7dx\x7b\x7b/a\x7d\x7d" = .ok tree ∧
      let program := Program.ofNodes ({} : Engine).dialect default
        "\x7b\x7b^a\x7d\x7dx\x7b\x7b/a\x7d\x7d" tree
      let env : Env := ⟨{}, [], ({} : Registry).lambdas⟩
      (∀ hole, (Program.draft ({} : Engine).dialect hole default
        "\x7b\x7b^a\x7d\x7dx\x7b\x7b/a\x7d\x7d" tree).map Program.instrs =
          .ok [.lookup ⟨.anywhere, "a", ⟨0, 6⟩⟩, .unlessEmpty 3, .text "x"]) ∧
        ((run env 1 program program.instrs "").run.run (initial env .null {})).1 = .ok "x" ∧
        ∀ levels fault,
          ((run env levels program program.instrs "").run.run (initial env .null {})).1 =
            .error (.fault fault) → fault = .exhausted := by
  generalize whole : "\x7b\x7b^a\x7d\x7dx\x7b\x7b/a\x7d\x7d" = source
  let tree : List Node := [.region .inverted ⟨.invertedOpen, ⟨0, 6⟩, "a", .default, "", false⟩ ⟨"a", []⟩
    [.literal ⟨.text, ⟨6, 7⟩, "x", .default, "", false⟩] ⟨.close, ⟨7, 13⟩, "a", .default, "", false⟩]
  have parsed : parse {} source = .ok tree := by
    subst whole
    with_unfolding_all rfl
  obtain ⟨-, drafted, faultless⟩ := run_faultless
  refine ⟨tree, parsed, ?_, ?_, ?_⟩
  · intro hole
    rw [(drafted ({} : Engine).dialect source tree parsed hole default).1]
    rfl
  · subst whole
    decide +kernel
  · intro levels
    have built : (Program.ofNodes ({} : Engine).dialect default source tree).Built :=
      ⟨_, _, _, Program.compile_of_tree _ default parsed⟩
    refine faultless _ levels _ _ "" _ built .main Store.built_empty ?_
    rintro _ _ ⟨⟩

end Mustache.Render
