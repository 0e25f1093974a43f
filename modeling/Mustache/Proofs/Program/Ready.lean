import Mustache.Proofs.Entries
import Mustache.Proofs.Program.Sharing

/-! Lists of instructions that can be run from the first to the last: each finds an expression where
it takes one and none where it leaves one, no skip goes past the end, and the keys are in the tables.
Compiling a tree makes such lists only. -/
namespace Mustache

open Markup

structure Keys where
  sections : Key → Prop
  blocks : Key → Prop

def Keys.of (sections : List (Key × Section)) (blocks : List (Key × List Instr)) : Keys :=
  ⟨fun key => Entries.has key sections = true, fun key => Entries.has key blocks = true⟩

structure Keys.Within (inner outer : Keys) : Prop where
  sections : ∀ key, inner.sections key → outer.sections key
  blocks : ∀ key, inner.blocks key → outer.blocks key

namespace Instr

/-- Whether an instruction can be run with an expression or without one. -/
def Accepts (keys : Keys) (pending : Bool) : Instr → Prop
  | text _ | partialCall _ _ | slot _ _ => True
  | lookup _ => pending = false
  | resolve _ | apply _ | emit _ _ | unlessEmpty _ => pending = true
  | «repeated» key => pending = true ∧ keys.sections key
  | parentCall _ _ given => ∀ entry ∈ given, keys.blocks entry.2
  | strayArgument _ => False

/-- How many of the instructions after it one may skip, and whether it leaves an expression then. -/
def leaves (pending : Bool) : Instr → List (Nat × Bool)
  | text _ | partialCall _ _ | parentCall _ _ _ | strayArgument _ => [(0, pending)]
  | lookup _ | resolve _ | apply _ => [(0, true)]
  | emit _ _ | «repeated» _ => [(0, false)]
  | unlessEmpty skip => [(0, false), (skip, false)]
  | slot _ skip => [(0, pending), (skip, pending)]

theorem Accepts.mono {keys keys' : Keys} (within : keys.Within keys') {pending : Bool} {instr : Instr}
    (accepts : instr.Accepts keys pending) : instr.Accepts keys' pending := by
  cases instr with
  | «repeated» key => exact ⟨accepts.1, within.sections key accepts.2⟩
  | parentCall name indent given =>
    exact fun entry member => within.blocks entry.2 (accepts entry member)
  | _ => exact accepts

end Instr

/-- Instructions that can be run to the end after some of them are skipped, with an expression at
hand or not. -/
def Ready (keys : Keys) : List Instr → Nat → Bool → Prop
  | [], skip, pending => skip = 0 ∧ pending = false
  | _ :: rest, skip + 1, pending => Ready keys rest skip pending
  | instr :: rest, 0, pending =>
    instr.Accepts keys pending ∧ ∀ after ∈ instr.leaves pending, Ready keys rest after.1 after.2

namespace Ready

variable {keys keys' : Keys} {instrs more : List Instr} {skip : Nat} {pending : Bool}

theorem mono (within : keys.Within keys') (ready : Ready keys instrs skip pending) :
    Ready keys' instrs skip pending := by
  induction instrs generalizing skip pending with
  | nil => exact ready
  | cons instr rest ih =>
    cases skip with
    | succ skip => exact ih ready
    | zero => exact ⟨ready.1.mono within, fun after member => ih (ready.2 after member)⟩

theorem append (ready : Ready keys instrs skip pending) (later : Ready keys more 0 false) :
    Ready keys (instrs ++ more) skip pending := by
  induction instrs generalizing skip pending with
  | nil =>
    obtain ⟨rfl, rfl⟩ := ready
    exact later
  | cons instr rest ih =>
    cases skip with
    | succ skip => exact ih ready
    | zero => exact ⟨ready.1, fun after member => ih (ready.2 after member)⟩

theorem length (keys : Keys) (instrs : List Instr) : Ready keys instrs instrs.length false := by
  induction instrs with
  | nil => exact ⟨rfl, rfl⟩
  | cons instr rest ih => exact ih

theorem cons {instr : Instr} (accepts : instr.Accepts keys pending) {pending' : Bool}
    (leaves : instr.leaves pending = [(0, pending')]) (later : Ready keys more 0 pending') :
    Ready keys (instr :: more) 0 pending := by
  refine ⟨accepts, ?_⟩
  rw [leaves]
  intro after member
  rw [List.mem_singleton.1 member]
  exact later

theorem filters (set : Pragmas) (span : Span) (name : Name) (later : Ready keys more 0 true) :
    Ready keys (Compile.filters set span name ++ more) 0 true := by
  unfold Compile.filters
  induction name.filters with
  | nil => exact later
  | cons filter rest ih => exact cons rfl rfl ih

theorem filtered (set : Pragmas) (span : Span) (name : Name) (later : Ready keys more 0 true) :
    Ready keys (Compile.filtered set span name ++ more) 0 false :=
  cons rfl rfl (filters set span name later)

theorem resolved (set : Pragmas) (span : Span) (name : Name) (later : Ready keys more 0 true) :
    Ready keys (Compile.resolved set span name ++ more) 0 false :=
  cons rfl rfl (cons rfl rfl (filters set span name later))

theorem optional {instr : Instr} (accepts : instr.Accepts keys pending)
    (leaves : instr.leaves pending = [(0, false), (instrs.length, false)])
    (ready : Ready keys instrs 0 false) : Ready keys (instr :: instrs) 0 pending := by
  refine ⟨accepts, ?_⟩
  rw [leaves]
  intro after member
  rcases List.mem_cons.1 member with rfl | last
  · exact ready
  · rw [List.mem_singleton.1 last]
    exact length keys instrs

theorem tail {instr : Instr} (ready : Ready keys (instr :: more) 0 pending) :
    ∃ pending', Ready keys more 0 pending' := by
  cases instr <;> exact ⟨_, ready.2 _ List.mem_cons_self⟩

theorem skip_le (ready : Ready keys instrs skip pending) : skip ≤ instrs.length := by
  induction instrs generalizing skip pending with
  | nil => exact Nat.le_of_eq ready.1
  | cons instr rest ih =>
    cases skip with
    | succ skip => exact Nat.succ_le_succ (ih ready)
    | zero => exact Nat.zero_le _

end Ready

structure Program.WellFormed (program : Program) : Prop where
  instrs : Ready (.of program.sections program.blocks) program.instrs 0 false
  sections : ∀ key sec, Entries.get? key program.sections = some sec →
    Ready (.of program.sections program.blocks) sec.instrs 0 false
  blocks : ∀ key instrs, Entries.get? key program.blocks = some instrs →
    Ready (.of program.sections program.blocks) instrs 0 false

/-- The lists that a program is made of. -/
inductive Program.Owns (program : Program) : List Instr → Prop
  | main : program.Owns program.instrs
  | body (key : Key) (sec : Section) (found : Entries.get? key program.sections = some sec) :
      program.Owns sec.instrs
  | argument (key : Key) (instrs : List Instr)
      (found : Entries.get? key program.blocks = some instrs) : program.Owns instrs

theorem Program.WellFormed.ready {program : Program} (wellFormed : program.WellFormed)
    {instrs : List Instr} (owns : program.Owns instrs) :
    Ready (.of program.sections program.blocks) instrs 0 false := by
  cases owns with
  | main => exact wellFormed.instrs
  | body key sec found => exact wellFormed.sections key sec found
  | argument key instrs found => exact wellFormed.blocks key instrs found

namespace Compile

variable {source : String} {s s' s'' : State}

def State.keys (s : State) : Keys := .of s.sections s.blocks

structure State.WellFormed (s : State) : Prop where
  sections : ∀ key sec, Entries.get? key s.sections = some sec → Ready s.keys sec.instrs 0 false
  blocks : ∀ key instrs, Entries.get? key s.blocks = some instrs → Ready s.keys instrs 0 false

/-- What compiling does to the tables. -/
structure Extends (s s' : State) : Prop where
  wellFormed : s'.WellFormed
  within : s.keys.Within s'.keys

namespace Extends

theorem refl (wellFormed : s.WellFormed) : Extends s s := ⟨wellFormed, ⟨fun _ => id, fun _ => id⟩⟩

theorem trans (first : Extends s s') (second : Extends s' s'') : Extends s s'' where
  wellFormed := second.wellFormed
  within := ⟨fun key there => second.within.sections key (first.within.sections key there),
    fun key there => second.within.blocks key (first.within.blocks key there)⟩

theorem skip (wellFormed : s.WellFormed) (tree : Node) : Extends s (s.skip tree) :=
  ⟨⟨wellFormed.sections, wellFormed.blocks⟩, ⟨fun _ => id, fun _ => id⟩⟩

theorem addSection (source : String) (body : Body) (key : Key) {instrs : List Instr} (wellFormed : s.WellFormed)
    (ready : Ready s.keys instrs 0 false) :
    Extends s (s.addSection source body key instrs) ∧
      (s.addSection source body key instrs).keys.sections key := by
  have within : s.keys.Within (s.addSection source body key instrs).keys :=
    ⟨fun other there => Entries.has_put there, fun _ => id⟩
  refine ⟨⟨⟨?_, ?_⟩, within⟩, Entries.has_put_self key _ s.sections⟩
  · intro other sec found
    rw [State.addSection, Entries.get?_put] at found
    split at found
    · cases found
      exact ready.mono within
    · exact (wellFormed.sections other sec found).mono within
  · exact fun other given found => (wellFormed.blocks other given found).mono within

theorem addBlock (key : Key) {instrs : List Instr} (wellFormed : s.WellFormed)
    (ready : Ready s.keys instrs 0 false) :
    Extends s (s.addBlock key instrs) ∧ (s.addBlock key instrs).keys.blocks key := by
  have within : s.keys.Within (s.addBlock key instrs).keys :=
    ⟨fun _ => id, fun other there => Entries.has_put there⟩
  refine ⟨⟨⟨?_, ?_⟩, within⟩, Entries.has_put_self key _ s.blocks⟩
  · exact fun other sec found => (wellFormed.sections other sec found).mono within
  · intro other given found
    rw [State.addBlock, Entries.get?_put] at found
    split at found
    · cases found
      exact ready.mono within
    · exact (wellFormed.blocks other given found).mono within

/-- What is kept under a key is added only if there is nothing under it. -/
theorem ite (there : State → Prop) {has : Bool} {added : State} (wellFormed : s.WellFormed)
    (old : has = true → there s) (new : Extends s added ∧ there added) :
    Extends s (if has then s else added) ∧ there (if has then s else added) := by
  cases has with
  | true => exact ⟨.refl wellFormed, old rfl⟩
  | false => exact new

end Extends

/-- Trees are compiled to instructions that can be run, or directly in a parent to arguments that are
in the table. -/
def Handles (source : String) : Bool → List Node → State → Prop
  | false, trees, s => Extends s ((nodes source trees).run s).2 ∧
    Ready ((nodes source trees).run s).2.keys ((nodes source trees).run s).1 0 false
  | true, trees, s => Extends s ((arguments source trees).run s).2 ∧
    ∀ entry ∈ ((arguments source trees).run s).1,
      ((arguments source trees).run s).2.keys.blocks entry.2

theorem Handles.cons {tree : Node} {rest : List Node}
    (first : Extends s ((node source tree).run s).2 ∧
      Ready ((node source tree).run s).2.keys ((node source tree).run s).1 0 false)
    (later : Handles source false rest ((node source tree).run s).2) :
    Handles source false (tree :: rest) s :=
  ⟨first.1.trans later.1, (first.2.mono later.1.within).append later.2⟩

theorem Handles.skip {tree : Node} {rest : List Node} (wellFormed : s.WellFormed)
    (run : (arguments source (tree :: rest)).run s = (arguments source rest).run (s.skip tree))
    (later : Handles source true rest (s.skip tree)) : Handles source true (tree :: rest) s := by
  show Extends s ((arguments source (tree :: rest)).run s).2 ∧
    ∀ entry ∈ ((arguments source (tree :: rest)).run s).1, _
  rw [run]
  exact ⟨(Extends.skip wellFormed tree).trans later.1, later.2⟩

theorem Handles.leaf {inParent : Bool} {tree : Node} {rest : List Node} (wellFormed : s.WellFormed)
    {instrs : List Instr} (alone : (node source tree).run s = (instrs, s.skip tree))
    (ready : Ready s.keys instrs 0 false)
    (run : (arguments source (tree :: rest)).run s = (arguments source rest).run (s.skip tree))
    (later : Handles source inParent rest (s.skip tree)) : Handles source inParent (tree :: rest) s := by
  cases inParent with
  | true => exact .skip wellFormed run later
  | false =>
    refine .cons ?_ ?_
    · rw [alone]
      exact ⟨.skip wellFormed tree, ready⟩
    · rw [alone]
      exact later

theorem handles_repeated (opening closing : Token) (name : Name) {inner rest : List Node}
    (wellFormed : s.WellFormed) (inside : Handles source false inner s)
    (later : ∀ s', s'.WellFormed → Handles source false rest s') :
    Handles source false (.region .repeated opening name inner closing :: rest) s := by
  let body := Body.between opening closing
  let key := body.key source s.pragmas
  let filled := afterSection source body inner s
  have added := Extends.addSection source body key inside.1.wellFormed inside.2
  have filling : Extends s filled ∧ filled.keys.sections key :=
    Extends.ite (·.keys.sections key) wellFormed id ⟨inside.1.trans added.1, added.2⟩
  refine .cons ?_ ?_
  · rw [run_repeated]
    refine ⟨filling.1, .filtered _ _ _ ?_⟩
    exact .cons ⟨rfl, filling.2⟩ rfl ⟨rfl, rfl⟩
  · rw [run_repeated]
    exact later filled filling.1.wellFormed

theorem handles_argument (opening closing : Token) (name : Name) {inner rest : List Node}
    (wellFormed : s.WellFormed) (inside : Handles source false inner s)
    (later : ∀ s', s'.WellFormed → Handles source true rest s') :
    Handles source true (.region .argument opening name inner closing :: rest) s := by
  let body := Body.between opening closing
  let key := body.key source s.pragmas
  let filled := afterArgument source body inner s
  have added := Extends.addBlock key inside.1.wellFormed inside.2
  have filling : Extends s filled ∧ filled.keys.blocks key :=
    Extends.ite (·.keys.blocks key) wellFormed id ⟨inside.1.trans added.1, added.2⟩
  have more := later filled filling.1.wellFormed
  show Extends s ((arguments source (.region .argument opening name inner closing :: rest)).run s).2 ∧
    ∀ entry ∈ ((arguments source (.region .argument opening name inner closing :: rest)).run s).1, _
  rw [run_argument]
  refine ⟨filling.1.trans more.1, ?_⟩
  intro entry member
  rcases List.mem_cons.1 member with rfl | among
  · exact more.1.within.blocks key filling.2
  · exact more.2 entry among

/-- What a tree of the grammar is compiled to can be run, whatever is in the tables before. -/
theorem handles_of_nests {inParent : Bool} {set : Pragmas} {tokens : List Token} {trees : List Node}
    (nests : Nests inParent set tokens trees) (s : State) (wellFormed : s.WellFormed) :
    Handles source inParent trees s := by
  induction nests generalizing s with
  | nil inParent set =>
    cases inParent with
    | false => exact ⟨.refl wellFormed, rfl, rfl⟩
    | true => exact ⟨.refl wellFormed, nofun⟩
  | literal inParent set t tokens trees kind rest ih =>
    exact .leaf wellFormed rfl (.cons trivial rfl ⟨rfl, rfl⟩) rfl (ih s wellFormed)
  | silent inParent set t tokens trees kind rest ih => exact ih s wellFormed
  | pragma inParent set t p tokens trees kind known rest ih =>
    exact .leaf wellFormed rfl ⟨rfl, rfl⟩ rfl (ih _ (Extends.skip wellFormed (.pragma t p)).wellFormed)
  | interpolation inParent set t tokens trees kind rest ih =>
    refine .leaf wellFormed rfl (.resolved _ _ _ ?_) rfl (ih s wellFormed)
    exact .cons rfl rfl ⟨rfl, rfl⟩
  | partialRef inParent set t tokens trees kind rest ih =>
    exact .leaf wellFormed rfl (.cons trivial rfl ⟨rfl, rfl⟩) rfl (ih s wellFormed)
  | region inParent set opening closing inner tokens trees more opens closes inside _ rest ih ih' =>
    have within := ih s wellFormed
    cases inParent with
    | true =>
      have later := ih' _ (Extends.skip wellFormed
        (.region (opening.kind.role true) opening (opening.name set) trees closing)).wellFormed
      cases kind : opening.kind with
      | blockOpen =>
        rw [kind] at within
        exact handles_argument opening closing _ wellFormed within ih'
      | sectionOpen | invertedOpen | parentOpen =>
        rw [kind] at later
        exact .skip wellFormed rfl later
      | text | escaped | unescaped | close | partialTag | comment | pragma | delimiters =>
        rw [kind] at opens
        cases opens
    | false =>
      cases kind : opening.kind with
      | sectionOpen =>
        rw [kind] at within
        exact handles_repeated opening closing _ wellFormed within ih'
      | invertedOpen =>
        rw [kind] at within
        refine .cons ⟨within.1, .filtered _ _ _ ?_⟩ (ih' _ within.1.wellFormed)
        exact .optional rfl rfl within.2
      | parentOpen =>
        rw [kind] at within
        refine .cons ⟨within.1, ?_⟩ (ih' _ within.1.wellFormed)
        exact .cons within.2 rfl ⟨rfl, rfl⟩
      | blockOpen =>
        rw [kind] at within
        refine .cons ⟨within.1, ?_⟩ (ih' _ within.1.wellFormed)
        exact .optional trivial rfl within.2
      | text | escaped | unescaped | close | partialTag | comment | pragma | delimiters =>
        rw [kind] at opens
        cases opens

end Compile

theorem Program.exists_tree_of_compile {dialect : Dialect} {key : Key} {source : String}
    {program : Program} (compiled : compile dialect key source = .ok program) :
    ∃ tree, parse dialect.pragmas source = .ok tree ∧ program = .ofNodes dialect key source tree := by
  unfold compile at compiled
  cases parsed : parse dialect.pragmas source with
  | error flaw => simp [parsed] at compiled
  | ok tree =>
    simp only [parsed, Except.ok.injEq] at compiled
    exact ⟨tree, rfl, compiled.symm⟩

/-- A program that is compiled from some source, whatever its key. -/
def Program.Built (program : Program) : Prop :=
  ∃ dialect key source, Program.compile dialect key source = .ok program

theorem Program.Built.exists_tree {program : Program} (built : program.Built) :
    ∃ dialect tree, parse dialect.pragmas program.source = .ok tree ∧
      program = .ofNodes dialect program.key program.source tree := by
  obtain ⟨dialect, key, source, compiled⟩ := built
  obtain ⟨tree, parsed, rfl⟩ := exists_tree_of_compile compiled
  exact ⟨dialect, tree, parsed, rfl⟩

theorem Program.Built.wellFormed {program : Program} (built : program.Built) : program.WellFormed := by
  obtain ⟨dialect, tree, parsed, made⟩ := built.exists_tree
  obtain ⟨tokens, -, nests⟩ := read_of_parse parsed
  have start : (Compile.State.initial dialect.pragmas).WellFormed := ⟨nofun, nofun⟩
  have handles : Compile.Handles program.source false tree (.initial dialect.pragmas) :=
    Compile.handles_of_nests nests _ start
  rw [made]
  exact ⟨handles.2, handles.1.wellFormed.sections, handles.1.wellFormed.blocks⟩

end Mustache
