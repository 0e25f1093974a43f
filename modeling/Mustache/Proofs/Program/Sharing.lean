import Mustache.Proofs.Program.Plain

/-! Compiling with tables against compiling without them: the instructions are the same, each table
holds the first of the bodies with a key, and a body that is left out because its key is there has
nothing to add. -/
namespace Mustache.Compile

open Markup

variable {source : String} {all : List Occurrence} {s s' : State}

/-- The entry for a key that the bodies in this order make. -/
def sectionOf? (source : String) (key : Key) (bodies : List Occurrence) : Option Section :=
  bodies.findSome? fun o =>
    if o.role = .repeated ∧ o.key source = key then some (o.toSection source) else none

def blockOf? (source : String) (key : Key) (bodies : List Occurrence) : Option (List Instr) :=
  bodies.findSome? fun o =>
    if o.role = .argument ∧ o.key source = key then some (o.instrs source) else none

namespace State

def holds (source : String) (o : Occurrence) (s : State) : Bool :=
  if o.role = .argument then Entries.has (o.key source) s.blocks
  else Entries.has (o.key source) s.sections

def store (source : String) (o : Occurrence) (s : State) : State :=
  if o.role = .argument then s.addBlock (o.key source) (o.instrs source)
  else s.addSection source o.body (o.key source) (o.instrs source)

theorem store_pragmas (o : Occurrence) : (s.store source o).pragmas = s.pragmas := by
  unfold store
  split <;> rfl

structure Distinct (s : State) : Prop where
  sections : (Entries.keys s.sections).Nodup
  blocks : (Entries.keys s.blocks).Nodup

theorem Distinct.store (distinct : s.Distinct) (o : Occurrence) : (s.store source o).Distinct := by
  unfold State.store
  split
  · exact ⟨distinct.sections, Entries.nodup_keys_put distinct.blocks⟩
  · exact ⟨Entries.nodup_keys_put distinct.sections, distinct.blocks⟩

theorem holds_store (a o : Occurrence) :
    (s.store source o).holds source a = true ↔ s.holds source a = true ∨
      (decide (a.role = .argument) = decide (o.role = .argument) ∧ a.key source = o.key source) := by
  unfold holds store Entries.has
  by_cases first : a.role = .argument <;> by_cases second : o.role = .argument <;>
    simp [first, second, addBlock, addSection, Entries.get?_put] <;> split <;> simp_all

end State

/-- Bodies closed under being within one another, of which those with one key are alike. -/
structure Uniform (source : String) (all : List Occurrence) : Prop where
  shared : ∀ o ∈ all, o.role.isShared = true
  closed : ∀ o ∈ all, ∀ inner ∈ Node.bodiesOf false o.pragmas o.nodes, inner ∈ all
  pragmas : ∀ a ∈ all, ∀ b ∈ all, a.key source = b.key source →
    Node.pragmasOf a.nodes = Node.pragmasOf b.nodes
  nested : ∀ a ∈ all, ∀ b ∈ all, a.key source = b.key source →
    ∀ inner ∈ Node.bodiesOf false a.pragmas a.nodes,
      ∃ inner' ∈ Node.bodiesOf false b.pragmas b.nodes,
        inner'.role = inner.role ∧ inner'.key source = inner.key source
  smaller : ∀ o ∈ all, ∀ inner ∈ Node.bodiesOf false o.pragmas o.nodes,
    inner.key source ≠ o.key source

/-- What is in a table has nothing to add: its pragmas are in force, and so is what is within it
in the tables. -/
structure Sound (source : String) (all : List Occurrence) (s : State) : Prop where
  pragmas : ∀ o ∈ all, s.holds source o = true → ∀ p ∈ Node.pragmasOf o.nodes,
    s.pragmas.contains p = true
  nested : ∀ o ∈ all, s.holds source o = true →
    ∀ inner ∈ Node.bodiesOf false o.pragmas o.nodes, s.holds source inner = true

/-- What compiling does to the pragmas and the tables. -/
structure Goes (source : String) (all : List Occurrence) (switched : List Pragma)
    (bodies : List Occurrence) (s s' : State) : Prop where
  pragmas : s'.pragmas = s.pragmas.insertAll switched
  sections : ∀ key, Entries.get? key s'.sections =
    (Entries.get? key s.sections).or (sectionOf? source key bodies)
  blocks : ∀ key, Entries.get? key s'.blocks =
    (Entries.get? key s.blocks).or (blockOf? source key bodies)
  distinct : s.Distinct → s'.Distinct
  sound : Sound source all s'

theorem Sound.of_more {s' : State} (sound : Sound source all s)
    (pragmas : ∀ p, s.pragmas.contains p = true → s'.pragmas.contains p = true)
    (sections : s'.sections = s.sections) (blocks : s'.blocks = s.blocks) : Sound source all s' := by
  have same (o : Occurrence) : s'.holds source o = s.holds source o := by
    unfold State.holds
    rw [sections, blocks]
  constructor
  · intro o member held p there
    rw [same] at held
    exact pragmas p (sound.pragmas o member held p there)
  · intro o member held inner within
    rw [same] at held ⊢
    exact sound.nested o member held inner within

namespace Goes

variable {switched : List Pragma} {bodies : List Occurrence}

theorem refl (sound : Sound source all s) : Goes source all [] [] s s where
  pragmas := rfl
  sections := fun key => by simp [sectionOf?]
  blocks := fun key => by simp [blockOf?]
  distinct := id
  sound := sound

theorem trans {s'' : State} {later : List Pragma} {more : List Occurrence}
    (first : Goes source all switched bodies s s') (second : Goes source all later more s' s'') :
    Goes source all (switched ++ later) (bodies ++ more) s s'' where
  pragmas := by rw [second.pragmas, first.pragmas, Pragmas.insertAll_append]
  sections := by
    intro key
    rw [second.sections, first.sections, Option.or_assoc]
    simp only [sectionOf?, List.findSome?_append]
  blocks := by
    intro key
    rw [second.blocks, first.blocks, Option.or_assoc]
    simp only [blockOf?, List.findSome?_append]
  distinct := fun distinct => second.distinct (first.distinct distinct)
  sound := second.sound

theorem switch (sound : Sound source all s) (switched : List Pragma) :
    Goes source all switched [] s { s with pragmas := s.pragmas.insertAll switched } where
  pragmas := rfl
  sections := fun key => by simp [sectionOf?]
  blocks := fun key => by simp [blockOf?]
  distinct := fun distinct => ⟨distinct.sections, distinct.blocks⟩
  sound := by
    refine sound.of_more ?_ rfl rfl
    intro p there
    rw [Pragmas.contains_insertAll, there, Bool.or_true]

theorem holds_iff (goes : Goes source all switched bodies s s') {o : Occurrence}
    (shared : o.role.isShared = true) : s'.holds source o = true ↔ s.holds source o = true ∨
      ∃ b ∈ bodies, b.role = o.role ∧ b.key source = o.key source := by
  have found {α : Type} (entry : Occurrence → α) :
      (bodies.findSome? fun b =>
        if b.role = o.role ∧ b.key source = o.key source then some (entry b) else none).isSome = true ↔
        ∃ b ∈ bodies, b.role = o.role ∧ b.key source = o.key source := by
    rw [List.findSome?_isSome_iff]
    refine exists_congr fun b => and_congr_right fun _ => ?_
    split <;> simp_all
  unfold State.holds Entries.has
  split
  · rename_i role
    rw [goes.blocks, Option.isSome_or, Bool.or_eq_true, ← found (Occurrence.instrs source), blockOf?,
      role]
  · have role : o.role = .repeated := by
      revert shared
      cases h : o.role <;> simp_all [Role.isShared]
    rw [goes.sections, Option.isSome_or, Bool.or_eq_true, ← found (Occurrence.toSection source),
      sectionOf?, role]

theorem sectionOf?_concat (key : Key) (bodies : List Occurrence) (o : Occurrence) :
    sectionOf? source key (bodies ++ [o]) = (sectionOf? source key bodies).or
      (if o.role = .repeated ∧ o.key source = key then some (o.toSection source) else none) := by
  simp [sectionOf?, List.findSome?_append]

theorem blockOf?_concat (key : Key) (bodies : List Occurrence) (o : Occurrence) :
    blockOf? source key (bodies ++ [o]) = (blockOf? source key bodies).or
      (if o.role = .argument ∧ o.key source = key then some (o.instrs source) else none) := by
  simp [blockOf?, List.findSome?_append]

theorem eq_or_of_holds {α : Type} {found : Option α} {bodies : List Occurrence}
    {entry : Occurrence → Option α} (held : ∀ b ∈ bodies, (entry b).isSome = true → found.isSome = true) :
    found = found.or (bodies.findSome? entry) := by
  cases found with
  | some a => rfl
  | none =>
    rw [Option.none_or, eq_comm, List.findSome?_eq_none_iff]
    intro b member
    cases made : entry b with
    | none => rfl
    | some a => simpa using held b member (by rw [made]; rfl)

theorem leave {o : Occurrence} (sound : Sound source all s) (member : o ∈ all)
    (held : s.holds source o = true) :
    Goes source all (Node.pragmasOf o.nodes) (Node.bodiesOf false o.pragmas o.nodes ++ [o]) s s := by
  have there : ∀ b ∈ Node.bodiesOf false o.pragmas o.nodes ++ [o], s.holds source b = true := by
    intro b among
    rcases List.mem_append.1 among with within | itself
    · exact sound.nested o member held b within
    · rw [List.mem_singleton.1 itself]
      exact held
  constructor
  · exact (Pragmas.insertAll_eq_self (sound.pragmas o member held)).symm
  · intro key
    refine eq_or_of_holds fun b among made => ?_
    have here := there b among
    unfold State.holds Entries.has at here
    by_cases matched : b.role = .repeated ∧ b.key source = key
    · rwa [if_neg (by rw [matched.1]; decide), matched.2] at here
    · simp [matched] at made
  · intro key
    refine eq_or_of_holds fun b among made => ?_
    have here := there b among
    unfold State.holds Entries.has at here
    by_cases matched : b.role = .argument ∧ b.key source = key
    · rwa [if_pos matched.1, matched.2] at here
    · simp [matched] at made
  · exact id
  · exact sound

theorem keep {o : Occurrence} (uniform : Uniform source all) (member : o ∈ all)
    (absent : s.holds source o = false)
    (goes : Goes source all (Node.pragmasOf o.nodes) (Node.bodiesOf false o.pragmas o.nodes) s s') :
    Goes source all (Node.pragmasOf o.nodes) (Node.bodiesOf false o.pragmas o.nodes ++ [o]) s
      (s'.store source o) := by
  have shared := uniform.shared o member
  have fresh : s'.holds source o = false := by
    rw [Bool.eq_false_iff]
    intro held
    rcases (goes.holds_iff shared).1 held with before | ⟨b, within, -, key⟩
    · rw [absent] at before
      cases before
    · exact uniform.smaller o member b within key
  constructor
  · rw [State.store_pragmas]
    exact goes.pragmas
  · intro key
    rw [sectionOf?_concat, ← Option.or_assoc, ← goes.sections]
    unfold State.store
    split
    · rename_i role
      simp [State.addBlock, role]
    · rename_i role
      have «repeated» : o.role = .repeated := by
        revert shared
        cases h : o.role <;> simp_all [Role.isShared]
      unfold State.holds Entries.has at fresh
      rw [if_neg role, Option.isSome_eq_false_iff, Option.isNone_iff_eq_none] at fresh
      simp only [State.addSection, Entries.get?_put, «repeated», true_and]
      by_cases same : key = o.key source
      · rw [if_pos same, if_pos same.symm, same, fresh]
        rfl
      · rw [if_neg same, if_neg (Ne.symm same), Option.or_none]
  · intro key
    rw [blockOf?_concat, ← Option.or_assoc, ← goes.blocks]
    unfold State.store
    split
    · rename_i role
      unfold State.holds Entries.has at fresh
      rw [if_pos role, Option.isSome_eq_false_iff, Option.isNone_iff_eq_none] at fresh
      simp only [State.addBlock, Entries.get?_put, role, true_and]
      by_cases same : key = o.key source
      · rw [if_pos same, if_pos same.symm, same, fresh]
        rfl
      · rw [if_neg same, if_neg (Ne.symm same), Option.or_none]
    · rename_i role
      simp [State.addSection, role]
  · exact fun distinct => (goes.distinct distinct).store o
  · constructor
    · intro a among held p there
      rw [State.store_pragmas]
      rcases (State.holds_store a o).1 held with before | ⟨-, key⟩
      · exact goes.sound.pragmas a among before p there
      · rw [uniform.pragmas a among o member key] at there
        rw [goes.pragmas, Pragmas.contains_insertAll]
        simp [there]
    · intro a among held inner within
      rw [State.holds_store]
      left
      rcases (State.holds_store a o).1 held with before | ⟨-, key⟩
      · exact goes.sound.nested a among before inner within
      · rw [goes.holds_iff (uniform.shared inner (uniform.closed a among inner within))]
        exact .inr (uniform.nested a among o member key inner within)

end Goes

/-! ### Runs of the compiler -/

theorem run_nodes_cons (first : Node) (rest : List Node) :
    (nodes source (first :: rest)).run s =
      (((node source first).run s).1 ++ ((nodes source rest).run ((node source first).run s).2).1,
        ((nodes source rest).run ((node source first).run s).2).2) := rfl

/-- Compiles trees to what they are by themselves, and shares their bodies. -/
structure Compiled (source : String) (all : List Occurrence) (set : Pragmas) (trees : List Node)
    (s s' : State) : Prop where
  run : (nodes source trees).run s = (plainOf source set trees, s')
  goes : Goes source all (Node.pragmasOf trees) (Node.bodiesOf false set trees) s s'

/-- Compiles the arguments of a parent. -/
structure Given (source : String) (all : List Occurrence) (set : Pragmas) (trees : List Node)
    (s s' : State) : Prop where
  run : (arguments source trees).run s =
    ((Node.argumentsOf set trees).map fun (name, o) => (name, o.key source), s')
  goes : Goes source all (Node.pragmasOf trees) (Node.bodiesOf true set trees) s s'

theorem Compiled.cons {set : Pragmas} {tree : Node} {rest : List Node} {s'' : State}
    (first : (node source tree).run s = (plain source set tree, s'))
    (goes : Goes source all tree.pragmas (tree.bodies false set) s s')
    (later : Compiled source all (set.insertAll tree.pragmas) rest s' s'') :
    Compiled source all set (tree :: rest) s s'' where
  run := by
    rw [run_nodes_cons, first, later.run]
    rfl
  goes := goes.trans later.goes

/-- The state after a shared body, which is compiled only if it is not in its table. -/
def afterShared (source : String) (o : Occurrence) (s : State) : State :=
  if s.holds source o then s else ((nodes source o.nodes).run s).2.store source o

theorem run_shared {α β : Type} (keyOf : Pragmas → Key) (table : State → List (Key × β))
    (compiled : M (List Instr)) (store : Key → List Instr → State → State) (more : Key → M α) :
    (do
      let key := keyOf (← get).pragmas
      if !Entries.has key (table (← get)) then
        let instrs ← compiled
        modify (store key instrs)
      more key : M α).run s =
      (more (keyOf s.pragmas)).run (if Entries.has (keyOf s.pragmas) (table s) then s
        else store (keyOf s.pragmas) (compiled.run s).1 (compiled.run s).2) := by
  generalize same : keyOf s.pragmas = key
  cases held : Entries.has key (table s) with
  | false =>
    simp [same, held]
    rfl
  | true => simp [same, held]

/-- The state after a section, whose body is compiled only if there is none under its key. -/
def afterSection (source : String) (body : Body) (inner : List Node) (s : State) : State :=
  if Entries.has (body.key source s.pragmas) s.sections then s
  else ((nodes source inner).run s).2.addSection source body (body.key source s.pragmas)
    ((nodes source inner).run s).1

/-- The state after a block argument, likewise. -/
def afterArgument (source : String) (body : Body) (inner : List Node) (s : State) : State :=
  if Entries.has (body.key source s.pragmas) s.blocks then s
  else ((nodes source inner).run s).2.addBlock (body.key source s.pragmas)
    ((nodes source inner).run s).1

theorem run_repeated (opening closing : Token) (name : Name) (inner : List Node) :
    (node source (.region .repeated opening name inner closing)).run s =
      let body := Body.between opening closing
      let after := afterSection source body inner s
      (filtered after.pragmas opening.span name ++ [.repeated (body.key source s.pragmas)], after) :=
  run_shared (Body.key source · (.between opening closing)) State.sections (nodes source inner)
    (fun key instrs s => s.addSection source (.between opening closing) key instrs)
    (fun key => do return filtered (← get).pragmas opening.span name ++ [Instr.repeated key])

theorem run_argument (opening closing : Token) (name : Name) (inner rest : List Node) :
    (arguments source (.region .argument opening name inner closing :: rest)).run s =
      let body := Body.between opening closing
      let more := (arguments source rest).run (afterArgument source body inner s)
      ((name.path, body.key source s.pragmas) :: more.1, more.2) :=
  run_shared (Body.key source · (.between opening closing)) State.blocks (nodes source inner)
    (fun key instrs s => s.addBlock key instrs)
    (fun key => do return (name.path, key) :: (← arguments source rest))

theorem run_region_repeated {opening closing : Token} (name : Name) {inner : List Node}
    {o : Occurrence} (itself : o = ⟨.repeated, s.pragmas, opening, inner, closing⟩)
    (instrs : ((nodes source inner).run s).1 = o.instrs source) :
    (node source (.region .repeated opening name inner closing)).run s =
      (filtered (afterShared source o s).pragmas opening.span name ++ [.repeated (o.key source)],
        afterShared source o s) := by
  have run : (node source (.region .repeated opening name inner closing)).run s = _ :=
    run_repeated opening closing name inner
  unfold afterSection at run
  rw [instrs] at run
  subst itself
  exact run

theorem run_arguments_argument {opening closing : Token} (name : Name) {inner : List Node}
    (rest : List Node) {o : Occurrence} (itself : o = ⟨.argument, s.pragmas, opening, inner, closing⟩)
    (instrs : ((nodes source inner).run s).1 = o.instrs source) :
    (arguments source (.region .argument opening name inner closing :: rest)).run s =
      ((name.path, o.key source) :: ((arguments source rest).run (afterShared source o s)).1,
        ((arguments source rest).run (afterShared source o s)).2) := by
  have run : (arguments source (.region .argument opening name inner closing :: rest)).run s = _ :=
    run_argument opening closing name inner rest
  unfold afterArgument at run
  rw [instrs] at run
  subst itself
  exact run

theorem run_region_inverted (opening closing : Token) (name : Name) {inner : List Node}
    (compiled : Compiled source all s.pragmas inner s s') :
    (node source (.region .inverted opening name inner closing)).run s =
      (plain source s.pragmas (.region .inverted opening name inner closing), s') := by
  have run : (node source (.region .inverted opening name inner closing)).run s =
      (filtered s.pragmas opening.span name ++
        .unlessEmpty ((nodes source inner).run s).1.length :: ((nodes source inner).run s).1,
        ((nodes source inner).run s).2) := rfl
  rw [run, compiled.run]
  rfl

theorem run_region_slot (opening closing : Token) (name : Name) {inner : List Node}
    (compiled : Compiled source all s.pragmas inner s s') :
    (node source (.region .slot opening name inner closing)).run s =
      (plain source s.pragmas (.region .slot opening name inner closing), s') := by
  have run : (node source (.region .slot opening name inner closing)).run s =
      (.slot name.path ((nodes source inner).run s).1.length :: ((nodes source inner).run s).1,
        ((nodes source inner).run s).2) := rfl
  rw [run, compiled.run]
  rfl

theorem run_region_parent (opening closing : Token) (name : Name) {inner : List Node}
    (given : Given source all s.pragmas inner s s') :
    (node source (.region .parent opening name inner closing)).run s =
      (plain source s.pragmas (.region .parent opening name inner closing), s') := by
  have run : (node source (.region .parent opening name inner closing)).run s =
      ([.parentCall name.path opening.indent ((arguments source inner).run s).1],
        ((arguments source inner).run s).2) := rfl
  rw [run, given.run]
  rfl

theorem Goes.around {role : Role} {opening closing : Token} {name : Name} {set : Pragmas}
    {inner : List Node}
    (goes : Goes source all (Node.pragmasOf inner) (Node.bodiesOf (role = .parent) set inner) s s')
    (inlined : (role.counts false && !role.isShared) = true) :
    Goes source all (Node.region role opening name inner closing).pragmas
      ((Node.region role opening name inner closing).bodies false set) s s' := by
  rw [Bool.and_eq_true, Bool.not_eq_true'] at inlined
  unfold Node.bodies
  rw [if_pos inlined.1, inlined.2, if_neg (by decide), List.append_nil]
  exact goes

theorem Given.skip {set : Pragmas} {tree : Node} {rest : List Node} (sound : Sound source all s)
    (run : (arguments source (tree :: rest)).run s = (arguments source rest).run (s.skip tree))
    (ignored : Node.argumentsOf set (tree :: rest) =
      Node.argumentsOf (set.insertAll tree.pragmas) rest)
    (none : tree.bodies true set = [])
    (later : Given source all (set.insertAll tree.pragmas) rest (s.skip tree) s') :
    Given source all set (tree :: rest) s s' where
  run := by rw [run, later.run, ignored]
  goes := by
    have whole := (Goes.switch sound tree.pragmas).trans later.goes
    rwa [← none] at whole

/-- What the place of some trees asks for: directly in a parent only arguments count. -/
def Handled (source : String) (all : List Occurrence) :
    Bool → Pragmas → List Node → State → State → Prop
  | false => Compiled source all
  | true => Given source all

theorem Handled.leaf {inParent : Bool} {set : Pragmas} {tree : Node} {rest : List Node}
    (sound : Sound source all s)
    (alone : (node source tree).run s = (plain source set tree, s.skip tree))
    (run : (arguments source (tree :: rest)).run s = (arguments source rest).run (s.skip tree))
    (ignored : Node.argumentsOf set (tree :: rest) =
      Node.argumentsOf (set.insertAll tree.pragmas) rest)
    (none : ∀ inParent, tree.bodies inParent set = [])
    (later : ∃ s', Handled source all inParent (set.insertAll tree.pragmas) rest (s.skip tree) s') :
    ∃ s', Handled source all inParent set (tree :: rest) s s' := by
  obtain ⟨s', handled⟩ := later
  refine ⟨s', ?_⟩
  cases inParent with
  | false =>
    refine Compiled.cons alone ?_ handled
    rw [none]
    exact .switch sound tree.pragmas
  | true => exact Given.skip sound run ignored (none true) handled

theorem Goes.skip_sound {tree : Node} (sound : Sound source all s) : Sound source all (s.skip tree) :=
  (Goes.switch sound tree.pragmas).sound

theorem Handled.ignored {role : Role} {opening closing : Token} {name : Name} {set : Pragmas}
    {nodes rest : List Node} (sound : Sound source all s) (other : role ≠ .argument)
    (later : ∃ s', Handled source all true (set.insertAll (Node.pragmasOf nodes)) rest
      (s.skip (.region role opening name nodes closing)) s') :
    ∃ s', Handled source all true set (.region role opening name nodes closing :: rest) s s' := by
  obtain ⟨s', handled⟩ := later
  refine ⟨s', Given.skip sound ?_ ?_ ?_ handled⟩
  · cases role <;> first
      | rfl
      | exact absurd rfl other
  · cases role <;> first
      | rfl
      | exact absurd rfl other
  · unfold Node.bodies Role.counts
    simp [other]

theorem goes_afterShared {o : Occurrence} (uniform : Uniform source all) (member : o ∈ all)
    (sound : Sound source all s) (inside : ∃ s', Compiled source all o.pragmas o.nodes s s') :
    ((nodes source o.nodes).run s).1 = o.instrs source ∧
      Goes source all (Node.pragmasOf o.nodes) (Node.bodiesOf false o.pragmas o.nodes ++ [o]) s
        (afterShared source o s) := by
  obtain ⟨s', compiled⟩ := inside
  refine ⟨by rw [compiled.run]; rfl, ?_⟩
  unfold afterShared
  cases held : s.holds source o with
  | true => exact .leave sound member held
  | false =>
    rw [compiled.run]
    exact .keep uniform member held compiled.goes

theorem role_sectionOpen (inParent : Bool) : Kind.sectionOpen.role inParent = .repeated := rfl

/-- Trees are compiled to what they are by themselves, whatever sound tables are at hand. -/
theorem exists_handled {inParent : Bool} {set : Pragmas} {tokens : List Token} {trees : List Node}
    (nests : Nests inParent set tokens trees) (uniform : Uniform source all)
    (among : ∀ o ∈ Node.bodiesOf inParent set trees, o ∈ all) (sound : Sound source all s)
    (same : s.pragmas = set) : ∃ s', Handled source all inParent set trees s s' := by
  induction nests generalizing s with
  | nil inParent set =>
    cases inParent with
    | false => exact ⟨s, rfl, .refl sound⟩
    | true => exact ⟨s, rfl, .refl sound⟩
  | literal inParent set t tokens trees kind rest ih =>
    exact Handled.leaf sound rfl rfl rfl (fun _ => rfl) (ih among sound same)
  | silent inParent set t tokens trees kind rest ih => exact ih among sound same
  | pragma inParent set t p tokens trees kind known rest ih =>
    refine Handled.leaf sound rfl rfl rfl (fun _ => rfl) (ih among (Goes.skip_sound sound) ?_)
    rw [← same]
    rfl
  | interpolation inParent set t tokens trees kind rest ih =>
    refine Handled.leaf sound ?_ rfl rfl (fun _ => rfl) (ih among sound same)
    subst same
    rfl
  | partialRef inParent set t tokens trees kind rest ih =>
    exact Handled.leaf sound rfl rfl rfl (fun _ => rfl) (ih among sound same)
  | region inParent set opening closing inner tokens trees more opens closes inside _ rest ih ih' =>
    subst same
    have switched := inside.pragmasOf_eq
    have parent := Kind.decide_role_parent inParent opens
    have later {s' : State} (sound : Sound source all s')
        (switch : s'.pragmas = s.pragmas.insertAll (Node.pragmasOf trees)) :
        ∃ s'', Handled source all inParent (s.pragmas.insertAll (Node.pragmasOf trees)) more s' s'' := by
      rw [switched] at switch ⊢
      refine ih' (fun o there => among o ?_) sound switch
      rw [Node.mem_bodiesOf_region, switched]
      exact .inr there
    have within (counts : (opening.kind.role inParent).counts inParent = true) :
        ∃ s', Handled source all (opening.kind = .parentOpen) s.pragmas trees s s' := by
      refine ih (fun o there => among o ?_) sound rfl
      rw [Node.mem_bodiesOf_region, parent]
      exact .inl ⟨counts, .inl there⟩
    have itself (counts : (opening.kind.role inParent).counts inParent = true)
        (shared : (opening.kind.role inParent).isShared = true) :
        ⟨opening.kind.role inParent, s.pragmas, opening, trees, closing⟩ ∈ all := by
      refine among _ ?_
      rw [Node.mem_bodiesOf_region]
      exact .inl ⟨counts, .inr ⟨shared, rfl⟩⟩
    cases inParent with
    | true =>
      by_cases block : opening.kind = .blockOpen
      · have role : opening.kind.role true = .argument := by rw [block]; rfl
        rw [role] at within itself ⊢
        have notParent : decide (opening.kind = .parentOpen) = false := by rw [block]; rfl
        rw [notParent] at within
        obtain ⟨instrs, goes⟩ := goes_afterShared uniform (itself rfl rfl) sound (within rfl)
        obtain ⟨s'', given⟩ := later goes.sound goes.pragmas
        refine ⟨s'', ?_, goes.trans given.goes⟩
        rw [run_arguments_argument _ _ rfl instrs, given.run]
        rfl
      · refine Handled.ignored sound ?_ (later (Goes.skip_sound sound) rfl)
        revert block opens
        cases opening.kind <;> simp [Kind.opens, Kind.role]
    | false =>
      cases kind : opening.kind with
      | sectionOpen =>
        rw [kind, role_sectionOpen] at within itself
        obtain ⟨instrs, goes⟩ := goes_afterShared uniform (itself rfl rfl) sound (within rfl)
        obtain ⟨s'', after⟩ := later goes.sound goes.pragmas
        refine ⟨s'', Compiled.cons ?_ goes after⟩
        have run := run_region_repeated (opening.name s.pragmas) rfl instrs
        rw [role_sectionOpen, run, goes.pragmas]
        rfl
      | invertedOpen =>
        rw [kind] at within
        obtain ⟨s', compiled⟩ := within rfl
        obtain ⟨s'', after⟩ := later compiled.goes.sound compiled.goes.pragmas
        exact ⟨s'', Compiled.cons (run_region_inverted _ _ _ compiled) (compiled.goes.around rfl) after⟩
      | parentOpen =>
        rw [kind] at within
        obtain ⟨s', given⟩ := within rfl
        obtain ⟨s'', after⟩ := later given.goes.sound given.goes.pragmas
        exact ⟨s'', Compiled.cons (run_region_parent _ _ _ given) (given.goes.around rfl) after⟩
      | blockOpen =>
        rw [kind] at within
        obtain ⟨s', compiled⟩ := within rfl
        obtain ⟨s'', after⟩ := later compiled.goes.sound compiled.goes.pragmas
        exact ⟨s'', Compiled.cons (run_region_slot _ _ _ compiled) (compiled.goes.around rfl) after⟩
      | text | escaped | unescaped | close | partialTag | comment | pragma | delimiters =>
        rw [kind] at opens
        cases opens

end Mustache.Compile
