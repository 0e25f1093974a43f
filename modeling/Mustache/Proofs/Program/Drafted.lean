import Mustache.Proofs.Program.Ready

/-! Compiling into one growing list, with jumps to positions in it. A jump is written before its
target is known and aimed later; the program that comes out does not depend on what stood there in
between, and each of its jumps goes forward and no further than to the end. -/
namespace Mustache

open Markup

namespace Instr

/-- The instruction at a position, with the position to go on from in place of a skip. -/
def aim (position : Nat) : Instr → Instr
  | unlessEmpty skip => unlessEmpty (position + 1 + skip)
  | slot name skip => slot name (position + 1 + skip)
  | instr => instr

def target? : Instr → Option Nat
  | unlessEmpty target | slot _ target => some target
  | _ => none

end Instr

def aimed : Nat → List Instr → List Instr
  | _, [] => []
  | position, instr :: rest => instr.aim position :: aimed (position + 1) rest

theorem length_aimed (position : Nat) (instrs : List Instr) :
    (aimed position instrs).length = instrs.length := by
  induction instrs generalizing position with
  | nil => rfl
  | cons instr rest ih => exact congrArg (· + 1) (ih (position + 1))

theorem aimed_append (position : Nat) (first second : List Instr) :
    aimed position (first ++ second) =
      aimed position first ++ aimed (position + first.length) second := by
  induction first generalizing position with
  | nil => rfl
  | cons instr rest ih =>
    show _ :: aimed (position + 1) (rest ++ second) = _ :: (_ ++ _)
    rw [ih, List.length_cons, Nat.add_right_comm, Nat.add_assoc]

theorem aimed_eq_self {instrs : List Instr} (straight : ∀ instr ∈ instrs, instr.target? = none)
    (position : Nat) : aimed position instrs = instrs := by
  induction instrs generalizing position with
  | nil => rfl
  | cons instr rest ih =>
    have first := straight instr List.mem_cons_self
    have same : instr.aim position = instr := by
      cases instr <;> first
        | rfl
        | cases first
    show instr.aim position :: _ = _
    rw [same, ih fun other member => straight other (List.mem_cons_of_mem instr member)]

theorem Ready.target_le {keys : Keys} {instrs : List Instr} {pending : Bool}
    (ready : Ready keys instrs 0 pending) {start index target : Nat} {instr : Instr}
    (there : (aimed start instrs)[index]? = some instr) (jumps : instr.target? = some target) :
    start + index < target ∧ target ≤ start + instrs.length := by
  induction instrs generalizing start index pending with
  | nil => cases there
  | cons first rest ih =>
    cases index with
    | zero =>
      cases there
      have lands (skip : Nat) (pending' : Bool)
          (member : (skip, pending') ∈ first.leaves pending) : skip ≤ rest.length :=
        (ready.2 _ member).skip_le
      rw [List.length_cons]
      cases first with
      | unlessEmpty skip =>
        have fits := lands skip false (List.mem_cons_of_mem _ List.mem_cons_self)
        cases jumps
        omega
      | slot name skip =>
        have fits := lands skip pending (List.mem_cons_of_mem _ List.mem_cons_self)
        cases jumps
        omega
      | _ => cases jumps
    | succ index =>
      obtain ⟨_, later⟩ := ready.tail
      have bounds : start + 1 + index < target ∧ target ≤ start + 1 + rest.length := ih later there
      rw [List.length_cons]
      omega

namespace Compile

/-- What must never happen while a tree is compiled. -/
inductive Slip
  | strayArgument (name : String)
  | notAJump (position : Nat)
  deriving DecidableEq

structure Draft where
  instrs : List Instr
  state : State

abbrev Drafting := StateT Draft (Except Slip)

namespace Drafting

/-- Writes an instruction and tells its position. -/
def push (instr : Instr) : Drafting Nat := do
  let position := (← get).instrs.length
  modify fun d => { d with instrs := d.instrs ++ [instr] }
  pure position

def pushAll (instrs : List Instr) : Drafting Unit :=
  modify fun d => { d with instrs := d.instrs ++ instrs }

/-- Aims the jump at a position at what is written next. -/
def land (position : Nat) : Drafting Unit := do
  let d ← get
  match d.instrs[position]? with
  | some (.unlessEmpty _) =>
    set { d with instrs := d.instrs.set position (.unlessEmpty d.instrs.length) }
  | some (.slot name _) =>
    set { d with instrs := d.instrs.set position (.slot name d.instrs.length) }
  | _ => throw (.notAJump position)

def apart (write : Drafting Unit) : Drafting (List Instr) := do
  let outer := (← get).instrs
  modify fun d => { d with instrs := [] }
  write
  let instrs := (← get).instrs
  modify fun d => { d with instrs := outer }
  pure instrs

end Drafting

mutual

/-- Compiles a tree, with some number for each target that is not known yet. -/
def draft (source : String) (hole : Nat) : Node → Drafting Unit
  | .literal text => do discard (Drafting.push (.text text.content))
  | .pragma _ p => modify fun d => { d with state := { d.state with pragmas := d.state.pragmas.insert p } }
  | .variable tag name => do
    let set := (← get).state.pragmas
    Drafting.pushAll (resolved set tag.span name)
    discard (Drafting.push (.emit (tag.kind = .escaped) tag.span))
  | .partialRef tag => do discard (Drafting.push (.partialCall tag.content tag.indent))
  | .region .repeated opening name inner closing => do
    let body := Body.between opening closing
    let key := body.key source (← get).state.pragmas
    if !Entries.has key (← get).state.sections then
      let instrs ← Drafting.apart (draftAll source hole inner)
      modify fun d => { d with state := d.state.addSection source body key instrs }
    let set := (← get).state.pragmas
    Drafting.pushAll (filtered set opening.span name)
    discard (Drafting.push (.repeated key))
  | .region .inverted opening name inner _ => do
    let set := (← get).state.pragmas
    Drafting.pushAll (filtered set opening.span name)
    let jump ← Drafting.push (.unlessEmpty hole)
    draftAll source hole inner
    Drafting.land jump
  | .region .parent opening name inner _ => do
    let given ← draftArguments source hole inner
    discard (Drafting.push (.parentCall name.path opening.indent given))
  | .region .slot _ name inner _ => do
    let jump ← Drafting.push (.slot name.path hole)
    draftAll source hole inner
    Drafting.land jump
  | .region .argument _ name _ _ => throw (.strayArgument name.path)
  termination_by structural tree => tree

def draftAll (source : String) (hole : Nat) : List Node → Drafting Unit
  | [] => pure ()
  | first :: rest => do
    draft source hole first
    draftAll source hole rest
  termination_by structural trees => trees

def draftArguments (source : String) (hole : Nat) : List Node → Drafting (List (String × Key))
  | [] => pure []
  | .region .argument opening name inner closing :: rest => do
    let body := Body.between opening closing
    let key := body.key source (← get).state.pragmas
    if !Entries.has key (← get).state.blocks then
      let instrs ← Drafting.apart (draftAll source hole inner)
      modify fun d => { d with state := d.state.addBlock key instrs }
    let more ← draftArguments source hole rest
    pure ((name.path, key) :: more)
  | other :: rest => do
    modify fun d => { d with state := d.state.skip other }
    draftArguments source hole rest
  termination_by structural trees => trees

end

end Compile

def Section.aimed (sec : Section) : Section := { sec with instrs := Mustache.aimed 0 sec.instrs }

namespace Compile

def State.aimed (s : State) : State where
  pragmas := s.pragmas
  sections := s.sections.map fun entry => (entry.1, entry.2.aimed)
  blocks := s.blocks.map fun entry => (entry.1, Mustache.aimed 0 entry.2)

theorem State.aimed_addSection (source : String) (body : Body) (key : Key) (instrs : List Instr)
    (s : State) : (s.addSection source body key instrs).aimed =
      s.aimed.addSection source body key (Mustache.aimed 0 instrs) :=
  congrArg (State.mk s.pragmas · _)
    (Entries.put_map Section.aimed key ⟨body.span, _, _, _, instrs⟩ s.sections).symm

theorem State.aimed_addBlock (key : Key) (instrs : List Instr) (s : State) :
    (s.addBlock key instrs).aimed = s.aimed.addBlock key (Mustache.aimed 0 instrs) :=
  congrArg (State.mk s.pragmas _) (Entries.put_map (Mustache.aimed 0) key instrs s.blocks).symm

namespace Drafting

variable {s : State}

/-- A jump lands behind what is written after it. -/
theorem run_land {jump : Nat → Instr}
    (jumps : jump = .unlessEmpty ∨ ∃ name, jump = .slot name) (hole : Nat)
    (before more : List Instr) :
    (land before.length).run ⟨before ++ jump hole :: more, s⟩ =
      .ok ((), ⟨before ++ jump (before.length + 1 + more.length) :: more, s⟩) := by
  have there : (before ++ jump hole :: more)[before.length]? = some (jump hole) := by simp
  have placed (n : Nat) : (before ++ jump hole :: more).set before.length (jump n) =
      before ++ jump n :: more := by simp
  have whole : (before ++ jump hole :: more).length = before.length + 1 + more.length := by
    rw [List.length_append, List.length_cons, Nat.add_assoc, Nat.add_comm 1]
  unfold land
  rw [StateT.run_bind]
  show ((match (before ++ jump hole :: more)[before.length]? with
    | some (.unlessEmpty _) => _
    | some (.slot name _) => _
    | _ => _ : Drafting Unit).run ⟨before ++ jump hole :: more, s⟩) = _
  rw [there]
  rcases jumps with rfl | ⟨name, rfl⟩
  · show Except.ok ((), Draft.mk (List.set _ _ (.unlessEmpty _)) s) = _
    rw [placed, whole]
  · show Except.ok ((), Draft.mk (List.set _ _ (.slot name _)) s) = _
    rw [placed, whole]

theorem run_apart {write : Drafting Unit} {instrs : List Instr} {s' : State} (before : List Instr)
    (made : write.run ⟨[], s⟩ = .ok ((), ⟨instrs, s'⟩)) :
    (apart write).run ⟨before, s⟩ = .ok (instrs, ⟨before, s'⟩) := by
  show (write.run ⟨[], s⟩ >>= fun (_, d) => Except.ok (d.instrs, Draft.mk before d.state)) = _
  rw [made]
  rfl

end Drafting

variable {source : String} {hole : Nat} {s s' : State}

/-- Trees are drafted to their instructions, with jumps, behind what is written before, or directly
in a parent to their arguments. -/
def Drafts (source : String) (hole : Nat) : Bool → List Node → State → Prop
  | false, trees, s => ∀ before, (draftAll source hole trees).run ⟨before, s.aimed⟩ =
      .ok ((), ⟨before ++ Mustache.aimed before.length ((nodes source trees).run s).1,
        ((nodes source trees).run s).2.aimed⟩)
  | true, trees, s => ∀ before, (draftArguments source hole trees).run ⟨before, s.aimed⟩ =
      .ok (((arguments source trees).run s).1, ⟨before, ((arguments source trees).run s).2.aimed⟩)

theorem Drafts.cons {tree : Node} {rest : List Node} {instrs : List Instr}
    (alone : (node source tree).run s = (instrs, s'))
    (first : ∀ before, (draft source hole tree).run ⟨before, s.aimed⟩ =
      .ok ((), ⟨before ++ Mustache.aimed before.length instrs, s'.aimed⟩))
    (later : Drafts source hole false rest s') : Drafts source hole false (tree :: rest) s := by
  intro before
  show ((draft source hole tree).run ⟨before, s.aimed⟩ >>= fun (_, d) =>
    (draftAll source hole rest).run d) = _
  rw [first, run_nodes_cons, alone]
  refine (later _).trans ?_
  rw [List.length_append, length_aimed, List.append_assoc, aimed_append]

theorem Drafts.skip {tree : Node} {rest : List Node}
    (run : (arguments source (tree :: rest)).run s = (arguments source rest).run (s.skip tree))
    (draft : ∀ before, (draftArguments source hole (tree :: rest)).run ⟨before, s.aimed⟩ =
      (draftArguments source hole rest).run ⟨before, (s.skip tree).aimed⟩)
    (later : Drafts source hole true rest (s.skip tree)) : Drafts source hole true (tree :: rest) s := by
  intro before
  rw [run, draft]
  exact later before

theorem Drafts.leaf {inParent : Bool} {tree : Node} {rest : List Node} {instrs : List Instr}
    (alone : (node source tree).run s = (instrs, s.skip tree))
    (first : ∀ before, (draft source hole tree).run ⟨before, s.aimed⟩ =
      .ok ((), ⟨before ++ instrs, (s.skip tree).aimed⟩))
    (straight : ∀ instr ∈ instrs, instr.target? = none)
    (run : (arguments source (tree :: rest)).run s = (arguments source rest).run (s.skip tree))
    (draft : ∀ before, (draftArguments source hole (tree :: rest)).run ⟨before, s.aimed⟩ =
      (draftArguments source hole rest).run ⟨before, (s.skip tree).aimed⟩)
    (later : Drafts source hole inParent rest (s.skip tree)) :
    Drafts source hole inParent (tree :: rest) s := by
  cases inParent with
  | true => exact .skip run draft later
  | false =>
    refine .cons alone ?_ later
    intro before
    rw [aimed_eq_self straight]
    exact first before

theorem run_draft_shared {α β : Type} (keyOf : Pragmas → Key) (table : State → List (Key × β))
    {write : Drafting Unit} {instrs : List Instr}
    (made : write.run ⟨[], s⟩ = .ok ((), ⟨instrs, s'⟩)) (store : Key → List Instr → State → State)
    (more : Key → Drafting α) (before : List Instr) :
    (do
      let key := keyOf (← get).state.pragmas
      if !Entries.has key (table (← get).state) then
        let instrs ← Drafting.apart write
        modify fun d => { d with state := store key instrs d.state }
      more key : Drafting α).run ⟨before, s⟩ =
      (more (keyOf s.pragmas)).run ⟨before, if Entries.has (keyOf s.pragmas) (table s) then s
        else store (keyOf s.pragmas) instrs s'⟩ := by
  generalize same : keyOf s.pragmas = key
  cases held : Entries.has key (table s) with
  | false =>
    have aside := Drafting.run_apart before made
    simp only [StateT.run_bind, StateT.run_get, pure_bind, same, held, Bool.not_false, if_true,
      StateT.run_modify, aside]
    rfl
  | true => simp [same, held]

theorem straight_filters (set : Pragmas) (span : Span) (name : Name) :
    ∀ instr ∈ filters set span name, instr.target? = none := by
  intro instr member
  obtain ⟨filter, -, rfl⟩ := List.mem_map.1 member
  rfl

theorem straight_filtered (set : Pragmas) (span : Span) (name : Name) :
    ∀ instr ∈ filtered set span name, instr.target? = none :=
  List.forall_mem_cons.2 ⟨rfl, straight_filters set span name⟩

theorem straight_resolved (set : Pragmas) (span : Span) (name : Name) :
    ∀ instr ∈ resolved set span name, instr.target? = none :=
  List.forall_mem_cons.2 ⟨rfl, List.forall_mem_cons.2 ⟨rfl, straight_filters set span name⟩⟩

theorem straight_append {first : List Instr} {last : Instr}
    (straight : ∀ instr ∈ first, instr.target? = none) (ends : last.target? = none) :
    ∀ instr ∈ first ++ [last], instr.target? = none :=
  List.forall_mem_append.2 ⟨straight, List.forall_mem_cons.2 ⟨ends, nofun⟩⟩

theorem drafts_repeated (opening closing : Token) (name : Name) {inner rest : List Node}
    (inside : Drafts source hole false inner s) (later : ∀ s', Drafts source hole false rest s') :
    Drafts source hole false (.region .repeated opening name inner closing :: rest) s := by
  let body := Body.between opening closing
  let key := body.key source s.pragmas
  let filled := afterSection source body inner s
  have shared : (if Entries.has key s.aimed.sections then s.aimed
      else ((nodes source inner).run s).2.aimed.addSection source body key
        (Mustache.aimed 0 ((nodes source inner).run s).1)) = filled.aimed := by
    rw [← State.aimed_addSection]
    show (if Entries.has key (s.sections.map fun entry => (entry.1, entry.2.aimed)) then _ else _) = _
    rw [Entries.has_map]
    exact (apply_ite State.aimed _ _ _).symm
  refine .cons (run_repeated opening closing name inner) ?_ (later filled)
  intro before
  rw [aimed_eq_self (straight_append (straight_filtered _ _ _) rfl)]
  refine (run_draft_shared (Body.key source · body) State.sections (inside [])
    (fun key instrs s => s.addSection source body key instrs) (fun key => do
      let set := (← get).state.pragmas
      Drafting.pushAll (filtered set opening.span name)
      discard (Drafting.push (Instr.repeated key))) before).trans ?_
  show StateT.run _ (Draft.mk before (if Entries.has key s.aimed.sections then s.aimed
      else ((nodes source inner).run s).2.aimed.addSection source body key
        (Mustache.aimed 0 ((nodes source inner).run s).1))) = _
  rw [shared, ← List.append_assoc]
  rfl

theorem drafts_argument (opening closing : Token) (name : Name) {inner rest : List Node}
    (inside : Drafts source hole false inner s) (later : ∀ s', Drafts source hole true rest s') :
    Drafts source hole true (.region .argument opening name inner closing :: rest) s := by
  let body := Body.between opening closing
  let key := body.key source s.pragmas
  let filled := afterArgument source body inner s
  have shared : (if Entries.has key s.aimed.blocks then s.aimed
      else ((nodes source inner).run s).2.aimed.addBlock key
        (Mustache.aimed 0 ((nodes source inner).run s).1)) = filled.aimed := by
    rw [← State.aimed_addBlock]
    show (if Entries.has key (s.blocks.map fun entry => (entry.1, Mustache.aimed 0 entry.2)) then _
      else _) = _
    rw [Entries.has_map]
    exact (apply_ite State.aimed _ _ _).symm
  intro before
  rw [run_argument]
  refine (run_draft_shared (Body.key source · body) State.blocks (inside [])
    (fun key instrs s => s.addBlock key instrs)
    (fun key => do return (name.path, key) :: (← draftArguments source hole rest)) before).trans ?_
  show StateT.run _ (Draft.mk before (if Entries.has key s.aimed.blocks then s.aimed
      else ((nodes source inner).run s).2.aimed.addBlock key
        (Mustache.aimed 0 ((nodes source inner).run s).1))) = _
  rw [shared]
  show ((draftArguments source hole rest).run ⟨before, filled.aimed⟩ >>= fun (more, d) =>
    Except.ok ((name.path, key) :: more, d)) = _
  rw [later filled before]
  rfl

theorem drafts_jump {jump : Nat → Instr} (jumps : jump = .unlessEmpty ∨ ∃ name, jump = .slot name)
    {test : List Instr} (straight : ∀ instr ∈ test, instr.target? = none) {inner : List Node}
    (inside : Drafts source hole false inner s) (before : List Instr) :
    (do
      Drafting.pushAll test
      let position ← Drafting.push (jump hole)
      draftAll source hole inner
      Drafting.land position : Drafting Unit).run ⟨before, s.aimed⟩ =
      .ok ((), ⟨before ++ Mustache.aimed before.length
        (test ++ jump ((nodes source inner).run s).1.length :: ((nodes source inner).run s).1),
        ((nodes source inner).run s).2.aimed⟩) := by
  have aim (position skip : Nat) : (jump skip).aim position = jump (position + 1 + skip) := by
    rcases jumps with rfl | ⟨name, rfl⟩ <;> rfl
  show ((draftAll source hole inner).run ⟨(before ++ test) ++ [jump hole], s.aimed⟩ >>= fun (_, d) =>
    (Drafting.land (before ++ test).length).run d) = _
  rw [inside]
  show (Drafting.land (before ++ test).length).run ⟨(before ++ test) ++ [jump hole] ++ _, _⟩ = _
  rw [List.append_assoc, List.singleton_append, Drafting.run_land jumps, aimed_append,
    aimed_eq_self straight, length_aimed]
  show _ = Except.ok ((), Draft.mk (before ++ (test ++ (jump _).aim _ :: Mustache.aimed _ _)) _)
  rw [aim]
  simp [Nat.add_assoc]

/-- What a tree of the grammar is compiled to is what it is drafted to, whatever the hole is. -/
theorem drafts_of_nests {inParent : Bool} {set : Pragmas} {tokens : List Token} {trees : List Node}
    (nests : Nests inParent set tokens trees) (hole : Nat) (s : State) :
    Drafts source hole inParent trees s := by
  induction nests generalizing s with
  | nil inParent set =>
    cases inParent with
    | false =>
      intro before
      show Except.ok ((), Draft.mk before s.aimed) = Except.ok ((), Draft.mk (before ++ []) s.aimed)
      rw [List.append_nil]
    | true => exact fun before => rfl
  | literal inParent set t tokens trees kind rest ih =>
    exact .leaf rfl (fun _ => rfl) (List.forall_mem_singleton.2 rfl) rfl (fun _ => rfl) (ih s)
  | silent inParent set t tokens trees kind rest ih => exact ih s
  | pragma inParent set t p tokens trees kind known rest ih =>
    refine .leaf rfl (fun before => ?_) nofun rfl (fun _ => rfl) (ih _)
    rw [List.append_nil]
    rfl
  | interpolation inParent set t tokens trees kind rest ih =>
    refine .leaf rfl (fun before => ?_) (straight_append (straight_resolved _ _ _) rfl) rfl
      (fun _ => rfl) (ih s)
    rw [← List.append_assoc]
    rfl
  | partialRef inParent set t tokens trees kind rest ih =>
    exact .leaf rfl (fun _ => rfl) (List.forall_mem_singleton.2 rfl) rfl (fun _ => rfl) (ih s)
  | region inParent set opening closing inner tokens trees more opens closes inside _ rest ih ih' =>
    have within := ih s
    cases inParent with
    | true =>
      have later := ih' (s.skip (.region (opening.kind.role true) opening (opening.name set) trees closing))
      cases kind : opening.kind with
      | blockOpen =>
        rw [kind] at within
        exact drafts_argument opening closing _ within ih'
      | sectionOpen | invertedOpen | parentOpen =>
        rw [kind] at later
        exact .skip rfl (fun _ => rfl) later
      | text | escaped | unescaped | close | partialTag | comment | pragma | delimiters =>
        rw [kind] at opens
        cases opens
    | false =>
      cases kind : opening.kind with
      | sectionOpen =>
        rw [kind] at within
        exact drafts_repeated opening closing _ within ih'
      | invertedOpen =>
        rw [kind] at within
        exact .cons rfl (drafts_jump (.inl rfl) (straight_filtered s.pragmas _ _) within) (ih' _)
      | parentOpen =>
        rw [kind] at within
        refine .cons rfl (fun before => ?_) (ih' _)
        show ((draftArguments source hole trees).run ⟨before, s.aimed⟩ >>= fun (given, d) =>
          (discard (Drafting.push (.parentCall (opening.name set).path opening.indent given)) :
            Drafting Unit).run d) = _
        rw [within before]
        rfl
      | blockOpen =>
        rw [kind] at within
        refine .cons rfl (fun before => ?_) (ih' _)
        -- a jump with no test before it
        have straight : ∀ instr ∈ ([] : List Instr), instr.target? = none := nofun
        have jump := drafts_jump (.inr ⟨(opening.name set).path, rfl⟩) straight within before
        refine Eq.trans ?_ jump
        show _ = ((draftAll source hole trees).run
          ⟨before ++ [] ++ [.slot (opening.name set).path hole], s.aimed⟩ >>= fun (_, d) =>
            (Drafting.land (before ++ []).length).run d)
        rw [List.append_nil]
        rfl
      | text | escaped | unescaped | close | partialTag | comment | pragma | delimiters =>
        rw [kind] at opens
        cases opens

end Compile

namespace Program

/-- A program with jumps in place of skips. -/
def aimed (program : Program) : Program :=
  { program with
    instrs := Mustache.aimed 0 program.instrs
    sections := program.sections.map fun entry => (entry.1, entry.2.aimed)
    blocks := program.blocks.map fun entry => (entry.1, Mustache.aimed 0 entry.2) }

def draft (dialect : Dialect) (hole : Nat) (key : Key) (source : String) (tree : List Node) :
    Except Compile.Slip Program := do
  let (_, d) ← (Compile.draftAll source hole tree).run ⟨[], .initial dialect.pragmas⟩
  pure ⟨key, source, dialect.escape, dialect.strictCallables, d.instrs, d.state.sections,
    d.state.blocks⟩

/-- Drafting a tree that was read never slips, and leaves no hole. -/
theorem draft_eq {dialect : Dialect} {source : String} {tree : List Node}
    (parsed : parse dialect.pragmas source = .ok tree) (hole : Nat) (key : Key) :
    draft dialect hole key source tree = .ok (ofNodes dialect key source tree).aimed := by
  obtain ⟨tokens, -, nests⟩ := read_of_parse parsed
  have drafts : (Compile.draftAll source hole tree).run ⟨[], .initial dialect.pragmas⟩ = _ :=
    Compile.drafts_of_nests nests hole (.initial dialect.pragmas) []
  unfold draft
  rw [drafts]
  rfl

theorem exists_of_owns_aimed {program : Program} {list : List Instr} (owns : program.aimed.Owns list) :
    ∃ instrs, program.Owns instrs ∧ list = Mustache.aimed 0 instrs := by
  cases owns with
  | main => exact ⟨_, .main, rfl⟩
  | body key sec found =>
    have among := (Entries.get?_map Section.aimed key program.sections).symm.trans found
    obtain ⟨sec', found', rfl⟩ := Option.map_eq_some_iff.1 among
    exact ⟨_, .body key sec' found', rfl⟩
  | argument key instrs found =>
    have among := (Entries.get?_map (Mustache.aimed 0) key program.blocks).symm.trans found
    obtain ⟨instrs', found', rfl⟩ := Option.map_eq_some_iff.1 among
    exact ⟨_, .argument key instrs' found', rfl⟩

/-- Each jump of a compiled program goes forward, and no further than to the end of its list. -/
theorem WellFormed.target_le {program : Program} (wellFormed : program.WellFormed)
    {list : List Instr} (owns : program.aimed.Owns list) {position target : Nat} {instr : Instr}
    (there : list[position]? = some instr) (jumps : instr.target? = some target) :
    position < target ∧ target ≤ list.length := by
  obtain ⟨instrs, owned, rfl⟩ := exists_of_owns_aimed owns
  have bounds := (wellFormed.ready owned).target_le there jumps
  rw [length_aimed]
  omega

end Program
end Mustache
