import Mustache.Proofs.Program.Ready

/-! Properties of single instructions, and of the places of bodies, that the compiler keeps. If what each
token by itself is compiled to has a property, so has all that is in the program. -/
namespace Mustache

open Markup

/-- A property that all instructions have but those that come from one tag, or write its text. -/
structure Mute (holds : Instr → Prop) : Prop where
  «repeated» : ∀ key, holds (.repeated key)
  unlessEmpty : ∀ skip, holds (.unlessEmpty skip)
  slot : ∀ name skip, holds (.slot name skip)
  strayArgument : ∀ name, holds (.strayArgument name)

/-- What a token by itself is compiled to has a property. -/
structure Markup.Token.Gives (t : Token) (holds : Instr → Prop) : Prop where
  text : t.kind = .text → holds (.text t.content)
  emit : t.kind = .escaped ∨ t.kind = .unescaped → holds (.emit (t.kind = .escaped) t.span)
  partialCall : holds (.partialCall t.content t.indent)
  parentCall : ∀ name given, holds (.parentCall name t.indent given)
  lookup : ∀ lookup name, holds (.lookup ⟨lookup, name, t.span⟩)
  resolve : holds (.resolve t.span)
  apply : ∀ lookup name, holds (.apply ⟨lookup, name, t.span⟩)

/-- What is between a token and a later one has a property. -/
def Markup.Between (places : Span → Prop) (tokens : List Token) : Prop :=
  tokens.Pairwise fun opening closing => places ⟨opening.span.stop, closing.span.start⟩

structure Program.Only (holds : Instr → Prop) (program : Program) : Prop where
  instrs : ∀ instr ∈ program.instrs, holds instr
  sections : ∀ key sec, Entries.get? key program.sections = some sec → ∀ instr ∈ sec.instrs, holds instr
  blocks : ∀ key instrs, Entries.get? key program.blocks = some instrs → ∀ instr ∈ instrs, holds instr

namespace Compile

variable {holds : Instr → Prop} {places : Span → Prop} {source : String} {s : State}

structure State.Only (holds : Instr → Prop) (places : Span → Prop) (s : State) : Prop where
  sections : ∀ key sec, Entries.get? key s.sections = some sec →
    places sec.span ∧ ∀ instr ∈ sec.instrs, holds instr
  blocks : ∀ key instrs, Entries.get? key s.blocks = some instrs → ∀ instr ∈ instrs, holds instr

theorem State.Only.addSection (only : s.Only holds places) (source : String) {body : Body}
    (place : places body.span) (key : Key) {instrs : List Instr} (clean : ∀ instr ∈ instrs, holds instr) :
    (s.addSection source body key instrs).Only holds places := by
  refine ⟨?_, only.blocks⟩
  intro other sec found
  rw [State.addSection, Entries.get?_put] at found
  split at found
  · cases found
    exact ⟨place, clean⟩
  · exact only.sections other sec found

theorem State.Only.addBlock (only : s.Only holds places) (key : Key) {instrs : List Instr}
    (clean : ∀ instr ∈ instrs, holds instr) : (s.addBlock key instrs).Only holds places := by
  refine ⟨only.sections, ?_⟩
  intro other given found
  rw [State.addBlock, Entries.get?_put] at found
  split at found
  · cases found
    exact clean
  · exact only.blocks other given found

theorem filtered_of_gives {t : Token} (gives : t.Gives holds) (set : Pragmas) (name : Name) :
    ∀ instr ∈ filtered set t.span name, holds instr := by
  intro instr member
  rcases List.mem_cons.1 member with rfl | later
  · exact gives.lookup _ _
  · obtain ⟨filter, -, rfl⟩ := List.mem_map.1 later
    exact gives.apply _ _

theorem resolved_of_gives {t : Token} (gives : t.Gives holds) (set : Pragmas) (name : Name) :
    ∀ instr ∈ resolved set t.span name, holds instr := by
  intro instr member
  rcases List.mem_cons.1 member with rfl | later
  · exact gives.lookup _ _
  · rcases List.mem_cons.1 later with rfl | later
    · exact gives.resolve
    · obtain ⟨filter, -, rfl⟩ := List.mem_map.1 later
      exact gives.apply _ _

/-- What trees are compiled to, or the arguments among them, has a property. -/
structure Keeps (holds : Instr → Prop) (places : Span → Prop) (source : String) (trees : List Node) (s : State) : Prop where
  state : ((nodes source trees).run s).2.Only holds places
  instrs : ∀ instr ∈ ((nodes source trees).run s).1, holds instr
  given : ((arguments source trees).run s).2.Only holds places

theorem Keeps.cons {tree : Node} {rest : List Node}
    (state : ((node source tree).run s).2.Only holds places)
    (instrs : ∀ instr ∈ ((node source tree).run s).1, holds instr)
    (given : ((arguments source (tree :: rest)).run s).2.Only holds places)
    (later : ∀ s : State, s.Only holds places → Keeps holds places source rest s) :
    Keeps holds places source (tree :: rest) s where
  state := by
    rw [run_nodes_cons]
    exact (later _ state).state
  instrs := by
    rw [run_nodes_cons]
    intro instr member
    exact (List.mem_append.1 member).elim (instrs instr) ((later _ state).instrs instr)
  given := given

theorem State.Only.skip (only : s.Only holds places) (tree : Node) : (s.skip tree).Only holds places :=
  ⟨only.sections, only.blocks⟩

theorem Keeps.leaf {tree : Node} {rest : List Node} (start : s.Only holds places) {instrs : List Instr}
    (alone : (node source tree).run s = (instrs, s.skip tree))
    (clean : ∀ instr ∈ instrs, holds instr)
    (run : (arguments source (tree :: rest)).run s = (arguments source rest).run (s.skip tree))
    (later : ∀ s : State, s.Only holds places → Keeps holds places source rest s) :
    Keeps holds places source (tree :: rest) s := by
  refine .cons ?_ ?_ ?_ later
  · rw [alone]
    exact start.skip tree
  · rw [alone]
    exact clean
  · rw [run]
    exact (later _ (start.skip tree)).given

theorem Keeps.repeated (mute : Mute holds) {opening closing : Token} (gives : opening.Gives holds)
    (place : places ⟨opening.span.stop, closing.span.start⟩) (name : Name) {inner rest : List Node}
    (start : s.Only holds places) (inside : Keeps holds places source inner s)
    (later : ∀ s : State, s.Only holds places → Keeps holds places source rest s) :
    Keeps holds places source (.region .repeated opening name inner closing :: rest) s := by
  have filled : (afterSection source (.between opening closing) inner s).Only holds places := by
    unfold afterSection
    split
    · exact start
    · exact inside.state.addSection source place _ inside.instrs
  refine .cons ?_ ?_ (later _ (start.skip _)).given later
  · rw [run_repeated]
    exact filled
  · rw [run_repeated]
    exact List.forall_mem_append.2
      ⟨filtered_of_gives gives _ _, List.forall_mem_singleton.2 (mute.repeated _)⟩

theorem Keeps.argument (mute : Mute holds) (opening closing : Token) (name : Name) {inner rest : List Node}
    (start : s.Only holds places) (inside : Keeps holds places source inner s)
    (later : ∀ s : State, s.Only holds places → Keeps holds places source rest s) :
    Keeps holds places source (.region .argument opening name inner closing :: rest) s := by
  refine .cons start (List.forall_mem_singleton.2 (mute.strayArgument _)) ?_ later
  rw [run_argument]
  refine (later _ ?_).given
  unfold afterArgument
  split
  · exact start
  · exact inside.state.addBlock _ inside.instrs

theorem keeps_of_nests (mute : Mute holds) {inParent : Bool} {set : Pragmas} {tokens : List Token}
    {trees : List Node} (nests : Nests inParent set tokens trees)
    (gives : ∀ t ∈ tokens, t.Gives holds) (between : Between places tokens) (s : State) (start : s.Only holds places) :
    Keeps holds places source trees s := by
  induction nests generalizing s with
  | nil inParent set => exact ⟨start, nofun, start⟩
  | literal inParent set t tokens trees kind rest ih =>
    obtain ⟨here, later⟩ := List.forall_mem_cons.1 gives
    have between := (List.pairwise_cons.1 between).2
    exact .leaf start rfl (List.forall_mem_singleton.2 (here.text kind)) rfl (ih later between)
  | silent inParent set t tokens trees kind rest ih =>
    exact ih (List.forall_mem_cons.1 gives).2 (List.pairwise_cons.1 between).2 s start
  | pragma inParent set t p tokens trees kind known rest ih =>
    exact .leaf start rfl nofun rfl (ih (List.forall_mem_cons.1 gives).2 (List.pairwise_cons.1 between).2)
  | interpolation inParent set t tokens trees kind rest ih =>
    obtain ⟨here, later⟩ := List.forall_mem_cons.1 gives
    have between := (List.pairwise_cons.1 between).2
    refine .leaf start rfl ?_ rfl (ih later between)
    exact List.forall_mem_append.2
      ⟨resolved_of_gives here _ _, List.forall_mem_singleton.2 (here.emit kind)⟩
  | partialRef inParent set t tokens trees kind rest ih =>
    obtain ⟨here, later⟩ := List.forall_mem_cons.1 gives
    have between := (List.pairwise_cons.1 between).2
    exact .leaf start rfl (List.forall_mem_singleton.2 here.partialCall) rfl (ih later between)
  | region inParent set opening closing inner tokens trees more opens closes inside _ rest ih ih' =>
    obtain ⟨here, among⟩ := List.forall_mem_cons.1 gives
    obtain ⟨within, after⟩ := List.forall_mem_append.1 among
    rw [Between, List.cons_append, List.pairwise_cons, List.pairwise_append] at between
    obtain ⟨place, betweenInner, betweenAfter, -⟩ := between
    have inside := ih within betweenInner s start
    have later := ih' (List.forall_mem_cons.1 after).2 (List.pairwise_cons.1 betweenAfter).2
    cases opening.kind.role inParent with
    | «repeated» => exact .repeated mute here (place closing (by simp)) _ start inside later
    | inverted =>
      refine .cons inside.state ?_ (later _ (start.skip _)).given later
      exact List.forall_mem_append.2 ⟨filtered_of_gives here _ _,
        List.forall_mem_cons.2 ⟨mute.unlessEmpty _, inside.instrs⟩⟩
    | parent =>
      refine .cons inside.given ?_ (later _ (start.skip _)).given later
      exact List.forall_mem_singleton.2 (here.parentCall _ _)
    | argument => exact .argument mute opening closing _ start inside later
    | slot =>
      refine .cons inside.state ?_ (later _ (start.skip _)).given later
      exact List.forall_mem_cons.2 ⟨mute.slot _ _, inside.instrs⟩

end Compile

theorem Program.only_of_nests {holds : Instr → Prop} {places : Span → Prop} (mute : Mute holds)
    {dialect : Dialect} {key : Key} {source : String} {tokens : List Token} {tree : List Node}
    (nests : Nests false dialect.pragmas tokens tree) (gives : ∀ t ∈ tokens, t.Gives holds)
    (between : Between places tokens) : (ofNodes dialect key source tree).Only holds ∧
      ∀ body sec, Entries.get? body (ofNodes dialect key source tree).sections = some sec →
        places sec.span := by
  have keeps : Compile.Keeps holds places source tree (.initial dialect.pragmas) :=
    Compile.keeps_of_nests mute nests gives between _ ⟨nofun, nofun⟩
  refine ⟨⟨keeps.instrs, ?_, keeps.state.blocks⟩, ?_⟩
  · exact fun body sec found => (keeps.state.sections body sec found).2
  · exact fun body sec found => (keeps.state.sections body sec found).1

theorem Program.Only.of_nests {holds : Instr → Prop} (mute : Mute holds) {dialect : Dialect} {key : Key}
    {source : String} {tokens : List Token} {tree : List Node}
    (nests : Nests false dialect.pragmas tokens tree) (gives : ∀ t ∈ tokens, t.Gives holds) :
    (ofNodes dialect key source tree).Only holds := by
  have anywhere : Between (fun _ => True) tokens := List.pairwise_of_forall fun _ _ => trivial
  exact (only_of_nests mute nests gives anywhere).1

end Mustache
