import Mustache.Engine
import Mustache.Proofs.Entries
import Mustache.Proofs.Markup.Delimited
import Mustache.Proofs.Program.Sharing

/-! A template that stands further on in a source is compiled as by itself, apart from the spans. So a
first line that sets the delimiters only decides how the text after it is read. -/
namespace Mustache

open Markup

def Body.shift (offset : Nat) (body : Body) : Body := { body with span := body.span.shift offset }

/-- The body of a section, where everything stands further on. -/
def Section.shift (offset : Nat) (sec : Section) : Section :=
  { sec with
    span := sec.span.shift offset
    instrs := sec.instrs.map (Instr.respan (Span.shift offset)) }

/-- The same program with everything further on in another source. -/
def Program.shift (source : String) (offset : Nat) (program : Program) : Program :=
  { program with
    source
    instrs := program.instrs.map (Instr.respan (Span.shift offset))
    sections := program.sections.map fun entry => (entry.1, entry.2.shift offset)
    blocks := program.blocks.map fun entry => (entry.1, entry.2.map (Instr.respan (Span.shift offset))) }

namespace Compile

def State.shift (offset : Nat) (s : State) : State :=
  { s with
    sections := s.sections.map fun entry => (entry.1, entry.2.shift offset)
    blocks := s.blocks.map fun entry => (entry.1, entry.2.map (Instr.respan (Span.shift offset))) }

variable {source : String} {text : List Char} {offset : Nat} {s : State}

theorem State.skip_shift (tree : Node) (s : State) :
    (s.shift offset).skip (tree.shift offset) = (s.skip tree).shift offset := by
  have pragmas := Node.pragmasOf_shiftAll offset [tree]
  simp only [Node.shiftAll, Node.pragmasOf, List.append_nil] at pragmas
  simp only [skip, shift, pragmas]

/-- Trees are compiled to the same instructions further on, apart from the spans. -/
structure Moves (source : String) (text : List Char) (offset : Nat) (trees : List Node) (s : State) : Prop where
  instrs : (nodes source (Node.shiftAll offset trees)).run (s.shift offset) =
    Prod.map (List.map (Instr.respan (Span.shift offset))) (State.shift offset)
      ((nodes (.ofList text) trees).run s)
  given : (arguments source (Node.shiftAll offset trees)).run (s.shift offset) =
    Prod.map id (State.shift offset) ((arguments (.ofList text) trees).run s)

theorem Moves.cons {tree : Node} {rest : List Node}
    (first : (node source (tree.shift offset)).run (s.shift offset) =
      Prod.map (List.map (Instr.respan (Span.shift offset))) (State.shift offset)
        ((node (.ofList text) tree).run s))
    (given : (arguments source (Node.shiftAll offset (tree :: rest))).run (s.shift offset) =
      Prod.map id (State.shift offset) ((arguments (.ofList text) (tree :: rest)).run s))
    (later : ∀ s, Moves source text offset rest s) : Moves source text offset (tree :: rest) s where
  instrs := by
    have after := (later ((node (.ofList text) tree).run s).2).instrs
    rw [Node.shiftAll, run_nodes_cons, run_nodes_cons, first, Prod.map_snd, after]
    simp only [Prod.map_fst, Prod.map_snd, Prod.map_apply, List.map_append]
  given := given

theorem Moves.leaf {tree : Node} {rest : List Node}
    (first : (node source (tree.shift offset)).run (s.shift offset) =
      Prod.map (List.map (Instr.respan (Span.shift offset))) (State.shift offset)
        ((node (.ofList text) tree).run s))
    (skips : ∀ source (trees : List Node) (s : State),
      (arguments source (tree :: trees)).run s = (arguments source trees).run (s.skip tree))
    (skips' : ∀ source (trees : List Node) (s : State),
      (arguments source (tree.shift offset :: trees)).run s =
        (arguments source trees).run (s.skip (tree.shift offset)))
    (later : ∀ s, Moves source text offset rest s) : Moves source text offset (tree :: rest) s := by
  refine .cons first ?_ later
  rw [Node.shiftAll, skips', skips, State.skip_shift, (later _).given]

section

variable {body : Body} {inner : List Node}
  (slice : (body.span.shift offset).slice source = body.span.slice (.ofList text))

include slice

theorem key_shift_of_slice (set : Pragmas) : (body.shift offset).key source set = body.key (.ofList text) set := by
  unfold Body.key Body.identity
  rw [← slice]
  rfl

theorem State.addSection_shift (key : Key) (instrs : List Instr) (s : State) :
    (s.shift offset).addSection source (body.shift offset) key (instrs.map (Instr.respan (Span.shift offset))) =
      (s.addSection (.ofList text) body key instrs).shift offset := by
  have put := Entries.put_map (Section.shift offset) key
    ⟨body.span, body.span.slice (.ofList text), body.delims.changeTag?, body.delims.opening, instrs⟩ s.sections
  rw [← slice] at put
  unfold addSection
  rw [← slice]
  simp only [shift, ← put]
  rfl

omit slice in
theorem State.addBlock_shift (key : Key) (instrs : List Instr) (s : State) :
    (s.shift offset).addBlock key (instrs.map (Instr.respan (Span.shift offset))) =
      (s.addBlock key instrs).shift offset := by
  have put := Entries.put_map (List.map (Instr.respan (Span.shift offset))) key instrs s.blocks
  unfold addBlock
  simp only [shift, ← put]

theorem afterSection_shift (inside : Moves source text offset inner s) :
    afterSection source (body.shift offset) (Node.shiftAll offset inner) (s.shift offset) =
      (afterSection (.ofList text) body inner s).shift offset := by
  have held : Entries.has (body.key (.ofList text) s.pragmas) (s.shift offset).sections =
      Entries.has (body.key (.ofList text) s.pragmas) s.sections := Entries.has_map _ _ s.sections
  have pragmas : (s.shift offset).pragmas = s.pragmas := rfl
  unfold afterSection
  rw [pragmas, key_shift_of_slice slice, held, inside.instrs, Prod.map_fst, Prod.map_snd,
    State.addSection_shift slice, apply_ite (State.shift offset)]

theorem afterArgument_shift (inside : Moves source text offset inner s) :
    afterArgument source (body.shift offset) (Node.shiftAll offset inner) (s.shift offset) =
      (afterArgument (.ofList text) body inner s).shift offset := by
  have held : Entries.has (body.key (.ofList text) s.pragmas) (s.shift offset).blocks =
      Entries.has (body.key (.ofList text) s.pragmas) s.blocks := Entries.has_map _ _ s.blocks
  have pragmas : (s.shift offset).pragmas = s.pragmas := rfl
  unfold afterArgument
  rw [pragmas, key_shift_of_slice slice, held, inside.instrs, Prod.map_fst, Prod.map_snd,
    State.addBlock_shift, apply_ite (State.shift offset)]

end

section

variable {front back : List Char} (whole : source.toList = front ++ text ++ back)
  (start : offset = Text.byteSize front)

include whole start

theorem slice_between {role : Role} (shared : role.isShared = true) {opening closing : Token} {name : Name}
    {nodes rest : List Node} (fits : Fits text (.region role opening name nodes closing :: rest)) :
    ((Body.between opening closing).span.shift offset).slice source =
      (Body.between opening closing).span.slice (.ofList text) := by
  have member : ⟨role, default, opening, nodes, closing⟩ ∈ Node.bodiesOf (role = .argument) default
      (.region role opening name nodes closing :: rest) :=
    Node.mem_bodiesOf_region.2 (.inl ⟨by simp [Role.counts], .inr ⟨shared, rfl⟩⟩)
  obtain ⟨part, covers, -⟩ := fits.body member
  rw [start]
  exact covers.slice_shift whole

theorem moves (trees : List Node) (fits : Fits text trees) (s : State) : Moves source text offset trees s := by
  induction trees using Node.forest generalizing s with
  | nil => exact ⟨rfl, rfl⟩
  | literal t rest ih => exact .leaf rfl (fun _ _ _ => rfl) (fun _ _ _ => rfl) (ih fits.tail)
  | pragma t p rest ih => exact .leaf rfl (fun _ _ _ => rfl) (fun _ _ _ => rfl) (ih fits.tail)
  | interpolation t name rest ih =>
    refine .leaf ?_ (fun _ _ _ => rfl) (fun _ _ _ => rfl) (ih fits.tail)
    refine Prod.ext ?_ rfl
    refine Eq.trans ?_ (List.map_append ..).symm
    rw [resolved_respan]
    rfl
  | partialRef t rest ih => exact .leaf rfl (fun _ _ _ => rfl) (fun _ _ _ => rfl) (ih fits.tail)
  | region role opening name nodes closing rest inner ih =>
    have inside := inner fits.inside s
    have later := ih fits.tail
    have between : Body.between (opening.shift offset) (closing.shift offset) =
      (Body.between opening closing).shift offset := rfl
    cases role with
    | «repeated» =>
      refine .leaf ?_ (fun _ _ _ => rfl) (fun _ _ _ => rfl) later
      have slice := slice_between whole start rfl fits
      rw [Node.shift, run_repeated, run_repeated, between]
      dsimp only
      rw [afterSection_shift slice inside, key_shift_of_slice slice]
      simp only [Prod.map_apply, List.map_append, filtered_respan]
      rfl
    | inverted =>
      refine .leaf ?_ (fun _ _ _ => rfl) (fun _ _ _ => rfl) later
      have run (source : String) (opening closing : Token) (nodes : List Node) (s : State) :
          (node source (.region .inverted opening name nodes closing)).run s =
            (filtered s.pragmas opening.span name ++ .unlessEmpty ((Compile.nodes source nodes).run s).1.length ::
              ((Compile.nodes source nodes).run s).1, ((Compile.nodes source nodes).run s).2) := rfl
      rw [Node.shift, run, run, inside.instrs]
      simp only [Prod.map_apply, Prod.map_fst, Prod.map_snd, List.map_append, List.map_cons, List.length_map,
        filtered_respan]
      rfl
    | parent =>
      refine .leaf ?_ (fun _ _ _ => rfl) (fun _ _ _ => rfl) later
      have run (source : String) (opening closing : Token) (nodes : List Node) (s : State) :
          (node source (.region .parent opening name nodes closing)).run s =
            ([.parentCall name.path opening.indent ((arguments source nodes).run s).1],
              ((arguments source nodes).run s).2) := rfl
      rw [Node.shift, run, run, inside.given]
      rfl
    | slot =>
      refine .leaf ?_ (fun _ _ _ => rfl) (fun _ _ _ => rfl) later
      have run (source : String) (opening closing : Token) (nodes : List Node) (s : State) :
          (node source (.region .slot opening name nodes closing)).run s =
            (.slot name.path ((Compile.nodes source nodes).run s).1.length ::
              ((Compile.nodes source nodes).run s).1, ((Compile.nodes source nodes).run s).2) := rfl
      rw [Node.shift, run, run, inside.instrs]
      simp only [Prod.map_apply, Prod.map_fst, Prod.map_snd, List.map_cons, List.length_map]
      rfl
    | argument =>
      refine .cons rfl ?_ later
      have slice := slice_between whole start rfl fits
      rw [Node.shiftAll, Node.shift, run_argument, run_argument, between]
      dsimp only
      rw [afterArgument_shift slice inside, key_shift_of_slice slice, (later _).given]
      rfl

end

end Compile

theorem Program.ofNodes_shift {source text : String} {front : List Char}
    (whole : source.toList = front ++ text.toList) {tree : List Node} (fits : Fits text.toList tree)
    (dialect : Dialect) (key : Key) :
    ofNodes dialect key source (Node.shiftAll (Text.byteSize front) tree) =
      (ofNodes dialect key text tree).shift source (Text.byteSize front) := by
  have moved := (Compile.moves (whole.trans (List.append_nil _).symm) rfl tree fits
    (.initial dialect.pragmas)).instrs
  rw [String.ofList_toList] at moved
  have initial : (Compile.State.initial dialect.pragmas).shift (Text.byteSize front) =
    .initial dialect.pragmas := rfl
  rw [initial] at moved
  unfold ofNodes
  rw [moved]
  rfl

theorem Markup.fits_of_parseIn {d : Delimiters} {set : Pragmas} {source : String} {tree : List Node}
    (parsed : parseIn d set source = .ok tree) : Fits source.toList tree := by
  unfold parseIn tokenizeIn at parsed
  cases scanned : scanFrom ⟨d, set.blocks⟩ 0 source.toList with
  | error flaw =>
    rw [scanned] at parsed
    cases parsed
  | ok tokens =>
    rw [scanned] at parsed
    exact .of_scanned (scanned_of_scanFrom scanned) (thinned_tidy tokens) (nests_of_nest parsed)

namespace Delimiters

/-- What stands before a text that is to be read with these delimiters in force: nothing, if they
are in force anyway. -/
def lead (d : Delimiters) : String := if d = default then "" else .ofList d.changeLine

theorem parse_lead (d : Delimiters) (set : Pragmas) (text : String) :
    parse set (d.lead ++ text) =
      moved (Text.byteSize d.lead.toList) (Node.shiftAll (Text.byteSize d.lead.toList)) (parseIn d set text) := by
  unfold lead
  split
  · rename_i same
    subst same
    have plain : parseIn default set text = parse set text := rfl
    have unmoved : moved 0 (Node.shiftAll 0) (parse set text) = parse set text := by
      cases parse set text with
      | error flaw => rfl
      | ok tree => exact congrArg Except.ok (Node.shiftAll_zero tree)
    rw [String.empty_append, plain]
    exact unmoved.symm
  · rw [String.toList_ofList]
    exact parse_changeLine d set text

theorem compile_lead (d : Delimiters) (dialect : Dialect) (key : Key) (text : String) :
    Program.compile dialect key (d.lead ++ text) =
      match parseIn d dialect.pragmas text with
      | .ok tree => .ok ((Program.ofNodes dialect key text tree).shift (d.lead ++ text) (Text.byteSize d.lead.toList))
      | .error flaw =>
        .error (.locatedAt flaw.cause (d.lead ++ text) (flaw.span.shift (Text.byteSize d.lead.toList))) := by
  rw [Program.compile, parse_lead]
  cases parsed : parseIn d dialect.pragmas text with
  | error flaw => rfl
  | ok tree =>
    have whole : (d.lead ++ text).toList = d.lead.toList ++ text.toList := String.toList_append
    exact congrArg Except.ok (Program.ofNodes_shift whole (fits_of_parseIn parsed) dialect key)

theorem fetchLambda_eq (e : Engine) (d : Delimiters) (text : String) :
    e.fetchLambda d.changeTag? text = e.fetch .lambda (d.lead ++ text) := by
  unfold Engine.fetchLambda changeTag? lead
  by_cases same : d = default
  · rw [if_pos same, if_pos same, String.empty_append]
  · rw [if_neg same, if_neg same, changeLine, String.ofList_append]

/-- A text behind the tag for some delimiters and a line feed is read as by itself with those delimiters
in force, flaws included: the line adds the token of its tag and moves the spans. What a lambda has
rendered is compiled likewise, to the instructions and bodies of the text alone. -/
theorem read_behind_changeTag (d : Delimiters) (set : Pragmas) (text : String) :
    (tokenize set (.ofList d.changeTag ++ "\n" ++ text) =
      match tokenizeIn d set text with
      | .ok tokens => .ok (changeToken d :: tokens.map (Token.shift (Text.byteSize d.changeTag + 1)))
      | .error flaw => .error (flaw.shift (Text.byteSize d.changeTag + 1))) ∧
    ∀ (e : Engine) (key : Key),
      e.fetchLambda d.changeTag? text = e.fetch .lambda (d.lead ++ text) ∧
      Program.compile e.dialect key (d.lead ++ text) =
        match parseIn d e.dialect.pragmas text with
        | .ok tree =>
          .ok ((Program.ofNodes e.dialect key text tree).shift (d.lead ++ text) (Text.byteSize d.lead.toList))
        | .error flaw =>
          .error (.locatedAt flaw.cause (d.lead ++ text) (flaw.span.shift (Text.byteSize d.lead.toList))) := by
  refine ⟨?_, fun e key => ⟨d.fetchLambda_eq e text, d.compile_lead e.dialect key text⟩⟩
  have source : String.ofList d.changeTag ++ "\n" = .ofList d.changeLine := String.ofList_append.symm
  rw [source, tokenize_changeLine, d.offset_eq]
  cases tokenizeIn d set text <;> rfl

end Delimiters
end Mustache
