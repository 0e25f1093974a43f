import Mustache.Proofs.Program.Deduplication
import Mustache.Proofs.Program.Trails

/-! What each instruction of a compiled template comes from: a tag, or a region of its tree. A trail
through the program is so a way through the tree, and what is at its end is what is being executed. -/
namespace Mustache

open Markup

def Occurrence.tokens (o : Occurrence) : List Token :=
  o.opening :: Node.tokensOf o.nodes ++ [o.closing]

theorem Occurrence.nodes_sublist_tokens (o : Occurrence) : (Node.tokensOf o.nodes).Sublist o.tokens :=
  ((List.Sublist.refl _).cons _).trans (List.sublist_append_left _ _)

/-- What an instruction comes from. -/
inductive Bearer
  | tag (t : Token)
  | region (o : Occurrence)

namespace Bearer

def token : Bearer → Token
  | tag t => t
  | region o => o.opening

def tokens : Bearer → List Token
  | tag t => [t]
  | region o => o.tokens

def region? : Bearer → Option Occurrence
  | tag _ => none
  | region o => some o

theorem token_mem (bearer : Bearer) : bearer.token ∈ bearer.tokens := by
  cases bearer with
  | tag t => exact List.mem_singleton_self t
  | region o => exact List.mem_append_left _ List.mem_cons_self

end Bearer

/-- Whether what is in a region is compiled in its place, with an instruction before it that may skip it. -/
def Markup.Role.isInline : Role → Bool
  | inverted | slot => true
  | «repeated» | parent | argument => false

structure Sourced where
  instr : Instr
  bearer : Bearer

def Bearer.bears (bearer : Bearer) (instrs : List Instr) : List Sourced := instrs.map (⟨·, bearer⟩)

theorem Bearer.map_instr_bears (bearer : Bearer) (instrs : List Instr) :
    (bearer.bears instrs).map (·.instr) = instrs := by
  rw [bears, List.map_map]
  exact List.map_id _

theorem Bearer.mem_bears {bearer : Bearer} {instrs : List Instr} {line : Sourced} :
    line ∈ bearer.bears instrs ↔ line.instr ∈ instrs ∧ line.bearer = bearer := by
  unfold bears
  rw [List.mem_map]
  constructor
  · rintro ⟨instr, member, rfl⟩
    exact ⟨member, rfl⟩
  · rintro ⟨member, rfl⟩
    exact ⟨line.instr, member, rfl⟩

namespace Compile

/-- The instructions of a region that come from its own tags. -/
def ownOf (source : String) (o : Occurrence) (name : Name) : List Instr :=
  match o.role with
  | .inverted => filtered o.pragmas o.opening.span name ++ [.unlessEmpty (o.instrs source).length]
  | .slot => [.slot name.path (o.instrs source).length]
  | role => plain source o.pragmas (.region role o.opening name o.nodes o.closing)

mutual

/-- The instructions of a tree, each with what it comes from. -/
def sourced (source : String) (set : Pragmas) : Node → List Sourced
  | .literal t => (Bearer.tag t).bears (plain source set (.literal t))
  | .pragma _ _ => []
  | .variable t name => (Bearer.tag t).bears (plain source set (.variable t name))
  | .partialRef t => (Bearer.tag t).bears (plain source set (.partialRef t))
  | .region role opening name nodes closing =>
    (Bearer.region ⟨role, set, opening, nodes, closing⟩).bears
        (ownOf source ⟨role, set, opening, nodes, closing⟩ name) ++
      if role.isInline then sourcedOf source set nodes else []
  termination_by structural node => node

def sourcedOf (source : String) (set : Pragmas) : List Node → List Sourced
  | [] => []
  | node :: rest => sourced source set node ++ sourcedOf source (set.insertAll node.pragmas) rest
  termination_by structural nodes => nodes

end

theorem plain_region (source : String) (set : Pragmas) (role : Role) (opening closing : Token) (name : Name)
    (nodes : List Node) : plain source set (.region role opening name nodes closing) =
      ownOf source ⟨role, set, opening, nodes, closing⟩ name ++
        if role.isInline then plainOf source set nodes else [] := by
  cases role with
  | inverted =>
    show filtered set opening.span name ++ _ :: _ = (filtered set opening.span name ++ [_]) ++ _
    rw [List.append_assoc]
    rfl
  | slot => rfl
  | «repeated» | parent | argument => exact (List.append_nil _).symm

theorem map_instr_sourcedOf (source : String) (set : Pragmas) (nodes : List Node) :
    (sourcedOf source set nodes).map (·.instr) = plainOf source set nodes := by
  induction nodes using Node.forest generalizing set with
  | nil => rfl
  | literal t rest ih => rw [sourcedOf, plainOf, List.map_append, ih, sourced, Bearer.map_instr_bears]
  | pragma t p rest ih => exact ih _
  | interpolation t name rest ih => rw [sourcedOf, plainOf, List.map_append, ih, sourced, Bearer.map_instr_bears]
  | partialRef t rest ih => rw [sourcedOf, plainOf, List.map_append, ih, sourced, Bearer.map_instr_bears]
  | region role opening name nodes closing rest inner ih =>
    rw [sourcedOf, plainOf, List.map_append, ih, sourced, plain_region, List.map_append,
      Bearer.map_instr_bears]
    cases role.isInline with
    | true => rw [if_pos rfl, if_pos rfl, inner]
    | false => rfl

end Compile

/-- What an instruction comes from is in the tree, and the instruction points and refers to it. -/
structure Sourced.Fits (source : String) (set : Pragmas) (nodes : List Node) (line : Sourced) : Prop where
  tokens : line.bearer.tokens.Sublist (Node.tokensOf nodes)
  span : ∀ span, line.instr.span? = some span → line.bearer.token.span = span
  body : ∀ key, line.instr = .repeated key → ∃ o ∈ Node.bodiesOf false set nodes,
    line.bearer = .region o ∧ o.role = .repeated ∧ o.key source = key
  given : ∀ target indent given, line.instr = .parentCall target indent given →
    ∃ p, line.bearer = .region p ∧
      given = (Node.argumentsOf p.pragmas p.nodes).map (fun entry => (entry.1, entry.2.key source)) ∧
      ∀ o ∈ Node.bodiesOf true p.pragmas p.nodes, o ∈ Node.bodiesOf false set nodes

namespace Sourced.Fits

variable {source : String} {set : Pragmas} {nodes : List Node} {line : Sourced}

theorem mono (fits : line.Fits source set nodes) {set' : Pragmas} {nodes' : List Node}
    (tokens : (Node.tokensOf nodes).Sublist (Node.tokensOf nodes'))
    (bodies : ∀ o ∈ Node.bodiesOf false set nodes, o ∈ Node.bodiesOf false set' nodes') :
    line.Fits source set' nodes' where
  tokens := fits.tokens.trans tokens
  span := fits.span
  body := by
    intro key same
    obtain ⟨o, member, bears⟩ := fits.body key same
    exact ⟨o, bodies o member, bears⟩
  given := by
    intro target indent given same
    obtain ⟨p, bears, arguments, inner⟩ := fits.given target indent given same
    exact ⟨p, bears, arguments, fun o member => bodies o (inner o member)⟩

theorem tail {node : Node} (fits : line.Fits source (set.insertAll node.pragmas) nodes) :
    line.Fits source set (node :: nodes) :=
  fits.mono (List.sublist_append_right _ _) fun _ => List.mem_append_right _

/-- An instruction that points at its tag. -/
theorem of_span (tokens : line.bearer.tokens.Sublist (Node.tokensOf nodes))
    (points : line.instr.span? = some line.bearer.token.span) : line.Fits source set nodes where
  tokens := tokens
  span := by
    intro span same
    rw [points] at same
    exact Option.some.inj same
  body := by
    intro key same
    rw [same] at points
    cases points
  given := by
    intro target indent given same
    rw [same] at points
    cases points

end Sourced.Fits

namespace Compile

theorem span?_of_mem_filtered {set : Pragmas} {span : Span} {name : Name} {instr : Instr}
    (member : instr ∈ filtered set span name) : instr.span? = some span := by
  rcases List.mem_cons.1 member with rfl | later
  · rfl
  · obtain ⟨filter, -, rfl⟩ := List.mem_map.1 later
    rfl

theorem span?_of_mem_resolved {set : Pragmas} {span : Span} {name : Name} {instr : Instr}
    (member : instr ∈ resolved set span name) : instr.span? = some span := by
  rcases List.mem_cons.1 member with rfl | later
  · rfl
  · rcases List.mem_cons.1 later with rfl | later
    · rfl
    · obtain ⟨filter, -, rfl⟩ := List.mem_map.1 later
      rfl

theorem fits_of_mem_ownOf {source : String} {set : Pragmas} {role : Role} {opening closing : Token} {name : Name}
    {nodes rest : List Node} {instr : Instr}
    (member : instr ∈ ownOf source ⟨role, set, opening, nodes, closing⟩ name) :
    Sourced.Fits source set (.region role opening name nodes closing :: rest)
      ⟨instr, .region ⟨role, set, opening, nodes, closing⟩⟩ := by
  have tokens : (opening :: Node.tokensOf nodes ++ [closing]).Sublist
      (Node.tokensOf (.region role opening name nodes closing :: rest)) := List.sublist_append_left _ _
  have named {set' : Pragmas} (there : instr ∈ filtered set' opening.span name) :
      Sourced.Fits source set (.region role opening name nodes closing :: rest)
        ⟨instr, .region ⟨role, set, opening, nodes, closing⟩⟩ :=
    .of_span tokens (span?_of_mem_filtered there)
  cases role with
  | «repeated» =>
    rcases List.mem_append.1 member with there | last
    · exact named there
    · cases List.mem_singleton.1 last
      refine ⟨tokens, by rintro span ⟨⟩, ?_, by rintro target indent given ⟨⟩⟩
      rintro key ⟨⟩
      exact ⟨_, Node.mem_bodiesOf_region.2 (.inl ⟨rfl, .inr ⟨rfl, rfl⟩⟩), rfl, rfl, rfl⟩
  | inverted =>
    rcases List.mem_append.1 member with there | last
    · exact named there
    · cases List.mem_singleton.1 last
      exact ⟨tokens, by rintro span ⟨⟩, by rintro key ⟨⟩, by rintro target indent given ⟨⟩⟩
  | parent =>
    cases List.mem_singleton.1 member
    refine ⟨tokens, by rintro span ⟨⟩, by rintro key ⟨⟩, ?_⟩
    rintro target indent given ⟨⟩
    refine ⟨_, rfl, rfl, fun o inner => ?_⟩
    exact Node.mem_bodiesOf_region.2 (.inl ⟨rfl, .inl inner⟩)
  | slot | argument =>
    cases List.mem_singleton.1 member
    exact ⟨tokens, by rintro span ⟨⟩, by rintro key ⟨⟩, by rintro target indent given ⟨⟩⟩

theorem fits_of_mem_sourcedOf {source : String} {set : Pragmas} {nodes : List Node} {line : Sourced}
    (member : line ∈ sourcedOf source set nodes) : line.Fits source set nodes := by
  induction nodes using Node.forest generalizing set with
  | nil => cases member
  | literal t rest ih =>
    rcases List.mem_append.1 member with here | later
    · obtain ⟨own, bears⟩ := Bearer.mem_bears.1 here
      obtain ⟨instr, bearer⟩ := line
      cases bears
      cases List.mem_singleton.1 own
      refine ⟨?_, by rintro span ⟨⟩, by rintro key ⟨⟩, by rintro target indent given ⟨⟩⟩
      exact List.sublist_append_left _ _
    · exact (ih later).tail
  | pragma t p rest ih => exact (ih member).tail
  | interpolation t name rest ih =>
    rcases List.mem_append.1 member with here | later
    · obtain ⟨own, bears⟩ := Bearer.mem_bears.1 here
      obtain ⟨instr, bearer⟩ := line
      cases bears
      refine .of_span (List.sublist_append_left _ _) ?_
      rcases List.mem_append.1 own with named | last
      · exact span?_of_mem_resolved named
      · cases List.mem_singleton.1 last
        rfl
    · exact (ih later).tail
  | partialRef t rest ih =>
    rcases List.mem_append.1 member with here | later
    · obtain ⟨own, bears⟩ := Bearer.mem_bears.1 here
      obtain ⟨instr, bearer⟩ := line
      cases bears
      cases List.mem_singleton.1 own
      refine ⟨?_, by rintro span ⟨⟩, by rintro key ⟨⟩, by rintro target indent given ⟨⟩⟩
      exact List.sublist_append_left _ _
    · exact (ih later).tail
  | region role opening name nodes closing rest inner ih =>
    rcases List.mem_append.1 member with here | later
    · rcases List.mem_append.1 here with own | deep
      · obtain ⟨own, bears⟩ := Bearer.mem_bears.1 own
        obtain ⟨instr, bearer⟩ := line
        cases bears
        exact fits_of_mem_ownOf own
      · split at deep
        · rename_i inPlace
          have around := Occurrence.nodes_sublist_tokens ⟨role, set, opening, nodes, closing⟩
          refine (inner deep).mono (around.trans (List.sublist_append_left _ _)) fun o there => ?_
          cases role with
          | inverted | slot => exact Node.mem_bodiesOf_region.2 (.inl ⟨rfl, .inl there⟩)
          | «repeated» | parent | argument => cases inPlace
        · cases deep
    · exact (ih later).tail

end Compile

/-- What may be skipped comes from within the region of the instruction that may skip it. -/
def Sourced.Passing (lines : List Sourced) : Prop :=
  ∀ (first number size : Nat) (line : Sourced), lines[first]? = some line → line.instr.passage? = some size →
    first < number → number ≤ first + size → ∃ o, line.bearer = .region o ∧
      ∃ inner, lines[number]? = some inner ∧ inner.bearer.tokens.Sublist (Node.tokensOf o.nodes)

namespace Sourced.Passing

variable {lines more : List Sourced}

theorem of_none (none : ∀ line ∈ lines, line.instr.passage? = none) : Passing lines := by
  intro first number size line here given
  rw [none line (List.mem_of_getElem? here)] at given
  cases given

theorem append (front : Passing lines) (back : Passing more) : Passing (lines ++ more) := by
  intro first number size line here given after before
  by_cases early : first < lines.length
  · rw [List.getElem?_append_left early] at here
    obtain ⟨o, bears, inner, there, tokens⟩ := front first number size line here given after before
    obtain ⟨bound, -⟩ := List.getElem?_eq_some_iff.1 there
    exact ⟨o, bears, inner, by rw [List.getElem?_append_left bound, there], tokens⟩
  · rw [List.getElem?_append_right (Nat.le_of_not_lt early)] at here
    obtain ⟨o, bears, inner, there, tokens⟩ :=
      back (first - lines.length) (number - lines.length) size line here given (by omega) (by omega)
    exact ⟨o, bears, inner, by rw [List.getElem?_append_right (by omega), there], tokens⟩

theorem cons {instr : Instr} {o : Occurrence} (back : Passing more) (size : instr.passage? = some more.length)
    (within : ∀ line ∈ more, line.bearer.tokens.Sublist (Node.tokensOf o.nodes)) :
    Passing (⟨instr, .region o⟩ :: more) := by
  intro first number size' line here given after before
  cases first with
  | zero =>
    cases here
    rw [size] at given
    cases given
    obtain ⟨n, rfl⟩ : ∃ n, number = n + 1 := ⟨number - 1, by omega⟩
    have bound : n < more.length := by omega
    exact ⟨o, rfl, more[n], List.getElem?_eq_getElem bound, within _ (List.getElem_mem bound)⟩
  | succ first =>
    obtain ⟨n, rfl⟩ : ∃ n, number = n + 1 := ⟨number - 1, by omega⟩
    exact back first n size' line here given (by omega) (by omega)

end Sourced.Passing

namespace Compile

theorem passing_bears {bearer : Bearer} {instrs : List Instr} (none : ∀ instr ∈ instrs, instr.passage? = none) :
    Sourced.Passing (bearer.bears instrs) :=
  .of_none fun line member => none line.instr (Bearer.mem_bears.1 member).1

theorem passage?_of_span? {instr : Instr} {span : Span} (points : instr.span? = some span) :
    instr.passage? = none := by
  cases instr <;> first
    | rfl
    | cases points

theorem passing_sourcedOf (source : String) (set : Pragmas) (nodes : List Node) :
    Sourced.Passing (sourcedOf source set nodes) := by
  induction nodes using Node.forest generalizing set with
  | nil => exact .of_none fun line member => by cases member
  | literal t rest ih => exact (passing_bears (by simp [plain, Instr.passage?])).append (ih _)
  | pragma t p rest ih => exact ih _
  | interpolation t name rest ih =>
    refine (passing_bears fun instr member => ?_).append (ih _)
    rcases List.mem_append.1 member with named | last
    · exact passage?_of_span? (span?_of_mem_resolved named)
    · cases List.mem_singleton.1 last
      rfl
  | partialRef t rest ih => exact (passing_bears (by simp [plain, Instr.passage?])).append (ih _)
  | region role opening name nodes closing rest inner ih =>
    refine .append ?_ (ih _)
    have named {set : Pragmas} {instr : Instr} (member : instr ∈ filtered set opening.span name) :
        instr.passage? = none := passage?_of_span? (span?_of_mem_filtered member)
    have size : (plainOf source set nodes).length = (sourcedOf source set nodes).length := by
      rw [← map_instr_sourcedOf, List.length_map]
    have within (line : Sourced) (member : line ∈ sourcedOf source set nodes) :=
      (fits_of_mem_sourcedOf member).tokens
    cases role with
    | inverted =>
      let o : Occurrence := ⟨.inverted, set, opening, nodes, closing⟩
      have split : sourced source set (.region .inverted opening name nodes closing) =
          (Bearer.region o).bears (filtered set opening.span name) ++
            ⟨.unlessEmpty (plainOf source set nodes).length, .region o⟩ :: sourcedOf source set nodes := by
        show List.map _ (filtered set opening.span name ++ [_]) ++ _ = _
        rw [List.map_append, List.append_assoc]
        rfl
      rw [split]
      exact (passing_bears fun instr => named).append ((inner set).cons (congrArg some size) within)
    | slot => exact (inner set).cons (congrArg some size) within
    | «repeated» =>
      refine (passing_bears fun instr member => ?_).append (.of_none fun line member => by cases member)
      rcases List.mem_append.1 member with there | last
      · exact named there
      · cases List.mem_singleton.1 last
        rfl
    | parent | argument =>
      refine (passing_bears fun instr member => ?_).append (.of_none fun line member => by cases member)
      cases List.mem_singleton.1 member
      rfl

end Compile

/-! ### Ways through a tree -/

/-- What is being rendered at the end of a trail: the innermost section or block argument, if there is one,
and all regions around what is rendered there that are on the way, the innermost first. -/
structure Scene where
  part : Option Occurrence
  regions : List Occurrence

namespace Scene

def nodes (tree : List Node) (scene : Scene) : List Node := scene.part.elim tree (·.nodes)

def pragmas (set : Pragmas) (scene : Scene) : Pragmas := scene.part.elim set (·.pragmas)

def lines (source : String) (set : Pragmas) (tree : List Node) (scene : Scene) : List Sourced :=
  Compile.sourcedOf source (scene.pragmas set) (scene.nodes tree)

end Scene

/-- The inverted sections and blocks that have been entered around a spot. -/
def Spot.regions (spot : Spot) (lines : List Sourced) : List Occurrence :=
  spot.around.filterMap fun passage => lines[passage.opening]?.bind (·.bearer.region?)

section

variable (source : String) (set : Pragmas) (tree : List Node)

/-- The scene at the end of a trail, if there is such a way through the tree. -/
def Trail.scene? : Trail → Option Scene
  | whole => some ⟨none, []⟩
  | body outer spot => do
    let scene ← outer.scene?
    let lines := scene.lines source set tree
    let line ← lines[spot.number]?
    let o ← line.bearer.region?
    pure ⟨some o, o :: (spot.regions lines ++ scene.regions)⟩
  | argument outer spot name => do
    let scene ← outer.scene?
    let lines := scene.lines source set tree
    let line ← lines[spot.number]?
    let parent ← line.bearer.region?
    let entry ← (Node.argumentsOf parent.pragmas parent.nodes).reverse.find? fun entry => entry.1 = name
    pure ⟨some entry.2, entry.2 :: (spot.regions lines ++ scene.regions)⟩

/-- What is being executed: a tag, or the body of a section for its lambda. -/
structure Execution extends Scene where
  own : Span

def Instr.isRepeated : Instr → Bool
  | «repeated» _ => true
  | _ => false

/-- The section that an instruction renders. -/
def Sourced.body? (line : Sourced) : Option Occurrence :=
  if line.instr.isRepeated then line.bearer.region? else none

def Sourced.execution (line : Sourced) (scene : Scene) (around : List Occurrence) : Execution :=
  line.body?.elim ⟨⟨scene.part, around⟩, line.bearer.token.span⟩ fun o => ⟨⟨some o, o :: around⟩, o.body.span⟩

/-- What is being executed at a standing, with all regions in progress around it. -/
def Standing.execution? (standing : Standing) : Option Execution := do
  let scene ← standing.trail.scene? source set tree
  let lines := scene.lines source set tree
  let line ← lines[standing.spot.number]?
  pure (line.execution scene (standing.spot.regions lines ++ scene.regions))

end

section

variable {source : String} {set : Pragmas} {tree : List Node} {scene : Scene} {line : Sourced}

theorem Trail.scene?_body {outer : Trail} {spot : Spot} {o : Occurrence}
    (there : outer.scene? source set tree = some scene)
    (placed : (scene.lines source set tree)[spot.number]? = some line) (bears : line.bearer = .region o) :
    (body outer spot).scene? source set tree =
      some ⟨some o, o :: (spot.regions (scene.lines source set tree) ++ scene.regions)⟩ := by
  rw [scene?, there, Option.bind_eq_bind, Option.bind_some]
  dsimp only
  rw [placed, Option.bind_eq_bind, Option.bind_some, bears]
  rfl

theorem Trail.scene?_argument {outer : Trail} {spot : Spot} {name : String} {parent : Occurrence}
    {entry : String × Occurrence} (there : outer.scene? source set tree = some scene)
    (placed : (scene.lines source set tree)[spot.number]? = some line) (bears : line.bearer = .region parent)
    (last : (Node.argumentsOf parent.pragmas parent.nodes).reverse.find? (fun entry => entry.1 = name) =
      some entry) :
    (argument outer spot name).scene? source set tree =
      some ⟨some entry.2, entry.2 :: (spot.regions (scene.lines source set tree) ++ scene.regions)⟩ := by
  rw [scene?, there, Option.bind_eq_bind, Option.bind_some]
  dsimp only
  rw [placed, Option.bind_eq_bind, Option.bind_some, bears]
  show (List.find? _ _).bind _ = _
  rw [last]
  rfl

theorem Standing.execution?_eq {standing : Standing}
    (there : standing.trail.scene? source set tree = some scene)
    (placed : (scene.lines source set tree)[standing.spot.number]? = some line) :
    standing.execution? source set tree = some (line.execution scene
      (standing.spot.regions (scene.lines source set tree) ++ scene.regions)) := by
  rw [Standing.execution?, there, Option.bind_eq_bind, Option.bind_some]
  dsimp only
  rw [placed]
  rfl

end

@[simp] theorem Instr.passage?_respan (place : Span → Span) (instr : Instr) :
    (instr.respan place).passage? = instr.passage? := by
  cases instr <;> rfl

@[simp] theorem Instr.span?_respan (place : Span → Span) (instr : Instr) :
    (instr.respan place).span? = instr.span?.map place := by
  cases instr <;> rfl

/-- What is found for a key in the tables of a program is compiled from the first body with the key. -/
def Occurrence.first? (source : String) (bodies : List Occurrence) (role : Role) (key : Key) : Option Occurrence :=
  bodies.find? fun o => o.role = role ∧ o.key source = key

theorem Occurrence.of_first? {source : String} {bodies : List Occurrence} {role : Role} {key : Key}
    {first : Occurrence} (leading : first? source bodies role key = some first) :
    first ∈ bodies ∧ first.role = role ∧ first.key source = key := by
  have matched := List.find?_some (p := fun o : Occurrence => decide (o.role = role ∧ o.key source = key)) leading
  exact ⟨List.mem_of_find?_eq_some leading, of_decide_eq_true matched⟩

/-- A scene in which the instructions of a program are run, that read as those of the scene's own part but
point to what stands in their place in the first part with the same key. -/
structure Scene.Runs (source : String) (set : Pragmas) (tree : List Node) (scene : Scene)
    (instrs : List Instr) (place : Span → Span) : Prop where
  lines : (scene.lines source set tree).map (·.instr) = instrs.map (Instr.respan place)
  whole : scene.part = none → place = id
  part : ∀ o, scene.part = some o → o ∈ Node.bodiesOf false set tree ∧ o ∈ scene.regions ∧
    ∃ first, Occurrence.first? source (Node.bodiesOf false set tree) o.role (o.key source) = some first ∧
      instrs = first.instrs source ∧ place = Span.move first.body.span.start o.body.span.start
  around : ∀ o ∈ scene.regions, o.tokens.Sublist (Node.tokensOf tree) ∧
    (Node.tokensOf (scene.nodes tree)).Sublist (Node.tokensOf o.nodes)

namespace Program.Told

variable {dialect : Dialect} {source : String} {tree : List Node} {program : Program}
  (told : program.Told dialect source tree) {key : Key}

include told

theorem first_of_section {sec : Section} (held : Entries.get? key program.sections = some sec) :
    ∃ first, Occurrence.first? source (Node.bodiesOf false dialect.pragmas tree) .repeated key = some first ∧
      sec = first.toSection source := by
  rw [told.sections, Compile.sectionOf?, Compile.findSome?_eq_find?, Option.map_eq_some_iff] at held
  obtain ⟨first, found, same⟩ := held
  exact ⟨first, found, same.symm⟩

theorem first_of_block {instrs : List Instr} (held : Entries.get? key program.blocks = some instrs) :
    ∃ first, Occurrence.first? source (Node.bodiesOf false dialect.pragmas tree) .argument key = some first ∧
      instrs = first.instrs source := by
  rw [told.blocks, Compile.blockOf?, Compile.findSome?_eq_find?, Option.map_eq_some_iff] at held
  obtain ⟨first, found, same⟩ := held
  exact ⟨first, found, same.symm⟩

end Program.Told

namespace Scene.Runs

variable {source : String} {set : Pragmas} {tree : List Node} {scene : Scene} {instrs : List Instr}
  {place : Span → Span}

theorem line (runs : scene.Runs source set tree instrs place) {number : Nat} {instr : Instr}
    (here : instrs[number]? = some instr) :
    ∃ line, (scene.lines source set tree)[number]? = some line ∧ line.instr = instr.respan place := by
  have same := congrArg (·[number]?) runs.lines
  rw [List.getElem?_map, List.getElem?_map, here] at same
  exact Option.map_eq_some_iff.1 same

theorem bodies (runs : scene.Runs source set tree instrs place) {o : Occurrence}
    (member : o ∈ Node.bodiesOf false (scene.pragmas set) (scene.nodes tree)) :
    o ∈ Node.bodiesOf false set tree := by
  unfold pragmas nodes at member
  cases part : scene.part with
  | none =>
    rw [part] at member
    exact member
  | some outer =>
    rw [part] at member
    exact Node.mem_bodiesOf_trans (runs.part outer part).1 member

theorem tokens (runs : scene.Runs source set tree instrs place) :
    (Node.tokensOf (scene.nodes tree)).Sublist (Node.tokensOf tree) := by
  unfold nodes
  cases part : scene.part with
  | none => exact List.Sublist.refl _
  | some outer =>
    exact outer.nodes_sublist_tokens.trans (Node.tokensOf_sublist_of_mem (runs.part outer part).1)

/-- All regions around a spot have in them what its instruction comes from. -/
theorem regions (runs : scene.Runs source set tree instrs place) {spot : Spot} (within : spot.Within instrs)
    {line : Sourced} (here : (scene.lines source set tree)[spot.number]? = some line) :
    ∀ o ∈ spot.regions (scene.lines source set tree) ++ scene.regions,
      o.tokens.Sublist (Node.tokensOf tree) ∧ line.bearer.tokens.Sublist (Node.tokensOf o.nodes) := by
  intro o member
  rcases List.mem_append.1 member with entered | outer
  · obtain ⟨passage, around, found⟩ := List.mem_filterMap.1 entered
    obtain ⟨after, before, instr, size, opens, given, last⟩ := within passage around
    obtain ⟨opening, there, same⟩ := runs.line opens
    have given : opening.instr.passage? = some size := by rw [same, Instr.passage?_respan, given]
    obtain ⟨region, bears, inner, here', tokens⟩ := Compile.passing_sourcedOf source _ _ passage.opening
      spot.number size opening there given after (last ▸ before)
    rw [there] at found
    have found : opening.bearer.region? = some o := found
    rw [bears] at found
    cases found
    cases here.symm.trans here'
    have fits := Compile.fits_of_mem_sourcedOf (List.mem_of_getElem? there)
    have own := fits.tokens
    rw [bears] at own
    exact ⟨own.trans runs.tokens, tokens⟩
  · obtain ⟨own, inside⟩ := runs.around o outer
    have fits := Compile.fits_of_mem_sourcedOf (List.mem_of_getElem? here)
    exact ⟨own, fits.tokens.trans inside⟩

/-- A part that is entered runs as the first with its key. -/
theorem enter (parsed : parse set source = .ok tree)
    (distinct : Hash.Distinct (Node.identities source set tree)) {o first : Occurrence}
    (member : o ∈ Node.bodiesOf false set tree)
    (leading : Occurrence.first? source (Node.bodiesOf false set tree) o.role (o.key source) = some first)
    {regions : List Occurrence} (around : ∀ region ∈ regions, region.tokens.Sublist (Node.tokensOf tree) ∧
      o.tokens.Sublist (Node.tokensOf region.nodes)) :
    Scene.Runs source set tree ⟨some o, o :: regions⟩ (first.instrs source)
      (Span.move first.body.span.start o.body.span.start) where
  lines := by
    obtain ⟨there, -, same⟩ := Occurrence.of_first? leading
    rw [← Compile.instrs_of_key_eq parsed distinct there member same]
    exact Compile.map_instr_sourcedOf source o.pragmas o.nodes
  whole := by rintro ⟨⟩
  part := by
    rintro o ⟨⟩
    exact ⟨member, List.mem_cons_self, first, leading, rfl, rfl⟩
  around := by
    intro region among
    rcases List.mem_cons.1 among with rfl | outer
    · exact ⟨Node.tokensOf_sublist_of_mem member, List.Sublist.refl _⟩
    · exact ⟨(around region outer).1, o.nodes_sublist_tokens.trans (around region outer).2⟩

end Scene.Runs

namespace Program

variable {dialect : Dialect} {source : String} {tree : List Node} {program : Program}

/-- The instructions to which a trail leads are run in the scene at its end. -/
theorem Leads.exists_scene (told : program.Told dialect source tree)
    (parsed : parse dialect.pragmas source = .ok tree)
    (distinct : Hash.Distinct (Node.identities source dialect.pragmas tree)) {trail : Trail}
    {instrs : List Instr} (leads : program.Leads trail instrs) :
    ∃ scene place, trail.scene? source dialect.pragmas tree = some scene ∧
      scene.Runs source dialect.pragmas tree instrs place := by
  induction leads with
  | whole =>
    refine ⟨⟨none, []⟩, id, rfl, ?_, fun _ => rfl, by rintro o ⟨⟩, by rintro o ⟨⟩⟩
    have same : Instr.respan id = id := by
      funext instr
      cases instr <;> rfl
    rw [same, List.map_id, told.instrs]
    exact Compile.map_instr_sourcedOf source dialect.pragmas tree
  | body outer instrs spot key sec before within here held ih =>
    obtain ⟨scene, place, there, runs⟩ := ih
    obtain ⟨line, placed, same⟩ := runs.line here
    have fits := Compile.fits_of_mem_sourcedOf (List.mem_of_getElem? placed)
    obtain ⟨o, member, bears, role, keyed⟩ := fits.body key same
    obtain ⟨first, leading, rfl⟩ := told.first_of_section held
    have around := runs.regions within placed
    rw [bears] at around
    rw [← role, ← keyed] at leading
    exact ⟨_, _, Trail.scene?_body there placed bears,
      .enter parsed distinct (runs.bodies member) leading around⟩
  | argument outer instrs spot name target indent given entry inner before within here last held ih =>
    obtain ⟨scene, place, there, runs⟩ := ih
    obtain ⟨line, placed, same⟩ := runs.line here
    have fits := Compile.fits_of_mem_sourcedOf (List.mem_of_getElem? placed)
    obtain ⟨parent, bears, rfl, bodies⟩ := fits.given target indent given same
    rw [← List.map_reverse, List.find?_map] at last
    obtain ⟨argument, found, rfl⟩ := Option.map_eq_some_iff.1 last
    have found : (Node.argumentsOf parent.pragmas parent.nodes).reverse.find?
        (fun entry => entry.1 = name) = some argument := found
    obtain ⟨inside, role⟩ := Compile.mem_bodiesOf_of_mem_argumentsOf
      (List.mem_reverse.1 (List.mem_of_find?_eq_some found))
    obtain ⟨first, leading, rfl⟩ := told.first_of_block held
    have around (region : Occurrence)
        (member : region ∈ spot.regions (scene.lines source dialect.pragmas tree) ++ scene.regions) :
        region.tokens.Sublist (Node.tokensOf tree) ∧
          argument.2.tokens.Sublist (Node.tokensOf region.nodes) := by
      obtain ⟨own, tokens⟩ := runs.regions within placed region member
      rw [bears] at tokens
      exact ⟨own, (Node.tokensOf_sublist_of_mem inside).trans (parent.nodes_sublist_tokens.trans tokens)⟩
    rw [← role] at leading
    exact ⟨_, _, Trail.scene?_argument there placed bears found,
      .enter parsed distinct (runs.bodies (bodies _ inside)) leading around⟩

end Program

end Mustache
