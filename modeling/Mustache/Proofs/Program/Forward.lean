import Mustache.Proofs.Program.Deduplication

/-! Pragmas act forward: what a tag means is decided by the pragmas in force where it starts. The one
exception is the tag of a section, whose name and filters are looked up with the pragmas in force
where the section ends. -/
namespace Mustache

open Markup

/-- A tag that names something, and the tag where the pragmas for its look-ups are in force. -/
structure NamedTag where
  tag : Token
  name : Name
  decider : Token

namespace NamedTag

def names (n : NamedTag) : List String := n.name.path :: n.name.filters

def refs (set : Pragmas) (n : NamedTag) : List Ref := n.names.map (Compile.ref set n.tag.span)

/-- A section that names something with a point in front, and switches the pragma for that on within
itself. -/
def LooksBack (force : Nat → Pragmas) (n : NamedTag) : Prop :=
  (force n.tag.span.start).anchoredDot = false ∧ (force n.decider.span.start).anchoredDot = true ∧
    ∃ name ∈ n.names, name ≠ "." ∧ name.toList.head? = some '.'

end NamedTag

def Instr.ref? : Instr → Option Ref
  | lookup ref | apply ref => some ref
  | _ => none

def Instr.refs (instrs : List Instr) : List Ref := instrs.filterMap ref?

def Markup.Role.decider (opening closing : Token) : Role → Token
  | .repeated => closing
  | _ => opening

namespace Markup.Node

mutual

/-- The tags that name something, those in what a parent ignores included. -/
def named : Node → List NamedTag
  | «variable» tag name => [⟨tag, name, tag⟩]
  | region role opening name nodes closing =>
    ⟨opening, name, role.decider opening closing⟩ :: namedOf nodes
  | _ => []
  termination_by structural node => node

def namedOf : List Node → List NamedTag
  | [] => []
  | node :: rest => named node ++ namedOf rest
  termination_by structural nodes => nodes

end

mutual

/-- The tags whose look-ups are among the instructions of the tree itself, not of a shared body in
it. -/
def direct : Node → List NamedTag
  | «variable» tag name => [⟨tag, name, tag⟩]
  | region .repeated opening name _ closing => [⟨opening, name, closing⟩]
  | region .inverted opening name nodes _ => ⟨opening, name, opening⟩ :: directOf nodes
  | region .slot _ _ nodes _ => directOf nodes
  | _ => []
  termination_by structural node => node

def directOf : List Node → List NamedTag
  | [] => []
  | node :: rest => direct node ++ directOf rest
  termination_by structural nodes => nodes

end

end Markup.Node

/-- The look-ups of some tags, each with the pragmas in force at its decider. -/
def NamedTag.allRefs (force : Nat → Pragmas) (tags : List NamedTag) : List Ref :=
  tags.flatMap fun n => n.refs (force n.decider.span.start)

namespace Compile

variable {source : String} {force : Nat → Pragmas}

theorem refs_append (first second : List Instr) :
    Instr.refs (first ++ second) = Instr.refs first ++ Instr.refs second :=
  List.filterMap_append

theorem refs_filters (set : Pragmas) (span : Span) (name : Name) :
    Instr.refs (filters set span name) = name.filters.map (ref set span) := by
  unfold Instr.refs filters
  rw [List.filterMap_map, ← List.filterMap_eq_map]
  rfl

theorem refs_filtered (set : Pragmas) (span : Span) (name : Name) :
    Instr.refs (filtered set span name) = (name.path :: name.filters).map (ref set span) := by
  rw [List.map_cons, ← refs_filters]
  rfl

theorem refs_resolved (set : Pragmas) (span : Span) (name : Name) :
    Instr.refs (resolved set span name) = (name.path :: name.filters).map (ref set span) := by
  rw [List.map_cons, ← refs_filters]
  rfl

end Compile

namespace Markup.Nests

variable {inParent : Bool} {set : Pragmas} {tokens : List Token} {nodes : List Node}
  {force : Nat → Pragmas}

theorem decides_region {opening closing : Token} {inner : List Token} (opens : opening.kind.opens = true)
    (closes : closing.kind = .close)
    (decides : Decides force set (opening :: inner ++ closing :: tokens)) :
    force opening.span.start = set ∧ Decides force set inner ∧
      force closing.span.start = set.insertAll (pragmasIn inner) ∧
      Decides force (set.insertAll (pragmasIn inner)) tokens := by
  have first : opening.switched? = none := Token.switched?_of_ne (Kind.ne_pragma_of_opens opens)
  have last : closing.switched? = none := Token.switched?_of_ne (by rw [closes]; decide)
  have before : Decides force set (inner ++ closing :: tokens) := decides.tail_of_none first
  have within : Decides force set ([] ++ inner ++ closing :: tokens) := before
  have after : Decides force set (inner ++ closing :: tokens ++ []) := by
    rwa [List.append_nil]
  exact ⟨decides.head, within.inside, after.inside.head, after.inside.tail_of_none last⟩

/-- A name is split by the pragmas in force where its tag starts, and looked up with these and
perhaps more. -/
theorem name_of_mem_namedOf (nests : Nests inParent set tokens nodes)
    (decides : Decides force set tokens) {n : NamedTag} (member : n ∈ Node.namedOf nodes) :
    n.name = n.tag.name (force n.tag.span.start) ∧
      ∃ within, force n.decider.span.start = (force n.tag.span.start).insertAll within := by
  induction nests with
  | nil => cases member
  | literal inParent set t tokens nodes kind rest ih =>
    exact ih (decides.tail_of_none (Token.switched?_of_ne (by rw [kind]; decide))) member
  | silent inParent set t tokens nodes kind rest ih =>
    refine ih (decides.tail_of_none ?_) member
    rcases kind with kind | kind | ⟨kind, unknown⟩
    · exact Token.switched?_of_ne (by rw [kind]; decide)
    · exact Token.switched?_of_ne (by rw [kind]; decide)
    · rw [Token.switched?, if_pos kind, unknown]
  | pragma inParent set t p tokens nodes kind known rest ih =>
    refine ih ?_ member
    have after := decides.tail
    rwa [pragmasIn_cons_of_some [] (by rw [Token.switched?, if_pos kind, known])] at after
  | interpolation inParent set t tokens nodes kind rest ih =>
    rcases List.mem_cons.1 member with rfl | later
    · exact ⟨by rw [decides.head], [], rfl⟩
    · have other : t.kind ≠ .pragma := by rcases kind with kind | kind <;> rw [kind] <;> decide
      exact ih (decides.tail_of_none (Token.switched?_of_ne other)) later
  | partialRef inParent set t tokens nodes kind rest ih =>
    exact ih (decides.tail_of_none (Token.switched?_of_ne (by rw [kind]; decide))) member
  | region inParent set opening closing inner tokens nodes more opens closes inside same rest ih ih' =>
    obtain ⟨first, within, last, after⟩ := decides_region opens closes decides
    rcases List.mem_append.1 member with here | later
    · rcases List.mem_cons.1 here with rfl | deeper
      · refine ⟨by rw [first], ?_⟩
        dsimp only
        rw [first]
        cases opening.kind.role inParent with
        | «repeated» => exact ⟨_, last⟩
        | inverted | parent | argument | slot => exact ⟨[], first⟩
      · exact ih within deeper
    · exact ih' after later

theorem refs_plainOf (source : String) (nests : Nests inParent set tokens nodes)
    (decides : Decides force set tokens) :
    Instr.refs (Compile.plainOf source set nodes) =
      NamedTag.allRefs force (Node.directOf nodes) := by
  have join (first : Node) (rest : List Node) : NamedTag.allRefs force (Node.directOf (first :: rest)) =
      NamedTag.allRefs force first.direct ++ NamedTag.allRefs force (Node.directOf rest) :=
    List.flatMap_append
  induction nests with
  | nil => rfl
  | literal inParent set t tokens nodes kind rest ih =>
    exact ih (decides.tail_of_none (Token.switched?_of_ne (by rw [kind]; decide)))
  | silent inParent set t tokens nodes kind rest ih =>
    refine ih (decides.tail_of_none ?_)
    rcases kind with kind | kind | ⟨kind, unknown⟩
    · exact Token.switched?_of_ne (by rw [kind]; decide)
    · exact Token.switched?_of_ne (by rw [kind]; decide)
    · rw [Token.switched?, if_pos kind, unknown]
  | pragma inParent set t p tokens nodes kind known rest ih =>
    refine ih ?_
    have after := decides.tail
    rwa [pragmasIn_cons_of_some [] (by rw [Token.switched?, if_pos kind, known])] at after
  | interpolation inParent set t tokens nodes kind rest ih =>
    have other : t.kind ≠ .pragma := by rcases kind with kind | kind <;> rw [kind] <;> decide
    have later := ih (decides.tail_of_none (Token.switched?_of_ne other))
    rw [join, ← later]
    have here : Instr.refs (Compile.plain source set (.variable t (t.name set))) =
        ((t.name set).path :: (t.name set).filters).map (Compile.ref set t.span) := by
      rw [Compile.plain, Compile.refs_append, Compile.refs_resolved]
      exact List.append_nil _
    rw [Compile.plainOf, Compile.refs_append, here]
    have only : NamedTag.allRefs force (Node.direct (.variable t (t.name set))) =
        NamedTag.refs set ⟨t, t.name set, t⟩ := by
      rw [← decides.head]
      exact List.append_nil _
    rw [only]
    rfl
  | partialRef inParent set t tokens nodes kind rest ih =>
    exact ih (decides.tail_of_none (Token.switched?_of_ne (by rw [kind]; decide)))
  | region inParent set opening closing inner tokens nodes more opens closes inside same rest ih ih' =>
    obtain ⟨first, within, last, after⟩ := decides_region opens closes decides
    have switched := inside.pragmasOf_eq
    have later := ih' after
    have inner := ih within
    rw [join, ← later, Compile.plainOf, Compile.refs_append, Node.pragmas, switched]
    congr 1
    unfold Compile.plain Node.direct
    cases opening.kind.role inParent with
    | «repeated» =>
      rw [Compile.refs_append, Compile.refs_filtered, switched, ← last]
      rfl
    | inverted =>
      have tag : NamedTag.allRefs force (⟨opening, opening.name set, opening⟩ :: Node.directOf nodes) =
          NamedTag.refs set ⟨opening, opening.name set, opening⟩ ++
            NamedTag.allRefs force (Node.directOf nodes) := by
        rw [← first]
        rfl
      have skip (n : Nat) (instrs : List Instr) :
          Instr.refs (.unlessEmpty n :: instrs) = Instr.refs instrs := rfl
      dsimp only
      rw [tag, ← inner, Compile.refs_append, Compile.refs_filtered, skip]
      rfl
    | slot => exact inner
    | parent => rfl
    | argument => rfl

theorem refs_instrs (source : String) (nests : Nests false set tokens nodes)
    (decides : Decides force set tokens) {o : Occurrence} (member : o ∈ Node.bodiesOf false set nodes) :
    Instr.refs (o.instrs source) = NamedTag.allRefs force (Node.directOf o.nodes) := by
  obtain ⟨before, inner, after, split, opens, -, switched, inside⟩ := nests.split_of_mem member
  refine inside.refs_plainOf source ?_
  have silent : pragmasIn [o.opening] = [] :=
    pragmasIn_cons_of_none [] (Token.switched?_of_ne (Kind.ne_pragma_of_opens opens))
  have around : Decides force set ((before ++ [o.opening]) ++ inner ++ (o.closing :: after)) := by
    rw [split] at decides
    simpa using decides
  have within := around.inside
  rwa [pragmasIn_append, silent, List.append_nil, ← switched] at within

end Markup.Nests

theorem Lookup.of_eq_iff {a b : Pragmas} (more : a.anchoredDot = true → b.anchoredDot = true)
    (name : String) : Lookup.of b name = Lookup.of a name ↔
      ¬(a.anchoredDot = false ∧ b.anchoredDot = true ∧ name ≠ "." ∧ name.toList.head? = some '.') := by
  unfold Lookup.of
  by_cases top : name = "."
  · simp [top]
  · cases before : a.anchoredDot with
    | true => simp [top, more before]
    | false =>
      cases after : b.anchoredDot with
      | false => simp
      | true =>
        by_cases point : name.toList.head? = some '.'
        · have differs : anchored ≠ if name.toList.contains '.' then path else anywhere := by
            split <;> decide
          simpa [top, point] using differs
        · simp [top, point]

theorem NamedTag.refs_eq_iff {force : Nat → Pragmas} {n : NamedTag}
    (more : ∃ within, force n.decider.span.start = (force n.tag.span.start).insertAll within) :
    n.refs (force n.decider.span.start) = n.refs (force n.tag.span.start) ↔ ¬n.LooksBack force := by
  obtain ⟨within, later⟩ := more
  have monotone : (force n.tag.span.start).anchoredDot = true →
      (force n.decider.span.start).anchoredDot = true := by
    intro before
    have := Pragmas.contains_insertAll within .anchoredDot (force n.tag.span.start)
    rw [← later] at this
    simpa [Pragmas.contains, before] using this
  unfold refs LooksBack
  rw [List.map_inj_left]
  constructor
  · rintro same ⟨before, after, name, member, back⟩
    have lookup := congrArg Ref.lookup (same name member)
    exact (Lookup.of_eq_iff monotone name).1 lookup ⟨before, after, back⟩
  · intro forward name member
    have lookup := (Lookup.of_eq_iff monotone name).2 fun back =>
      forward ⟨back.1, back.2.1, name, member, back.2.2⟩
    unfold Compile.ref
    rw [lookup]

/-- What the tags of a source mean, by the pragmas in force. -/
structure Program.ForwardOnly (source : String) (force : Nat → Pragmas) (set : Pragmas)
    (tokens : List Token) (tree : List Node) (program : Program) : Prop where
  blocks : ∀ t ∈ tokens, t.kind ≠ .text → ∃ read,
    t.span.Covers source.toList (t.delims.opening ++ read) ∧
      (t.kind = .blockOpen ↔ (force t.span.start).blocks = true ∧ read.head? = some '$')
  names : ∀ n ∈ Node.namedOf tree, n.name = n.tag.name (force n.tag.span.start)
  lookups : Instr.refs program.instrs = NamedTag.allRefs force (Node.directOf tree)
  section_lookups : ∀ o ∈ Node.bodiesOf false set tree, o.role = .repeated →
    ∃ sec place, Entries.get? (o.key source) program.sections = some sec ∧
      Instr.refs (sec.instrs.map (Instr.respan place)) =
        NamedTag.allRefs force (Node.directOf o.nodes)
  block_lookups : ∀ o ∈ Node.bodiesOf false set tree, o.role = .argument →
    ∃ instrs place, Entries.get? (o.key source) program.blocks = some instrs ∧
      Instr.refs (instrs.map (Instr.respan place)) = NamedTag.allRefs force (Node.directOf o.nodes)
  forward : ∀ n ∈ Node.namedOf tree, n.refs (force n.decider.span.start) =
    n.refs (force n.tag.span.start) ↔ ¬n.LooksBack force

/-- The pragmas of the engine and the known pragma tags before a tag decide what the tag means,
except that a section looks back from its end. -/
theorem pragmas_forward_unless_looking_back {dialect : Dialect} {key : Key} {source : String}
    {program : Program} {tokens : List Token} {tree : List Node}
    (tokenized : tokenize dialect.pragmas source = .ok tokens)
    (nested : nest dialect.pragmas tokens = .ok tree)
    (compiled : Program.compile dialect key source = .ok program)
    (distinct : Hash.Distinct (Node.identities source dialect.pragmas tree)) :
    program.ForwardOnly source (inForce dialect.pragmas tokens) dialect.pragmas tokens tree := by
  have parsed : parse dialect.pragmas source = .ok tree := by
    rw [parse, tokenized]
    exact nested
  have nests := nests_of_nest nested
  have told := Program.told_of_compile parsed compiled distinct
  obtain ⟨raw, scanned, rfl⟩ := scanned_of_tokenize tokenized
  have decides := scanned.decides_tidy dialect.pragmas
  constructor
  · intro t member notText
    obtain ⟨before, after, split⟩ := List.append_of_mem member
    obtain ⟨before', t', after', rfl, like, same, -⟩ :=
      tidy_split (fun s => scanned.raw) notText split
    have notText' : t'.kind ≠ .text := by rwa [← like.kind]
    obtain ⟨span, read, place, covers, opens⟩ :=
      scanned.blockOpen_iff (show (Mode.initial dialect.pragmas).blocks = dialect.pragmas.blocks from rfl)
        notText' rfl
    refine ⟨read, ?_, ?_⟩
    · rw [like.span, like.delims, place]
      exact covers
    · rw [like.kind, opens, decides before t after split, same]
  · intro n member
    exact (nests.name_of_mem_namedOf decides member).1
  · rw [told.instrs]
    exact nests.refs_plainOf source decides
  · intro o member role
    obtain ⟨first, there, same, entry⟩ := told.exists_section member role
    refine ⟨_, Span.move first.body.span.start o.body.span.start, entry, ?_⟩
    have moved := Compile.instrs_of_key_eq parsed distinct there member same
    rw [← nests.refs_instrs source decides member, moved]
    rfl
  · intro o member role
    obtain ⟨first, there, same, entry⟩ := told.exists_block member role
    refine ⟨_, Span.move first.body.span.start o.body.span.start, entry, ?_⟩
    have moved := Compile.instrs_of_key_eq parsed distinct there member same
    rw [← nests.refs_instrs source decides member, moved]
  · intro n member
    exact NamedTag.refs_eq_iff (nests.name_of_mem_namedOf decides member).2

/-- A section that switches on anchored names within itself has its own name anchored. -/
theorem pragmas_forward_unless_looking_back_section :
    ∃ (tokens : List Token) (tree : List Node) (program : Program),
      tokenize {} "\x7b\x7b#.b\x7d\x7d\x7b\x7b%ANCHORED-DOT\x7d\x7dx\x7b\x7b/.b\x7d\x7d" = .ok tokens ∧
      program.ForwardOnly
        "\x7b\x7b#.b\x7d\x7d\x7b\x7b%ANCHORED-DOT\x7d\x7dx\x7b\x7b/.b\x7d\x7d" (inForce {} tokens)
        {} tokens tree ∧
      Instr.refs program.instrs = [⟨.anchored, ".b", ⟨0, 7⟩⟩] ∧
      Lookup.of (inForce {} tokens 0) ".b" = .path := by
  generalize whole :
    "\x7b\x7b#.b\x7d\x7d\x7b\x7b%ANCHORED-DOT\x7d\x7dx\x7b\x7b/.b\x7d\x7d" = source
  let opening : Token := ⟨.sectionOpen, ⟨0, 7⟩, ".b", .default, "", false⟩
  let switch : Token := ⟨.pragma, ⟨7, 24⟩, "ANCHORED-DOT", .default, "", false⟩
  let text : Token := ⟨.text, ⟨24, 25⟩, "x", .default, "", false⟩
  let closing : Token := ⟨.close, ⟨25, 32⟩, ".b", .default, "", false⟩
  have tokenized : tokenize {} source = .ok [opening, switch, text, closing] := by
    subst whole
    with_unfolding_all rfl
  have nested : nest {} [opening, switch, text, closing] = .ok [.region .repeated opening
      ⟨".b", []⟩ [.pragma switch .anchoredDot, .literal text] closing] := by cbv
  have compiled : Program.compile ⟨{}, .custom, false⟩ (Hash.sha256 "") source = .ok
      (.ofNodes ⟨{}, .custom, false⟩ (Hash.sha256 "") source [.region .repeated opening
        ⟨".b", []⟩ [.pragma switch .anchoredDot, .literal text] closing]) := by
    rw [Program.compile, parse, tokenized]
    simp only [bind, Except.bind, nested]
  have distinct : Hash.Distinct (Node.identities source {} [.region .repeated opening
      ⟨".b", []⟩ [.pragma switch .anchoredDot, .literal text] closing]) := by
    rintro a b ⟨o, member, rfl⟩ ⟨o', member', rfl⟩ -
    rw [List.mem_singleton.1 member, List.mem_singleton.1 member']
  have forward := pragmas_forward_unless_looking_back tokenized nested compiled distinct
  refine ⟨_, _, _, tokenized, forward, ?_, by decide⟩
  rw [forward.lookups]
  decide

end Mustache
