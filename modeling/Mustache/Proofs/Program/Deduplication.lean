import Mathlib.Data.List.Permutation
import Mustache.Proofs.Entries
import Mustache.Proofs.Program.Sharing

/-! The tables of a compiled program hold each body of its tree once, and what they hold for a body
is what the body compiles to by itself, apart from the places it points at. -/
namespace Mustache

open Markup

/-- No two of the texts have one digest. -/
def Hash.Distinct (texts : String → Prop) : Prop :=
  ∀ a b, texts a → texts b → Hash.sha256 a = Hash.sha256 b → a = b

/-- What the keys of the bodies in a tree are digests of. -/
def Markup.Node.identities (source : String) (set : Pragmas) (tree : List Node) (text : String) : Prop :=
  ∃ o ∈ Node.bodiesOf false set tree, o.identity source = text

/-- The same instructions, each pointing at a place that reads the same. -/
def Instr.Alike (source : String) (stored own : List Instr) : Prop :=
  ∃ place : Span → Span, own = stored.map (respan place) ∧ ∀ instr ∈ stored, ∀ span,
    instr.span? = some span → (place span).slice source = span.slice source

namespace Compile

variable {set : Pragmas} {source : String} {tree : List Node}

theorem isShared_of_mem {inParent : Bool} {nodes : List Node} {o : Occurrence}
    (member : o ∈ Node.bodiesOf inParent set nodes) : o.role.isShared = true := by
  induction nodes using Node.forest generalizing inParent set with
  | nil => cases member
  | literal t rest ih => exact ih member
  | pragma t p rest ih => exact ih member
  | interpolation t name rest ih => exact ih member
  | partialRef t rest ih => exact ih member
  | region role opening name nodes closing rest inner ih =>
    rcases Node.mem_bodiesOf_region.1 member with ⟨-, deep | ⟨shared, rfl⟩⟩ | later
    · exact inner deep
    · exact shared
    · exact ih later

/-- Bodies with one key are read from one text. -/
theorem reads_of_key_eq (parsed : parse set source = .ok tree)
    (distinct : Hash.Distinct (Node.identities source set tree)) {a b : Occurrence}
    (here : a ∈ Node.bodiesOf false set tree) (there : b ∈ Node.bodiesOf false set tree)
    (same : a.key source = b.key source) :
    ∃ text nodes, a.Reads source text nodes ∧ b.Reads source text nodes ∧
      a.pragmas = b.pragmas ∧ a.body.delims = b.body.delims := by
  have identity : a.identity source = b.identity source :=
    distinct _ _ ⟨a, here, rfl⟩ ⟨b, there, rfl⟩ same
  obtain ⟨text, nodes, reads⟩ := reads_of_mem parsed here
  obtain ⟨text', nodes', reads'⟩ := reads_of_mem parsed there
  obtain ⟨rfl, rfl⟩ := reads.unique reads' identity
  obtain ⟨delims, -, pragmas, -⟩ := Body.eq_of_identity identity
  exact ⟨text, nodes, reads, reads', pragmas, delims⟩

theorem key_of_reads {text : List Char} {nodes : List Node} {a inner : Occurrence}
    (reads : a.Reads source text nodes) (member : inner ∈ Node.bodiesOf false a.pragmas nodes) :
    (inner.shift a.body.span.start).key source = inner.key (.ofList text) := by
  obtain ⟨front, back, whole, start, -⟩ := reads.covers
  obtain ⟨part, covers, -⟩ := reads.fits.body member
  exact key_shift whole start covers

theorem uniform_of_parse (parsed : parse set source = .ok tree)
    (distinct : Hash.Distinct (Node.identities source set tree)) :
    Uniform source (Node.bodiesOf false set tree) where
  shared := fun o => isShared_of_mem
  closed := fun o member inner => Node.mem_bodiesOf_trans member
  pragmas := by
    intro a here b there same
    obtain ⟨text, nodes, reads, reads', -, -⟩ := reads_of_key_eq parsed distinct here there same
    rw [reads.moved, reads'.moved, Node.pragmasOf_shiftAll, Node.pragmasOf_shiftAll]
  nested := by
    intro a here b there same inner within
    obtain ⟨text, nodes, reads, reads', pragmas, -⟩ :=
      reads_of_key_eq parsed distinct here there same
    rw [reads.moved, Node.bodiesOf_shiftAll, List.mem_map] at within
    obtain ⟨base, member, rfl⟩ := within
    refine ⟨base.shift b.body.span.start, ?_, rfl, ?_⟩
    · rw [reads'.moved, Node.bodiesOf_shiftAll, ← pragmas]
      exact List.mem_map_of_mem member
    · rw [key_of_reads reads member]
      rw [pragmas] at member
      exact key_of_reads reads' member
  smaller := by
    intro o member inner within same
    have there := Node.mem_bodiesOf_trans member within
    obtain ⟨text, nodes, reads, reads', -, -⟩ := reads_of_key_eq parsed distinct there member same
    exact Nat.lt_irrefl _ (length_lt_of_nested parsed member within reads'.covers reads.covers)

theorem instrs_of_key_eq (parsed : parse set source = .ok tree)
    (distinct : Hash.Distinct (Node.identities source set tree)) {a b : Occurrence}
    (here : a ∈ Node.bodiesOf false set tree) (there : b ∈ Node.bodiesOf false set tree)
    (same : a.key source = b.key source) :
    b.instrs source =
      (a.instrs source).map (Instr.respan (Span.move a.body.span.start b.body.span.start)) := by
  obtain ⟨text, nodes, reads, reads', pragmas, -⟩ := reads_of_key_eq parsed distinct here there same
  obtain ⟨front, back, whole, start, -⟩ := reads.covers
  obtain ⟨front', back', whole', start', -⟩ := reads'.covers
  have stored := plainOf_shiftAll whole start a.pragmas reads.fits
  have own := plainOf_shiftAll whole' start' a.pragmas reads.fits
  rw [← reads.moved] at stored
  rw [← reads'.moved, pragmas] at own
  rw [Occurrence.instrs, Occurrence.instrs, stored, own, List.map_map, pragmas]
  refine List.map_congr_left fun instr _ => ?_
  cases instr <;> simp [Instr.respan, Ref.respan]

theorem slice_of_mem_instrs (parsed : parse set source = .ok tree)
    (distinct : Hash.Distinct (Node.identities source set tree)) {a b : Occurrence}
    (here : a ∈ Node.bodiesOf false set tree) (there : b ∈ Node.bodiesOf false set tree)
    (same : a.key source = b.key source) {instr : Instr} {span : Span}
    (member : instr ∈ a.instrs source) (placed : instr.span? = some span) :
    (span.move a.body.span.start b.body.span.start).slice source = span.slice source := by
  obtain ⟨text, nodes, reads, reads', -, -⟩ := reads_of_key_eq parsed distinct here there same
  obtain ⟨front, back, whole, start, -⟩ := reads.covers
  obtain ⟨front', back', whole', start', -⟩ := reads'.covers
  have stored := plainOf_shiftAll whole start a.pragmas reads.fits
  rw [← reads.moved] at stored
  rw [Occurrence.instrs, stored, List.mem_map] at member
  obtain ⟨base, among, rfl⟩ := member
  have moved : ∃ s, base.span? = some s ∧ s.shift a.body.span.start = span := by
    cases base <;> simp_all [Instr.span?, Instr.respan, Ref.respan]
  obtain ⟨s, found, rfl⟩ := moved
  obtain ⟨t, tag, rfl⟩ := exists_tag_of_mem_plainOf among found
  obtain ⟨part, -, covers⟩ := reads.fits.covers t tag
  have first := covers.within front back
  have second := covers.within front' back'
  rw [← whole, ← start] at first
  rw [← whole', ← start'] at second
  rw [Span.move_shift, first.slice, second.slice]

theorem alike_of_key_eq (parsed : parse set source = .ok tree)
    (distinct : Hash.Distinct (Node.identities source set tree)) {a b : Occurrence}
    (here : a ∈ Node.bodiesOf false set tree) (there : b ∈ Node.bodiesOf false set tree)
    (same : a.key source = b.key source) :
    Instr.Alike source (a.instrs source) (b.instrs source) :=
  ⟨_, instrs_of_key_eq parsed distinct here there same, fun _ member _ placed =>
    slice_of_mem_instrs parsed distinct here there same member placed⟩

theorem sound_initial (all : List Occurrence) : Sound source all (.initial set) := by
  have none (o : Occurrence) : (State.initial set).holds source o = false := by
    unfold State.holds
    split <;> rfl
  constructor
  · intro o member held
    rw [none] at held
    cases held
  · intro o member held
    rw [none] at held
    cases held

theorem compiled_of_parse (parsed : parse set source = .ok tree)
    (distinct : Hash.Distinct (Node.identities source set tree)) :
    ∃ s, Compiled source (Node.bodiesOf false set tree) set tree (.initial set) s := by
  obtain ⟨tokens, -, nests⟩ := read_of_parse parsed
  exact exists_handled nests (uniform_of_parse parsed distinct) (fun o member => member)
    (sound_initial _) rfl

theorem run_nodes_alone (parsed : parse set source = .ok tree)
    (distinct : Hash.Distinct (Node.identities source set tree)) {o : Occurrence}
    (member : o ∈ Node.bodiesOf false set tree) :
    ((nodes source o.nodes).run (.initial o.pragmas)).1 = o.instrs source := by
  obtain ⟨tokens, -, nests⟩ := read_of_parse parsed
  obtain ⟨before, inner, after, -, -, -, -, inside⟩ := nests.split_of_mem member
  obtain ⟨s, compiled⟩ := exists_handled inside (uniform_of_parse parsed distinct)
    (fun inner => Node.mem_bodiesOf_trans member) (sound_initial _) rfl
  rw [compiled.run]
  rfl

section

variable {α : Type} {role : Role} {make : Occurrence → α} {key : Key} {bodies : List Occurrence}

theorem findSome?_eq_find? :
    (bodies.findSome? fun o => if o.role = role ∧ o.key source = key then some (make o) else none) =
      (bodies.find? fun o => o.role = role ∧ o.key source = key).map make := by
  induction bodies with
  | nil => rfl
  | cons o rest ih =>
    rw [List.findSome?_cons, List.find?_cons]
    by_cases matched : o.role = role ∧ o.key source = key <;> simp [matched, ih]

theorem mem_of_findSome? {a : α}
    (found : (bodies.findSome? fun o =>
      if o.role = role ∧ o.key source = key then some (make o) else none) = some a) :
    ∃ o ∈ bodies, o.role = role ∧ o.key source = key ∧ a = make o := by
  obtain ⟨o, member, made⟩ := List.exists_of_findSome?_eq_some found
  split at made
  · rename_i matched
    exact ⟨o, member, matched.1, matched.2, (Option.some.inj made).symm⟩
  · cases made

theorem findSome?_of_mem {o : Occurrence} (member : o ∈ bodies) (same : o.role = role) :
    ∃ a, (bodies.findSome? fun b =>
      if b.role = role ∧ b.key source = o.key source then some (make b) else none) = some a := by
  rw [← Option.isSome_iff_exists, List.findSome?_isSome_iff]
  exact ⟨o, member, by rw [if_pos ⟨same, rfl⟩]; rfl⟩

theorem isSome_findSome?_iff :
    (bodies.findSome? fun o =>
      if o.role = role ∧ o.key source = key then some (make o) else none).isSome ↔
      ∃ o ∈ bodies, o.role = role ∧ o.key source = key := by
  constructor
  · intro found
    obtain ⟨a, entry⟩ := Option.isSome_iff_exists.1 found
    obtain ⟨o, member, same, keyed, -⟩ := mem_of_findSome? entry
    exact ⟨o, member, same, keyed⟩
  · rintro ⟨o, member, same, rfl⟩
    exact Option.isSome_iff_exists.2 (findSome?_of_mem member same)

end

/-- Compiling trees from one state comes to a body in another state. What is within a body is only
come to if that is not in its table. -/
inductive Visits (source : String) : Bool → List Node → State → Occurrence → State → Prop
  | here {inParent : Bool} {role : Role} (opening closing : Token) (name : Name)
      (inner rest : List Node) (s : State) (counts : role.counts inParent = true)
      (shared : role.isShared = true) :
      Visits source inParent (.region role opening name inner closing :: rest) s
        ⟨role, s.pragmas, opening, inner, closing⟩ s
  | inside {inParent : Bool} {role : Role} {opening closing : Token} (name : Name)
      {inner : List Node} (rest : List Node) {s s' : State} {o : Occurrence}
      (counts : role.counts inParent = true)
      (absent : role.isShared = true →
        s.holds source ⟨role, s.pragmas, opening, inner, closing⟩ = false)
      (deeper : Visits source (role = .parent) inner s o s') :
      Visits source inParent (.region role opening name inner closing :: rest) s o s'
  | later {inParent : Bool} (first : Node) {rest : List Node} {s s' : State} {o : Occurrence}
      (more : Visits source inParent rest
        (if inParent then ((arguments source [first]).run s).2 else ((nodes source [first]).run s).2)
        o s') :
      Visits source inParent (first :: rest) s o s'

theorem Visits.sound {all : List Occurrence} {inParent : Bool} {nodes : List Node} {s s' : State}
    {o : Occurrence} (visits : Visits source inParent nodes s o s') {tokens : List Token}
    (nests : Nests inParent s.pragmas tokens nodes) (uniform : Uniform source all)
    (among : ∀ o ∈ Node.bodiesOf inParent s.pragmas nodes, o ∈ all) (sound : Sound source all s) :
    o ∈ all ∧ o.pragmas = s'.pragmas ∧ Sound source all s' ∧
      ∃ inner, Nests false o.pragmas inner o.nodes := by
  induction visits generalizing tokens with
  | here opening closing name inner rest s counts shared =>
    obtain ⟨within, inside⟩ := nests.inside_of_region
    rw [Node.not_parent_of_isShared shared] at inside
    refine ⟨among _ ?_, rfl, sound, within, inside⟩
    exact Node.mem_bodiesOf_region.2 (.inl ⟨counts, .inr ⟨shared, rfl⟩⟩)
  | inside name rest counts absent deeper ih =>
    obtain ⟨within, inside⟩ := nests.inside_of_region
    refine ih inside (fun o member => among o ?_) sound
    exact Node.mem_bodiesOf_region.2 (.inl ⟨counts, .inl member⟩)
  | @later inParent first rest s s' o more ih =>
    obtain ⟨front, back, single, others⟩ := nests.uncons
    obtain ⟨next, handled⟩ := exists_handled single uniform
      (fun o member => among o (by
        rw [Node.bodiesOf, Node.bodiesOf, List.append_nil] at member
        rw [Node.bodiesOf]
        exact List.mem_append_left _ member)) sound rfl
    have goes : (if inParent then ((arguments source [first]).run s).2
        else ((Compile.nodes source [first]).run s).2) = next ∧
          next.pragmas = s.pragmas.insertAll first.pragmas ∧ Sound source all next := by
      have switched : Node.pragmasOf [first] = first.pragmas := List.append_nil _
      cases inParent with
      | false => exact ⟨congrArg Prod.snd handled.run, by rw [handled.goes.pragmas, switched],
          handled.goes.sound⟩
      | true => exact ⟨congrArg Prod.snd handled.run, by rw [handled.goes.pragmas, switched],
          handled.goes.sound⟩
    obtain ⟨same, pragmas, sound'⟩ := goes
    rw [same] at ih
    rw [← pragmas] at others
    refine ih others (fun o member => among o ?_) sound'
    rw [pragmas] at member
    rw [Node.bodiesOf]
    exact List.mem_append_right _ member

end Compile

/-- What a program is, told from the tree of its source. -/
structure Program.Told (dialect : Dialect) (source : String) (tree : List Node)
    (program : Program) : Prop where
  sameSource : program.source = source
  escape : program.escape = dialect.escape
  strictCallables : program.strictCallables = dialect.strictCallables
  instrs : program.instrs = Compile.plainOf source dialect.pragmas tree
  sections : ∀ key, Entries.get? key program.sections =
    Compile.sectionOf? source key (Node.bodiesOf false dialect.pragmas tree)
  blocks : ∀ key, Entries.get? key program.blocks =
    Compile.blockOf? source key (Node.bodiesOf false dialect.pragmas tree)
  sections_distinct : (Entries.keys program.sections).Nodup
  blocks_distinct : (Entries.keys program.blocks).Nodup

theorem Program.compile_of_tree (dialect : Dialect) (key : Key) {source : String} {tree : List Node}
    (parsed : parse dialect.pragmas source = .ok tree) :
    Program.compile dialect key source = .ok (.ofNodes dialect key source tree) := by
  rw [compile, parsed]

theorem Program.compile_of_flaw (dialect : Dialect) (key : Key) {source : String} {flaw : Flaw}
    (parsed : parse dialect.pragmas source = .error flaw) :
    Program.compile dialect key source = .error (.locatedAt flaw.cause source flaw.span) := by
  rw [compile, parsed]

theorem Program.told_of_compile {dialect : Dialect} {key : Key} {source : String}
    {program : Program} {tree : List Node} (parsed : parse dialect.pragmas source = .ok tree)
    (compiled : Program.compile dialect key source = .ok program)
    (distinct : Hash.Distinct (Node.identities source dialect.pragmas tree)) :
    program.Told dialect source tree := by
  obtain ⟨s, whole⟩ := Compile.compiled_of_parse parsed distinct
  have made : program = ⟨key, source, dialect.escape, dialect.strictCallables,
      Compile.plainOf source dialect.pragmas tree, s.sections, s.blocks⟩ := by
    rw [Program.compile, parsed, Except.ok.injEq] at compiled
    rw [← compiled, Program.ofNodes, whole.run]
  have sections := whole.goes.sections
  have blocks := whole.goes.blocks
  have once := whole.goes.distinct ⟨List.nodup_nil, List.nodup_nil⟩
  simp only [Compile.State.initial, Entries.get?, Option.none_or] at sections blocks
  subst made
  exact ⟨rfl, rfl, rfl, rfl, sections, blocks, once.sections, once.blocks⟩

namespace Program.Told

variable {dialect : Dialect} {source : String} {tree : List Node} {program : Program}

theorem exists_section (told : program.Told dialect source tree) {o : Occurrence}
    (member : o ∈ Node.bodiesOf false dialect.pragmas tree) (role : o.role = .repeated) :
    ∃ first ∈ Node.bodiesOf false dialect.pragmas tree, first.key source = o.key source ∧
      Entries.get? (o.key source) program.sections = some (first.toSection source) := by
  have listed : ∃ sec, Compile.sectionOf? source (o.key source) _ = some sec :=
    Compile.findSome?_of_mem member role
  obtain ⟨sec, entry⟩ := listed
  obtain ⟨first, there, -, same, rfl⟩ := Compile.mem_of_findSome? entry
  exact ⟨first, there, same, (told.sections _).trans entry⟩

theorem exists_block (told : program.Told dialect source tree) {o : Occurrence}
    (member : o ∈ Node.bodiesOf false dialect.pragmas tree) (role : o.role = .argument) :
    ∃ first ∈ Node.bodiesOf false dialect.pragmas tree, first.key source = o.key source ∧
      Entries.get? (o.key source) program.blocks = some (first.instrs source) := by
  have listed : ∃ instrs, Compile.blockOf? source (o.key source) _ = some instrs :=
    Compile.findSome?_of_mem member role
  obtain ⟨instrs, entry⟩ := listed
  obtain ⟨first, there, -, same, rfl⟩ := Compile.mem_of_findSome? entry
  exact ⟨first, there, same, (told.blocks _).trans entry⟩

end Program.Told

/-- The tables of a program hold each body of its tree once, as it is by itself. -/
structure Program.TablesExact (source : String) (set : Pragmas) (tree : List Node)
    (program : Program) : Prop where
  sections_distinct : (Entries.keys program.sections).Nodup
  blocks_distinct : (Entries.keys program.blocks).Nodup
  mem_sections : ∀ key, key ∈ Entries.keys program.sections ↔
    ∃ o ∈ Node.bodiesOf false set tree, o.role = .repeated ∧ o.key source = key
  mem_blocks : ∀ key, key ∈ Entries.keys program.blocks ↔
    ∃ o ∈ Node.bodiesOf false set tree, o.role = .argument ∧ o.key source = key
  sections_alike : ∀ o ∈ Node.bodiesOf false set tree, o.role = .repeated →
    ∃ sec, Entries.get? (o.key source) program.sections = some sec ∧
      sec.text = o.body.span.slice source ∧ sec.changeTag = o.opening.delims.changeTag? ∧
      sec.opening = o.opening.delims.opening ∧
      Instr.Alike source sec.instrs ((Compile.nodes source o.nodes).run (.initial o.pragmas)).1
  blocks_alike : ∀ o ∈ Node.bodiesOf false set tree, o.role = .argument →
    ∃ instrs, Entries.get? (o.key source) program.blocks = some instrs ∧
      Instr.Alike source instrs ((Compile.nodes source o.nodes).run (.initial o.pragmas)).1

/-- Sharing bodies is exact, and a body that the compiler skips because its key is in a table would
not have switched on any more pragmas. -/
theorem deduplication_exact {dialect : Dialect} {key : Key} {source : String} {program : Program}
    {tree : List Node} (parsed : parse dialect.pragmas source = .ok tree)
    (compiled : Program.compile dialect key source = .ok program)
    (distinct : Hash.Distinct (Node.identities source dialect.pragmas tree)) :
    program.TablesExact source dialect.pragmas tree ∧
      ∀ o s, Compile.Visits source false tree (.initial dialect.pragmas) o s →
        s.holds source o = true →
          ((Compile.nodes source o.nodes).run s).2.pragmas = s.pragmas := by
  have uniform := Compile.uniform_of_parse parsed distinct
  have told := Program.told_of_compile parsed compiled distinct
  constructor
  · refine ⟨told.sections_distinct, told.blocks_distinct, ?_, ?_, ?_, ?_⟩
    · intro k
      rw [← Entries.isSome_get?_iff, told.sections]
      exact Compile.isSome_findSome?_iff
    · intro k
      rw [← Entries.isSome_get?_iff, told.blocks]
      exact Compile.isSome_findSome?_iff
    · intro o member role
      obtain ⟨first, there, same, entry⟩ := told.exists_section member role
      obtain ⟨text, nodes, reads, reads', -, delims⟩ :=
        Compile.reads_of_key_eq parsed distinct there member same
      refine ⟨_, entry, ?_, ?_, ?_, ?_⟩
      · rw [reads'.covers.slice]
        exact reads.covers.slice
      · exact congrArg Delimiters.changeTag? delims
      · exact congrArg Delimiters.opening delims
      · rw [Compile.run_nodes_alone parsed distinct member]
        exact Compile.alike_of_key_eq parsed distinct there member same
    · intro o member role
      obtain ⟨first, there, same, entry⟩ := told.exists_block member role
      refine ⟨_, entry, ?_⟩
      rw [Compile.run_nodes_alone parsed distinct member]
      exact Compile.alike_of_key_eq parsed distinct there member same
  · intro o s visits held
    obtain ⟨tokens, -, nests⟩ := read_of_parse parsed
    obtain ⟨member, pragmas, sound, inner, inside⟩ :=
      visits.sound nests uniform (fun o member => member) (Compile.sound_initial _)
    obtain ⟨s', again⟩ := Compile.exists_handled inside uniform
      (fun inner => Node.mem_bodiesOf_trans member) sound pragmas.symm
    rw [again.run, again.goes.pragmas]
    exact Pragmas.insertAll_eq_self (sound.pragmas o member held)

/-- Two sections that read the same. -/
theorem deduplication_exact_twins :
    ∃ (tree : List Node) (program : Program),
      parse {} "\x7b\x7b#a\x7d\x7dx\x7b\x7b/a\x7d\x7d\x7b\x7b#a\x7d\x7dx\x7b\x7b/a\x7d\x7d" = .ok tree ∧
      program.TablesExact
        "\x7b\x7b#a\x7d\x7dx\x7b\x7b/a\x7d\x7d\x7b\x7b#a\x7d\x7dx\x7b\x7b/a\x7d\x7d" {} tree := by
  generalize whole : "\x7b\x7b#a\x7d\x7dx\x7b\x7b/a\x7d\x7d\x7b\x7b#a\x7d\x7dx\x7b\x7b/a\x7d\x7d" = source
  let twin (start : Nat) : Node :=
    .region .repeated ⟨.sectionOpen, ⟨start, start + 6⟩, "a", .default, "", false⟩ ⟨"a", []⟩
      [.literal ⟨.text, ⟨start + 6, start + 7⟩, "x", .default, "", false⟩]
      ⟨.close, ⟨start + 7, start + 13⟩, "a", .default, "", false⟩
  have parsed : parse {} source = .ok [twin 0, twin 13] := by
    subst whole
    with_unfolding_all rfl
  have compiled : Program.compile ⟨{}, .custom, false⟩ default source = .ok _ :=
    Program.compile_of_tree _ default parsed
  have same (o : Occurrence) (member : o ∈ Node.bodiesOf false {} [twin 0, twin 13]) :
      o.identity source = "\n00\n\nx" := by
    subst whole
    simp only [Node.bodiesOf, Node.bodies, twin] at member
    simp [Role.counts, Role.isShared] at member
    rcases member with rfl | rfl <;> decide +kernel
  have distinct : Hash.Distinct (Node.identities source {} [twin 0, twin 13]) := by
    rintro a b ⟨o, member, rfl⟩ ⟨o', member', rfl⟩ -
    rw [same o member, same o' member']
  exact ⟨_, _, parsed, (deduplication_exact parsed compiled distinct).1⟩

end Mustache
