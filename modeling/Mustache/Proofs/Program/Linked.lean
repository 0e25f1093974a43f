import Mathlib.Data.List.Forall2
import Mustache.Proofs.Program.Deduplication

/-! Programs that differ in places and keys. Keys are linked, not renamed: bodies that share a key in one
program may have keys of their own in the other. -/
namespace Mustache

open Markup

/-- Which keys stand for each other in two programs. -/
structure Link where
  sections : Key → Key → Prop
  blocks : Key → Key → Prop

/-- Each key stands for itself. -/
def Link.same : Link := ⟨Eq, Eq⟩

/-- Instructions that are alike but for places, with linked keys. -/
inductive Instr.Linked (link : Link) : Instr → Instr → Prop
  | text (text : String) : Linked link (.text text) (.text text)
  | lookup (lookup : Lookup) (name : String) (span span' : Span) :
      Linked link (.lookup ⟨lookup, name, span⟩) (.lookup ⟨lookup, name, span'⟩)
  | resolve (span span' : Span) : Linked link (.resolve span) (.resolve span')
  | apply (lookup : Lookup) (name : String) (span span' : Span) :
      Linked link (.apply ⟨lookup, name, span⟩) (.apply ⟨lookup, name, span'⟩)
  | emit (escaped : Bool) (span span' : Span) : Linked link (.emit escaped span) (.emit escaped span')
  | repeated (key key' : Key) (linked : link.sections key key') :
      Linked link (.repeated key) (.repeated key')
  | unlessEmpty (skip : Nat) : Linked link (.unlessEmpty skip) (.unlessEmpty skip)
  | partialCall (name indent : String) :
      Linked link (.partialCall name indent) (.partialCall name indent)
  | parentCall (name indent : String) (given given' : List (String × Key))
      (linked : List.Forall₂ (fun entry entry' => entry.1 = entry'.1 ∧ link.blocks entry.2 entry'.2)
        given given') :
      Linked link (.parentCall name indent given) (.parentCall name indent given')
  | slot (name : String) (skip : Nat) : Linked link (.slot name skip) (.slot name skip)
  | strayArgument (name : String) : Linked link (.strayArgument name) (.strayArgument name)

/-- Lists of instructions that are alike one by one. -/
abbrev Instr.AllLinked (link : Link) : List Instr → List Instr → Prop := List.Forall₂ (Instr.Linked link)

/-- Programs in whose tables linked keys have bodies that are alike. -/
structure Program.Linked (link : Link) (program program' : Program) : Prop where
  escape : program'.escape = program.escape
  strictCallables : program'.strictCallables = program.strictCallables
  sections : ∀ key key', link.sections key key' →
    Option.Rel (fun sec sec' : Section => Instr.AllLinked link sec.instrs sec'.instrs)
      (Entries.get? key program.sections) (Entries.get? key' program'.sections)
  blocks : ∀ key key', link.blocks key key' →
    Option.Rel (Instr.AllLinked link) (Entries.get? key program.blocks) (Entries.get? key' program'.blocks)

namespace Instr

variable {link : Link}

theorem Linked.refl (instr : Instr) : Linked .same instr instr := by
  cases instr with
  | text text => exact .text text
  | lookup ref => exact .lookup ref.lookup ref.name ref.span ref.span
  | resolve span => exact .resolve span span
  | apply ref => exact .apply ref.lookup ref.name ref.span ref.span
  | emit escaped span => exact .emit escaped span span
  | «repeated» key => exact .repeated key key rfl
  | unlessEmpty skip => exact .unlessEmpty skip
  | partialCall name indent => exact .partialCall name indent
  | parentCall name indent given =>
    exact .parentCall name indent given given (List.forall₂_same.2 fun _ _ => ⟨rfl, rfl⟩)
  | slot name skip => exact .slot name skip
  | strayArgument name => exact .strayArgument name

theorem AllLinked.refl (instrs : List Instr) : AllLinked .same instrs instrs :=
  List.forall₂_same.2 fun instr _ => .refl instr

theorem AllLinked.append {first first' second second' : List Instr} (front : AllLinked link first first')
    (back : AllLinked link second second') : AllLinked link (first ++ second) (first' ++ second') :=
  List.rel_append front back

theorem Linked.of_respan_left {place : Span → Span} {instr instr' : Instr}
    (linked : (instr.respan place).Linked link instr') : instr.Linked link instr' := by
  cases instr with
  | lookup ref => cases linked with | lookup lookup name span span' => exact .lookup _ _ _ _
  | resolve span => cases linked with | resolve span span' => exact .resolve _ _
  | apply ref => cases linked with | apply lookup name span span' => exact .apply _ _ _ _
  | emit escaped span => cases linked with | emit escaped span span' => exact .emit _ _ _
  | _ => exact linked

theorem Linked.of_respan_right {place : Span → Span} {instr instr' : Instr}
    (linked : instr.Linked link (instr'.respan place)) : instr.Linked link instr' := by
  cases instr' with
  | lookup ref => cases linked with | lookup lookup name span span' => exact .lookup _ _ _ _
  | resolve span => cases linked with | resolve span span' => exact .resolve _ _
  | apply ref => cases linked with | apply lookup name span span' => exact .apply _ _ _ _
  | emit escaped span => cases linked with | emit escaped span span' => exact .emit _ _ _
  | _ => exact linked

/-- Where instructions point does not matter. -/
theorem AllLinked.of_respan {place place' : Span → Span} {instrs instrs' : List Instr}
    (linked : AllLinked link (instrs.map (respan place)) (instrs'.map (respan place'))) :
    AllLinked link instrs instrs' := by
  rw [AllLinked, List.forall₂_map_left_iff, List.forall₂_map_right_iff] at linked
  exact linked.imp fun _ _ linked => linked.of_respan_right.of_respan_left

end Instr

theorem Program.Linked.refl (program : Program) : program.Linked .same program where
  escape := rfl
  strictCallables := rfl
  sections := by
    rintro key _ rfl
    cases Entries.get? key program.sections with
    | none => exact .none
    | some sec => exact .some (.refl sec.instrs)
  blocks := by
    rintro key _ rfl
    cases Entries.get? key program.blocks with
    | none => exact .none
    | some instrs => exact .some (.refl instrs)

/-! ### Trees that stand elsewhere -/

/-- The keys of a body where it stands and where it stands in another source. -/
def Link.between (source source' : String) (place : Span → Span) (bodies : List Occurrence) : Link where
  sections key key' := ∃ o ∈ bodies, o.role = .repeated ∧ o.key source = key ∧
    (o.respan place).key source' = key'
  blocks key key' := ∃ o ∈ bodies, o.role = .argument ∧ o.key source = key ∧
    (o.respan place).key source' = key'

namespace Compile

variable {source source' : String} {place : Span → Span} {bodies : List Occurrence}

theorem linked_filters (link : Link) (set : Pragmas) (span span' : Span) (name : Name) :
    Instr.AllLinked link (filters set span name) (filters set span' name) := by
  rw [filters, filters, Instr.AllLinked, List.forall₂_map_left_iff, List.forall₂_map_right_iff]
  exact List.forall₂_same.2 fun filter _ => .apply _ _ _ _

theorem linked_filtered (link : Link) (set : Pragmas) (span span' : Span) (name : Name) :
    Instr.AllLinked link (filtered set span name) (filtered set span' name) :=
  .cons (.lookup _ _ _ _) (linked_filters link set span span' name)

theorem linked_resolved (link : Link) (set : Pragmas) (span span' : Span) (name : Name) :
    Instr.AllLinked link (resolved set span name) (resolved set span' name) :=
  .cons (.lookup _ _ _ _) (.cons (.resolve _ _) (linked_filters link set span span' name))

/-- A tree that stands elsewhere in another source is compiled to instructions that are alike. -/
theorem linked_plainOf {set : Pragmas} {nodes : List Node}
    (among : ∀ o ∈ Node.bodiesOf false set nodes, o ∈ bodies) :
    Instr.AllLinked (.between source source' place bodies) (plainOf source set nodes)
      (plainOf source' set (Node.respanAll place nodes)) := by
  induction nodes using Node.forest generalizing set with
  | nil => exact .nil
  | literal t rest ih => exact .cons (.text t.content) (ih among)
  | pragma t p rest ih => exact ih among
  | interpolation t name rest ih =>
    exact ((linked_resolved _ set t.span _ name).append (.cons (.emit _ _ _) .nil)).append (ih among)
  | partialRef t rest ih => exact .cons (.partialCall _ _) (ih among)
  | region role opening name nodes closing rest inner ih =>
    have switched : (Node.respan place (.region role opening name nodes closing)).pragmas =
        Node.pragmasOf nodes := Node.pragmasOf_respanAll place nodes
    have later := @ih (set.insertAll (Node.pragmasOf nodes)) fun o member =>
      among o (Node.mem_bodiesOf_region.2 (.inr member))
    rw [Node.respanAll, plainOf, plainOf, switched]
    refine .append ?_ later
    cases role with
    | «repeated» =>
      have member : ⟨.repeated, set, opening, nodes, closing⟩ ∈
          Node.bodiesOf false set (.region .repeated opening name nodes closing :: rest) :=
        Node.mem_bodiesOf_region.2 (.inl ⟨rfl, .inr ⟨rfl, rfl⟩⟩)
      have test := linked_filtered (.between source source' place bodies)
        (set.insertAll (Node.pragmasOf nodes)) opening.span (opening.respan place).span name
      rw [plain, Node.respan, plain, Node.pragmasOf_respanAll]
      exact test.append (.cons (.repeated _ _ ⟨_, among _ member, rfl, rfl, rfl⟩) .nil)
    | inverted =>
      have within := @inner set fun o member =>
        among o (Node.mem_bodiesOf_region.2 (.inl ⟨rfl, .inl member⟩))
      have test := linked_filtered (.between source source' place bodies) set opening.span
        (opening.respan place).span name
      rw [plain, Node.respan, plain, ← within.length_eq]
      exact test.append (.cons (.unlessEmpty _) within)
    | slot =>
      have within := @inner set fun o member =>
        among o (Node.mem_bodiesOf_region.2 (.inl ⟨rfl, .inl member⟩))
      rw [plain, Node.respan, plain, ← within.length_eq]
      exact .cons (.slot _ _) within
    | parent =>
      rw [plain, Node.respan, plain, argumentsOf_respanAll, List.map_map]
      refine .cons (.parentCall _ _ _ _ ?_) .nil
      rw [List.forall₂_map_left_iff, List.forall₂_map_right_iff]
      refine List.forall₂_same.2 fun entry given => ⟨rfl, entry.2, ?_, ?_, rfl, rfl⟩
      · exact among _ (Node.mem_bodiesOf_region.2 (.inl ⟨rfl, .inl (mem_bodiesOf_of_mem_argumentsOf given).1⟩))
      · exact (mem_bodiesOf_of_mem_argumentsOf given).2
    | argument => exact .cons (.strayArgument _) .nil

end Compile

/-- Programs made of a tree in one source and of the same tree elsewhere in another one. -/
theorem Program.Told.linked {dialect : Dialect} {source source' : String} {tree : List Node}
    {place : Span → Span} {program program' : Program}
    (parsed : parse dialect.pragmas source = .ok tree)
    (parsed' : parse dialect.pragmas source' = .ok (Node.respanAll place tree))
    (distinct : Hash.Distinct (Node.identities source dialect.pragmas tree))
    (distinct' : Hash.Distinct (Node.identities source' dialect.pragmas (Node.respanAll place tree)))
    (told : program.Told dialect source tree)
    (told' : program'.Told dialect source' (Node.respanAll place tree)) :
    program.Linked (.between source source' place (Node.bodiesOf false dialect.pragmas tree)) program' := by
  have moved {o : Occurrence} (member : o ∈ Node.bodiesOf false dialect.pragmas tree) :
      o.respan place ∈ Node.bodiesOf false dialect.pragmas (Node.respanAll place tree) := by
    rw [Node.bodiesOf_respanAll]
    exact List.mem_map_of_mem member
  -- What the tables hold for a body may stand elsewhere, but reads the same.
  have alike {o first first' : Occurrence} (member : o ∈ Node.bodiesOf false dialect.pragmas tree)
      (there : first ∈ Node.bodiesOf false dialect.pragmas tree) (same : first.key source = o.key source)
      (there' : first' ∈ Node.bodiesOf false dialect.pragmas (Node.respanAll place tree))
      (same' : first'.key source' = (o.respan place).key source') :
      Instr.AllLinked (.between source source' place (Node.bodiesOf false dialect.pragmas tree))
        (first.instrs source) (first'.instrs source') := by
    have own : Instr.AllLinked (.between source source' place (Node.bodiesOf false dialect.pragmas tree))
        (o.instrs source) ((o.respan place).instrs source') :=
      Compile.linked_plainOf fun inner => Node.mem_bodiesOf_trans member
    rw [Compile.instrs_of_key_eq parsed distinct there member same,
      Compile.instrs_of_key_eq parsed' distinct' there' (moved member) same'] at own
    exact own.of_respan
  refine ⟨told'.escape.trans told.escape.symm, told'.strictCallables.trans told.strictCallables.symm, ?_, ?_⟩
  · rintro _ _ ⟨o, member, role, rfl, rfl⟩
    obtain ⟨first, there, same, entry⟩ := told.exists_section member role
    obtain ⟨first', there', same', entry'⟩ := told'.exists_section (moved member) role
    rw [entry, entry']
    exact .some (alike member there same there' same')
  · rintro _ _ ⟨o, member, role, rfl, rfl⟩
    obtain ⟨first, there, same, entry⟩ := told.exists_block member role
    obtain ⟨first', there', same', entry'⟩ := told'.exists_block (moved member) role
    rw [entry, entry']
    exact .some (alike member there same there' same')

end Mustache
