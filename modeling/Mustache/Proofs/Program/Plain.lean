import Mustache.Proofs.Program.Locality

/-! The instructions of a tree told without tables: a body that is shared is compiled as if it were
the only one. Where the text of a body stands only moves the spans of its instructions. -/
namespace Mustache

open Markup

/-- The span of a text that stands in another place. -/
def Span.move (origin target : Nat) (span : Span) : Span :=
  ⟨span.start - origin + target, span.stop - origin + target⟩

@[simp] theorem Span.move_shift (origin target : Nat) (span : Span) :
    (span.shift origin).move origin target = span.shift target := by
  simp [move, shift]

/-- A reference, or an instruction, with other spans. -/
def Ref.respan (place : Span → Span) (ref : Ref) : Ref := { ref with span := place ref.span }

def Instr.respan (place : Span → Span) : Instr → Instr
  | lookup ref => lookup (ref.respan place)
  | resolve span => resolve (place span)
  | apply ref => apply (ref.respan place)
  | emit escaped span => emit escaped (place span)
  | instr => instr

/-- The place of the tag that an instruction comes from, where an error points at it. -/
def Instr.span? : Instr → Option Span
  | lookup ref | apply ref => some ref.span
  | resolve span | emit _ span => some span
  | _ => none

/-- The block arguments directly in a parent, in order, each with its name. -/
def Markup.Node.argumentsOf (set : Pragmas) : List Node → List (String × Occurrence)
  | [] => []
  | .region .argument opening name nodes closing :: rest =>
    (name.path, ⟨.argument, set, opening, nodes, closing⟩) ::
      argumentsOf (set.insertAll (Node.pragmasOf nodes)) rest
  | other :: rest => argumentsOf (set.insertAll other.pragmas) rest

namespace Compile

mutual

/-- The instructions of a tree with some pragmas switched on before it. The name of a section is
read with the pragmas of its body. -/
def plain (source : String) (set : Pragmas) : Node → List Instr
  | .literal text => [.text text.content]
  | .pragma _ _ => []
  | .variable tag name => resolved set tag.span name ++ [.emit (tag.kind = .escaped) tag.span]
  | .partialRef tag => [.partialCall tag.content tag.indent]
  | .region .repeated opening name nodes closing =>
    filtered (set.insertAll (Node.pragmasOf nodes)) opening.span name ++
      [.repeated ((Body.between opening closing).key source set)]
  | .region .inverted opening name nodes _ =>
    filtered set opening.span name ++
      .unlessEmpty (plainOf source set nodes).length :: plainOf source set nodes
  | .region .parent opening name nodes _ =>
    [.parentCall name.path opening.indent
      ((Node.argumentsOf set nodes).map fun (name, o) => (name, o.key source))]
  | .region .slot _ name nodes _ =>
    .slot name.path (plainOf source set nodes).length :: plainOf source set nodes
  | .region .argument _ name _ _ => [.strayArgument name.path]
  termination_by structural node => node

def plainOf (source : String) (set : Pragmas) : List Node → List Instr
  | [] => []
  | node :: rest => plain source set node ++ plainOf source (set.insertAll node.pragmas) rest
  termination_by structural nodes => nodes

end

end Compile

namespace Occurrence

def instrs (source : String) (o : Occurrence) : List Instr :=
  Compile.plainOf source o.pragmas o.nodes

def toSection (source : String) (o : Occurrence) : Section :=
  ⟨o.body.span, o.body.span.slice source, o.body.delims.changeTag?, o.body.delims.opening,
    o.instrs source⟩

end Occurrence

namespace Compile

variable {source : String} {text : List Char} {offset : Nat}

theorem filtered_respan (place : Span → Span) (set : Pragmas) (span : Span) (name : Name) :
    (filtered set span name).map (Instr.respan place) = filtered set (place span) name := by
  simp only [filtered, filters, List.map_cons, List.map_map]
  rfl

theorem resolved_respan (place : Span → Span) (set : Pragmas) (span : Span) (name : Name) :
    (resolved set span name).map (Instr.respan place) = resolved set (place span) name := by
  simp only [resolved, filters, List.map_cons, List.map_map]
  rfl

theorem argumentsOf_respanAll (place : Span → Span) (set : Pragmas) (nodes : List Node) :
    Node.argumentsOf set (Node.respanAll place nodes) =
      (Node.argumentsOf set nodes).map fun (name, o) => (name, o.respan place) := by
  induction nodes using Node.forest generalizing set with
  | nil => rfl
  | literal t rest ih => exact ih _
  | pragma t p rest ih => exact ih _
  | interpolation t name rest ih => exact ih _
  | partialRef t rest ih => exact ih _
  | region role opening name nodes closing rest inner ih =>
    have later := ih (set.insertAll (Node.pragmasOf nodes))
    cases role <;>
      simp [Node.respanAll, Node.respan, Node.argumentsOf, Node.pragmas, Node.pragmasOf_respanAll,
        later, Occurrence.respan]

theorem argumentsOf_shiftAll (set : Pragmas) (nodes : List Node) :
    Node.argumentsOf set (Node.shiftAll offset nodes) =
      (Node.argumentsOf set nodes).map fun (name, o) => (name, o.shift offset) := by
  rw [Node.shiftAll_eq_respanAll, argumentsOf_respanAll, Occurrence.shift_eq_respan]

theorem mem_bodiesOf_of_mem_argumentsOf {set : Pragmas} {nodes : List Node} {name : String}
    {o : Occurrence} (member : (name, o) ∈ Node.argumentsOf set nodes) :
    o ∈ Node.bodiesOf true set nodes ∧ o.role = .argument := by
  induction nodes using Node.forest generalizing set with
  | nil => cases member
  | literal t rest ih => exact ih member
  | pragma t p rest ih => exact ih member
  | interpolation t name rest ih => exact ih member
  | partialRef t rest ih => exact ih member
  | region role opening name' nodes closing rest inner ih =>
    rw [Node.mem_bodiesOf_region]
    cases role with
    | argument =>
      rcases List.mem_cons.1 member with same | later
      · rw [Prod.mk.injEq] at same
        exact ⟨.inl ⟨rfl, .inr ⟨rfl, same.2⟩⟩, by rw [same.2]⟩
      · obtain ⟨there, role⟩ := ih later
        exact ⟨.inr there, role⟩
    | «repeated» | inverted | parent | slot =>
      obtain ⟨there, role⟩ := ih member
      exact ⟨.inr there, role⟩

theorem key_shift {o : Occurrence} {front back part : List Char}
    (whole : source.toList = front ++ text ++ back) (start : offset = Text.byteSize front)
    (covers : o.body.span.Covers text part) :
    (o.shift offset).key source = o.key (.ofList text) := by
  have slice : (o.shift offset).body.span.slice source = o.body.span.slice (.ofList text) := by
    rw [start]
    exact covers.slice_shift whole
  unfold Occurrence.key Body.key Body.identity
  rw [slice]
  rfl

theorem exists_tag_of_mem_plainOf {set : Pragmas} {nodes : List Node} {instr : Instr} {span : Span}
    (member : instr ∈ plainOf source set nodes) (placed : instr.span? = some span) :
    ∃ t ∈ Node.tokensOf nodes, t.span = span := by
  have named {set : Pragmas} {span' : Span} {name : Name} (there : instr ∈ filters set span' name) :
      span' = span := by
    obtain ⟨filter, -, rfl⟩ := List.mem_map.1 there
    exact Option.some.inj placed
  induction nodes using Node.forest generalizing set with
  | nil => cases member
  | literal t rest ih =>
    rcases List.mem_cons.1 member with rfl | later
    · cases placed
    · obtain ⟨u, there, same⟩ := ih later
      exact ⟨u, List.mem_append_right _ there, same⟩
  | pragma t p rest ih =>
    obtain ⟨u, there, same⟩ := ih member
    exact ⟨u, List.mem_append_right _ there, same⟩
  | interpolation t name rest ih =>
    rcases List.mem_append.1 member with here | later
    · refine ⟨t, List.mem_append_left _ (List.mem_singleton_self t), ?_⟩
      rcases List.mem_append.1 here with found | last
      · rcases List.mem_cons.1 found with rfl | found
        · exact Option.some.inj placed
        · rcases List.mem_cons.1 found with rfl | filtered
          · exact Option.some.inj placed
          · exact named filtered
      · rw [List.mem_singleton.1 last] at placed
        exact Option.some.inj placed
    · obtain ⟨u, there, same⟩ := ih later
      exact ⟨u, List.mem_append_right _ there, same⟩
  | partialRef t rest ih =>
    rcases List.mem_cons.1 member with rfl | later
    · cases placed
    · obtain ⟨u, there, same⟩ := ih later
      exact ⟨u, List.mem_append_right _ there, same⟩
  | region role opening name nodes closing rest inner ih =>
    have first : opening ∈ Node.tokensOf (.region role opening name nodes closing :: rest) :=
      List.mem_append_left _ (List.mem_append_left _ List.mem_cons_self)
    have deep {u : Token} (there : u ∈ Node.tokensOf nodes) :
        u ∈ Node.tokensOf (.region role opening name nodes closing :: rest) :=
      List.mem_append_left _ (List.mem_append_left _ (List.mem_cons_of_mem _ there))
    rcases List.mem_append.1 member with here | later
    · cases role with
      | «repeated» =>
        rcases List.mem_append.1 here with found | last
        · refine ⟨opening, first, ?_⟩
          rcases List.mem_cons.1 found with rfl | filtered
          · exact Option.some.inj placed
          · exact named filtered
        · rw [List.mem_singleton.1 last] at placed
          cases placed
      | inverted =>
        rcases List.mem_append.1 here with found | last
        · refine ⟨opening, first, ?_⟩
          rcases List.mem_cons.1 found with rfl | filtered
          · exact Option.some.inj placed
          · exact named filtered
        · rcases List.mem_cons.1 last with rfl | within
          · cases placed
          · obtain ⟨u, there, same⟩ := inner within
            exact ⟨u, deep there, same⟩
      | slot =>
        rcases List.mem_cons.1 here with rfl | within
        · cases placed
        · obtain ⟨u, there, same⟩ := inner within
          exact ⟨u, deep there, same⟩
      | parent | argument =>
        rw [List.mem_singleton.1 here] at placed
        cases placed
    · obtain ⟨u, there, same⟩ := ih later
      exact ⟨u, List.mem_append_right _ there, same⟩

/-- A tree that stands in a part of the source is compiled as in that part, apart from the spans. -/
theorem plainOf_shiftAll {front back : List Char} (whole : source.toList = front ++ text ++ back)
    (start : offset = Text.byteSize front) (set : Pragmas) {nodes : List Node}
    (fits : Fits text nodes) :
    plainOf source set (Node.shiftAll offset nodes) =
      (plainOf (.ofList text) set nodes).map (Instr.respan (Span.shift offset)) := by
  induction nodes using Node.forest generalizing set with
  | nil => rfl
  | literal t rest ih =>
    simp only [Node.shiftAll, Node.shift, plainOf, plain, Node.pragmas, ih _ fits.tail,
      List.map_append]
    rfl
  | pragma t p rest ih =>
    simp only [Node.shiftAll, Node.shift, plainOf, plain, Node.pragmas, ih _ fits.tail,
      List.map_append]
    rfl
  | interpolation t name rest ih =>
    simp only [Node.shiftAll, Node.shift, plainOf, plain, Node.pragmas, ih _ fits.tail,
      List.map_append, resolved_respan]
    rfl
  | partialRef t rest ih =>
    simp only [Node.shiftAll, Node.shift, plainOf, plain, Node.pragmas, ih _ fits.tail,
      List.map_append]
    rfl
  | region role opening name nodes closing rest inner ih =>
    have later := ih (set.insertAll (Node.pragmasOf nodes)) fits.tail
    have within := inner set fits.inside
    cases role with
    | «repeated» =>
      have member : ⟨.repeated, set, opening, nodes, closing⟩ ∈
          Node.bodiesOf false set (.region .repeated opening name nodes closing :: rest) :=
        Node.mem_bodiesOf_region.2 (.inl ⟨rfl, .inr ⟨rfl, rfl⟩⟩)
      obtain ⟨part, covers, -⟩ := fits.body member
      have key := key_shift whole start covers
      simp only [Occurrence.key, Occurrence.shift, Occurrence.body] at key
      simp only [Node.shiftAll, Node.shift, plainOf, plain, Node.pragmas, Node.pragmasOf_shiftAll,
        later, List.map_append, filtered_respan, key]
      rfl
    | inverted =>
      simp only [Node.shiftAll, Node.shift, plainOf, plain, Node.pragmas, Node.pragmasOf_shiftAll,
        later, within, List.map_append, List.map_cons, List.length_map, filtered_respan]
      rfl
    | slot =>
      simp only [Node.shiftAll, Node.shift, plainOf, plain, Node.pragmas, Node.pragmasOf_shiftAll,
        later, within, List.map_append, List.map_cons, List.length_map]
      rfl
    | parent =>
      have keys : (Node.argumentsOf set (Node.shiftAll offset nodes)).map
          (fun (name, o) => (name, o.key source)) =
            (Node.argumentsOf set nodes).map fun (name, o) => (name, o.key (.ofList text)) := by
        rw [argumentsOf_shiftAll, List.map_map]
        refine List.map_congr_left ?_
        rintro ⟨name, o⟩ given
        obtain ⟨part, covers, -⟩ := fits.inside.body (mem_bodiesOf_of_mem_argumentsOf given).1
        simp only [Function.comp_apply, key_shift whole start covers]
      simp only [Node.shiftAll, Node.shift, plainOf, plain, Node.pragmas, Node.pragmasOf_shiftAll,
        later, keys, List.map_append]
      rfl
    | argument =>
      simp only [Node.shiftAll, Node.shift, plainOf, plain, Node.pragmas, Node.pragmasOf_shiftAll,
        later, List.map_append]
      rfl

end Compile
end Mustache
