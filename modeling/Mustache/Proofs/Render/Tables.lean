import Mathlib.Data.List.Find
import Mustache.Proofs.Render.Simulates

/-! What a program's tables hold for the bodies of the template that it is made of: the instructions
of the body itself, pointing into the first body that reads the same. -/
namespace Mustache.Render

open Markup Direct

/-- A section as the table holds it for a body. -/
structure Filed (w : World) (template : Template) (o : Occurrence) (sec : Section) : Prop where
  span : sec.span = placeOf w.env template o o.body.span
  text : sec.text = o.body.span.slice template.source
  changeTag : sec.changeTag = o.body.delims.changeTag?
  opening : sec.opening = o.body.delims.opening
  instrs : sec.instrs = (o.instrs template.source).map (Instr.respan (placeOf w.env template o))

/-- Nodes that stand in a template, perhaps deep within its regions. -/
structure Within (w : World) (template : Template) (set : Pragmas) (nodes : List Node) : Prop where
  bodies : ∀ o ∈ Node.bodiesOf false set nodes,
    o ∈ Node.bodiesOf false w.env.engine.pragmas template.tree
  pragmas : ∀ p ∈ Node.pragmasOf nodes, p ∈ Node.pragmasOf template.tree

variable {w : World} {program : Program} {template : Template} {set : Pragmas} {nodes : List Node}
  {o : Occurrence}

namespace Within

theorem whole (w : World) (template : Template) :
    Within w template w.env.engine.pragmas template.tree :=
  ⟨fun _ member => member, fun _ member => member⟩

theorem of_mem (member : o ∈ Node.bodiesOf false w.env.engine.pragmas template.tree) :
    Within w template o.pragmas o.nodes where
  bodies := fun _ within => Node.mem_bodiesOf_trans member within
  pragmas := fun _ within => Node.mem_pragmasOf_of_mem_bodiesOf member within

theorem tail {first : Node} (within : Within w template set (first :: nodes)) :
    Within w template (set.insertAll first.pragmas) nodes := by
  constructor
  · intro o member
    apply within.bodies
    rw [Node.bodiesOf]
    exact List.mem_append_right _ member
  · intro p member
    apply within.pragmas
    rw [Node.pragmasOf]
    exact List.mem_append_right _ member

theorem inner {role : Role} {opening closing : Token} {name : Name} {rest : List Node}
    (within : Within w template set (.region role opening name nodes closing :: rest))
    (counts : role.counts false = true) (notParent : role ≠ .parent) : Within w template set nodes := by
  constructor
  · intro o member
    apply within.bodies
    rw [Node.mem_bodiesOf_region, decide_eq_false notParent]
    exact .inl ⟨counts, .inl member⟩
  · intro p member
    apply within.pragmas
    rw [Node.pragmasOf]
    exact List.mem_append_left _ member

end Within

/-- Evaluation looks sections up as the program does, if it looks them up late or has nothing to
find out by then. -/
theorem lookup_of_sight {source : String} (readable : Readable w source)
    (parsed : parse w.env.engine.pragmas source = .ok template.tree)
    (within : ∀ p ∈ Node.pragmasOf nodes, p ∈ Node.pragmasOf template.tree) (name : String) :
    Lookup.of (w.sight.pragmas set nodes) name = Lookup.of (set.insertAll (Node.pragmasOf nodes)) name := by
  rcases readable.sighted with late | early
  · rw [late]
    rfl
  · cases w.sight with
    | late => rfl
    | early =>
      have silent : Pragma.anchoredDot ∉ Node.pragmasOf nodes :=
        fun member => early _ parsed (within _ member)
      have anchored := Pragmas.anchoredDot_insertAll set silent
      unfold Lookup.of
      rw [anchored]
      rfl

namespace Mirrors

theorem exists_first (mirrors : Mirrors w program template)
    (member : o ∈ Node.bodiesOf false w.env.engine.pragmas template.tree) :
    ∃ first ∈ Node.bodiesOf false w.env.engine.pragmas template.tree,
      first.key template.source = o.key template.source ∧
      placeOf w.env template o = .move o.body.span.start first.body.span.start ∧
      (o.role = .repeated →
        Entries.get? (o.key template.source) program.sections = some (first.toSection template.source)) ∧
      (o.role = .argument →
        Entries.get? (o.key template.source) program.blocks = some (first.instrs template.source)) := by
  have distinct := mirrors.readable.distinct _ mirrors.parsed
  have sameKey (b : Occurrence) (there : b ∈ Node.bodiesOf false w.env.engine.pragmas template.tree) :
      b.key template.source = o.key template.source ↔
        b.identity template.source = o.identity template.source :=
    ⟨distinct _ _ ⟨b, there, rfl⟩ ⟨o, member, rfl⟩, congrArg Hash.sha256⟩
  unfold placeOf
  cases found : (Node.bodiesOf false w.env.engine.pragmas template.tree).find? fun b =>
      b.role = o.role ∧ b.identity template.source = o.identity template.source with
  | none =>
    have absent := List.find?_eq_none.1 found o member
    simp at absent
  | some first =>
    have there := List.mem_of_find?_eq_some found
    have matched := List.find?_some found
    simp only [decide_eq_true_eq] at matched
    have byKey : (Node.bodiesOf false w.env.engine.pragmas template.tree).find? (fun b =>
        b.role = o.role ∧ b.key template.source = o.key template.source) = some first := by
      rw [← found]
      refine List.find?_congr fun b there => ?_
      simp only [sameKey b there]
    refine ⟨first, there, (sameKey first there).2 matched.2, rfl, ?_, ?_⟩
    · intro role
      rw [mirrors.told.sections, Compile.sectionOf?, Compile.findSome?_eq_find?, ← role]
      dsimp only [Engine.dialect]
      rw [byKey]
      rfl
    · intro role
      rw [mirrors.told.blocks, Compile.blockOf?, Compile.findSome?_eq_find?, ← role]
      dsimp only [Engine.dialect]
      rw [byKey]
      rfl

theorem exists_section (mirrors : Mirrors w program template)
    (member : o ∈ Node.bodiesOf false w.env.engine.pragmas template.tree) (role : o.role = .repeated) :
    ∃ sec, Entries.get? (o.key template.source) program.sections = some sec ∧
      Filed w template o sec := by
  have distinct := mirrors.readable.distinct _ mirrors.parsed
  obtain ⟨first, there, same, place, stored, -⟩ := mirrors.exists_first member
  obtain ⟨text, nodes, reads, reads', -, delims⟩ :=
    Compile.reads_of_key_eq mirrors.parsed distinct there member same
  refine ⟨_, stored role, ?_⟩
  constructor
  · have start := reads.covers.stop_eq
    have start' := reads'.covers.stop_eq
    rw [place]
    show first.body.span = _
    unfold Span.move
    rw [start', Nat.sub_self, Nat.zero_add, Nat.add_sub_cancel_left, Nat.add_comm, ← start]
  · show first.body.span.slice template.source = _
    rw [reads.covers.slice, reads'.covers.slice]
  · exact congrArg Delimiters.changeTag? delims
  · exact congrArg Delimiters.opening delims
  · rw [place]
    exact Compile.instrs_of_key_eq mirrors.parsed distinct member there same.symm

theorem exists_block (mirrors : Mirrors w program template)
    (member : o ∈ Node.bodiesOf false w.env.engine.pragmas template.tree) (role : o.role = .argument) :
    ∃ instrs, Entries.get? (o.key template.source) program.blocks = some instrs ∧
      instrs = (o.instrs template.source).map (Instr.respan (placeOf w.env template o)) := by
  obtain ⟨first, there, same, place, -, stored⟩ := mirrors.exists_first member
  refine ⟨_, stored role, ?_⟩
  rw [place]
  exact Compile.instrs_of_key_eq mirrors.parsed (mirrors.readable.distinct _ mirrors.parsed) member
    there same.symm

theorem exists_covers (mirrors : Mirrors w program template)
    (member : o ∈ Node.bodiesOf false w.env.engine.pragmas template.tree) :
    ∃ text, o.body.span.Covers template.source.toList text ∧
      text.length < template.source.length := by
  obtain ⟨text, covers, shorter⟩ := (fits_of_parse mirrors.parsed).body member
  exact ⟨text, covers, by rwa [String.length_toList] at shorter⟩

end Mirrors
end Mustache.Render
