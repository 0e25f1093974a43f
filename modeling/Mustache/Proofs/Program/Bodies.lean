import Mustache.Proofs.Markup.Moved

/-! The bodies of sections and block arguments in a tree, each with the pragmas in force where it
starts. A body is read as if its text were a source of its own. -/
namespace Mustache

open Markup

/-- A section or block argument where it stands. -/
structure Occurrence where
  role : Role
  /-- The pragmas switched on before its nodes. -/
  pragmas : Pragmas
  opening : Token
  nodes : List Node
  closing : Token

namespace Occurrence

def body (o : Occurrence) : Body := .between o.opening o.closing

def identity (source : String) (o : Occurrence) : String := o.body.identity source o.pragmas

def key (source : String) (o : Occurrence) : Key := o.body.key source o.pragmas

def shift (offset : Nat) (o : Occurrence) : Occurrence :=
  { o with
    opening := o.opening.shift offset
    nodes := Node.shiftAll offset o.nodes
    closing := o.closing.shift offset }

def respan (place : Span → Span) (o : Occurrence) : Occurrence :=
  { o with
    opening := o.opening.respan place
    nodes := Node.respanAll place o.nodes
    closing := o.closing.respan place }

theorem shift_eq_respan (offset : Nat) : shift offset = respan (Span.shift offset) := by
  funext o
  rw [shift, respan, Node.shiftAll_eq_respanAll]
  rfl

end Occurrence

namespace Markup

/-- Whether regions of this role have their bodies in tables. -/
def Role.isShared : Role → Bool
  | repeated | argument => true
  | inverted | parent | slot => false

/-- Whether regions of this role count, directly in a parent or not. -/
def Role.counts (inParent : Bool) (role : Role) : Bool := (role = .argument) == inParent

namespace Node

mutual

/-- The bodies in a tree that is directly in a parent or not, inner ones before the one around
them. Of what a parent holds only its block arguments count. -/
def bodies (inParent : Bool) (set : Pragmas) : Node → List Occurrence
  | region role opening _ nodes closing =>
    if role.counts inParent then
      bodiesOf (role = .parent) set nodes ++
        (if role.isShared then [⟨role, set, opening, nodes, closing⟩] else [])
    else []
  | _ => []
  termination_by structural node => node

def bodiesOf (inParent : Bool) (set : Pragmas) : List Node → List Occurrence
  | [] => []
  | node :: rest => bodies inParent set node ++ bodiesOf inParent (set.insertAll node.pragmas) rest
  termination_by structural nodes => nodes

end

variable {o : Occurrence} {inParent : Bool} {set : Pragmas}

theorem mem_bodies_region {role : Role} {opening closing : Token} {name : Name} {nodes : List Node} :
    o ∈ (region role opening name nodes closing).bodies inParent set ↔
      role.counts inParent = true ∧ (o ∈ bodiesOf (role = .parent) set nodes ∨
        role.isShared = true ∧ o = ⟨role, set, opening, nodes, closing⟩) := by
  unfold bodies
  cases role.counts inParent <;> cases role.isShared <;> simp

theorem mem_bodiesOf_region {role : Role} {opening closing : Token} {name : Name}
    {nodes rest : List Node} :
    o ∈ bodiesOf inParent set (region role opening name nodes closing :: rest) ↔
      role.counts inParent = true ∧ (o ∈ bodiesOf (role = .parent) set nodes ∨
        role.isShared = true ∧ o = ⟨role, set, opening, nodes, closing⟩) ∨
      o ∈ bodiesOf inParent (set.insertAll (pragmasOf nodes)) rest := by
  rw [bodiesOf, List.mem_append, mem_bodies_region]
  rfl

theorem not_parent_of_isShared {role : Role} (shared : role.isShared = true) :
    decide (role = .parent) = false := by
  cases role <;> first
    | rfl
    | cases shared

theorem mem_bodiesOf_trans {nodes : List Node} {inner : Occurrence}
    (member : o ∈ bodiesOf inParent set nodes) (within : inner ∈ bodiesOf false o.pragmas o.nodes) :
    inner ∈ bodiesOf inParent set nodes := by
  induction nodes using forest generalizing inParent set with
  | nil => cases member
  | literal t rest ih => exact ih member
  | pragma t p rest ih => exact ih member
  | interpolation t name rest ih => exact ih member
  | partialRef t rest ih => exact ih member
  | region role opening name nodes closing rest deeper ih =>
    rw [mem_bodiesOf_region] at member ⊢
    rcases member with ⟨counts, deep | ⟨shared, rfl⟩⟩ | later
    · exact .inl ⟨counts, .inl (deeper deep)⟩
    · rw [not_parent_of_isShared shared]
      exact .inl ⟨counts, .inl within⟩
    · exact .inr (ih later)

theorem mem_pragmasOf_of_mem_bodiesOf {nodes : List Node} {p : Pragma}
    (member : o ∈ bodiesOf inParent set nodes) (within : p ∈ pragmasOf o.nodes) :
    p ∈ pragmasOf nodes := by
  induction nodes using forest generalizing inParent set with
  | nil => cases member
  | literal t rest ih => exact ih member
  | pragma t q rest ih => exact List.mem_cons_of_mem q (ih member)
  | interpolation t name rest ih => exact ih member
  | partialRef t rest ih => exact ih member
  | region role opening name nodes closing rest deeper ih =>
    rw [pragmasOf]
    rcases mem_bodiesOf_region.1 member with ⟨-, deep | ⟨-, rfl⟩⟩ | later
    · exact List.mem_append_left _ (deeper deep)
    · exact List.mem_append_left _ within
    · exact List.mem_append_right _ (ih later)

theorem bodiesOf_respanAll (place : Span → Span) (nodes : List Node) :
    bodiesOf inParent set (respanAll place nodes) =
      (bodiesOf inParent set nodes).map (Occurrence.respan place) := by
  induction nodes using forest generalizing inParent set with
  | nil => rfl
  | literal t rest ih => exact ih
  | pragma t p rest ih => exact ih
  | interpolation t name rest ih => exact ih
  | partialRef t rest ih => exact ih
  | region role opening name nodes closing rest inner ih =>
    simp only [respanAll, respan, bodiesOf, bodies, pragmas, pragmasOf_respanAll, inner, ih,
      List.map_append]
    cases role.counts inParent <;> cases role.isShared <;> simp [Occurrence.respan]

theorem bodiesOf_shiftAll (offset : Nat) (nodes : List Node) :
    bodiesOf inParent set (shiftAll offset nodes) =
      (bodiesOf inParent set nodes).map (Occurrence.shift offset) := by
  rw [shiftAll_eq_respanAll, bodiesOf_respanAll, Occurrence.shift_eq_respan]

theorem tokensOf_sublist_of_mem {nodes : List Node} (member : o ∈ bodiesOf inParent set nodes) :
    (o.opening :: tokensOf o.nodes ++ [o.closing]).Sublist (tokensOf nodes) := by
  induction nodes using forest generalizing inParent set with
  | nil => cases member
  | literal t rest ih => exact (ih member).cons t
  | pragma t p rest ih => exact (ih member).cons t
  | interpolation t name rest ih => exact (ih member).cons t
  | partialRef t rest ih => exact (ih member).cons t
  | region role opening name nodes closing rest inner ih =>
    simp only [tokensOf, tokens]
    rcases mem_bodiesOf_region.1 member with ⟨-, deep | ⟨-, rfl⟩⟩ | later
    · have around : (tokensOf nodes).Sublist (opening :: tokensOf nodes ++ [closing]) :=
        ((List.Sublist.refl _).cons opening).trans (List.sublist_append_left _ _)
      exact ((inner deep).trans around).trans (List.sublist_append_left _ _)
    · exact List.sublist_append_left _ _
    · exact (ih later).trans (List.sublist_append_right _ _)

end Node

/-- A body stands between its tags, and its nodes are the tree of the tokens there. -/
theorem Nests.split_of_mem {inParent : Bool} {set : Pragmas} {tokens : List Token}
    {nodes : List Node} (nests : Nests inParent set tokens nodes) {o : Occurrence}
    (member : o ∈ Node.bodiesOf inParent set nodes) :
    ∃ before inner after, tokens = before ++ o.opening :: (inner ++ o.closing :: after) ∧
      o.opening.kind.opens = true ∧ o.closing.kind = .close ∧
      o.pragmas = set.insertAll (pragmasIn before) ∧ Nests false o.pragmas inner o.nodes := by
  induction nests with
  | nil => cases member
  | literal inParent set t tokens nodes kind rest ih =>
    obtain ⟨before, inner, after, rfl, opens, closes, switched, inside⟩ := ih member
    refine ⟨t :: before, inner, after, rfl, opens, closes, ?_, inside⟩
    rw [pragmasIn_cons_of_none _ (Token.switched?_of_ne (by rw [kind]; decide)), switched]
  | silent inParent set t tokens nodes kind rest ih =>
    obtain ⟨before, inner, after, rfl, opens, closes, switched, inside⟩ := ih member
    refine ⟨t :: before, inner, after, rfl, opens, closes, ?_, inside⟩
    rcases kind with kind | kind | ⟨kind, unknown⟩
    · rw [pragmasIn_cons_of_none _ (Token.switched?_of_ne (by rw [kind]; decide)), switched]
    · rw [pragmasIn_cons_of_none _ (Token.switched?_of_ne (by rw [kind]; decide)), switched]
    · rw [pragmasIn_cons_of_none _ (by rw [Token.switched?, if_pos kind, unknown]), switched]
  | pragma inParent set t p tokens nodes kind known rest ih =>
    obtain ⟨before, inner, after, rfl, opens, closes, switched, inside⟩ := ih member
    refine ⟨t :: before, inner, after, rfl, opens, closes, ?_, inside⟩
    rw [pragmasIn_cons_of_some _ (by rw [Token.switched?, if_pos kind, known]), switched]
    rfl
  | interpolation inParent set t tokens nodes kind rest ih =>
    obtain ⟨before, inner, after, rfl, opens, closes, switched, inside⟩ := ih member
    refine ⟨t :: before, inner, after, rfl, opens, closes, ?_, inside⟩
    have other : t.kind ≠ .pragma := by rcases kind with kind | kind <;> rw [kind] <;> decide
    rw [pragmasIn_cons_of_none _ (Token.switched?_of_ne other), switched]
  | partialRef inParent set t tokens nodes kind rest ih =>
    obtain ⟨before, inner, after, rfl, opens, closes, switched, inside⟩ := ih member
    refine ⟨t :: before, inner, after, rfl, opens, closes, ?_, inside⟩
    rw [pragmasIn_cons_of_none _ (Token.switched?_of_ne (by rw [kind]; decide)), switched]
  | region inParent set opening closing inner tokens nodes more opens closes inside same rest ih ih' =>
    have parent := Kind.decide_role_parent inParent opens
    have first : opening.switched? = none :=
      Token.switched?_of_ne (Kind.ne_pragma_of_opens opens)
    rw [Node.mem_bodiesOf_region, parent] at member
    rcases member with ⟨-, deep | ⟨shared, rfl⟩⟩ | later
    · obtain ⟨before, inner', after, rfl, opens', closes', switched, inside'⟩ := ih deep
      refine ⟨opening :: before, inner', after ++ closing :: tokens, by simp, opens', closes', ?_,
        inside'⟩
      rw [pragmasIn_cons_of_none _ first, switched]
    · refine ⟨[], inner, tokens, by simp, opens, closes, rfl, ?_⟩
      have notParent := Node.not_parent_of_isShared shared
      rw [parent] at notParent
      rwa [notParent] at inside
    · rw [inside.pragmasOf_eq] at later
      obtain ⟨before, inner', after, rfl, opens', closes', switched, inside'⟩ := ih' later
      refine ⟨opening :: inner ++ closing :: before, inner', after, by simp, opens', closes', ?_,
        inside'⟩
      rw [pragmasIn_region inner before opens closes, Pragmas.insertAll_append, switched]

end Markup
end Mustache
