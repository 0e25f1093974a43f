import Mustache.Program.Compile
import Mustache.Proofs.Markup.Nests
import Mustache.Proofs.Markup.Scanned
import Mustache.Proofs.Markup.Tidied

/-! Trees moved along a source, and the tags that they are made of. Where a text stands only moves
the tree that is read from it. -/
namespace Mustache.Markup

/-- A token that stands in another place. -/
def Token.respan (place : Span → Span) (t : Token) : Token := { t with span := place t.span }

namespace Node

/-- Lists of trees by their first tree, and by the trees within it. -/
@[elab_as_elim] theorem forest {motive : List Node → Prop} (nil : motive [])
    (literal : ∀ t rest, motive rest → motive (.literal t :: rest))
    (pragma : ∀ t p rest, motive rest → motive (.pragma t p :: rest))
    (interpolation : ∀ t name rest, motive rest → motive (.variable t name :: rest))
    (partialRef : ∀ t rest, motive rest → motive (.partialRef t :: rest))
    (region : ∀ role opening name nodes closing rest, motive nodes → motive rest →
      motive (.region role opening name nodes closing :: rest))
    (nodes : List Node) : motive nodes := by
  have one (node : Node) : ∀ rest, motive rest → motive (node :: rest) :=
    Node.rec (motive_1 := fun node => ∀ rest, motive rest → motive (node :: rest))
      (motive_2 := motive) (fun t => literal t) (fun t p => pragma t p)
      (fun t name => interpolation t name) (fun t => partialRef t)
      (fun role opening name nodes closing inner rest => region role opening name nodes closing rest inner)
      nil (fun _ rest first => first rest) node
  induction nodes with
  | nil => exact nil
  | cons node rest ih => exact one node rest ih

mutual

def shift (offset : Nat) : Node → Node
  | literal t => literal (t.shift offset)
  | pragma t p => pragma (t.shift offset) p
  | «variable» t name => «variable» (t.shift offset) name
  | partialRef t => partialRef (t.shift offset)
  | region role opening name nodes closing =>
    region role (opening.shift offset) name (shiftAll offset nodes) (closing.shift offset)
  termination_by structural node => node

def shiftAll (offset : Nat) : List Node → List Node
  | [] => []
  | node :: rest => shift offset node :: shiftAll offset rest
  termination_by structural nodes => nodes

end

mutual

/-- A tree with other spans. -/
def respan (place : Span → Span) : Node → Node
  | literal t => literal (t.respan place)
  | pragma t p => pragma (t.respan place) p
  | «variable» t name => «variable» (t.respan place) name
  | partialRef t => partialRef (t.respan place)
  | region role opening name nodes closing =>
    region role (opening.respan place) name (respanAll place nodes) (closing.respan place)
  termination_by structural node => node

def respanAll (place : Span → Span) : List Node → List Node
  | [] => []
  | node :: rest => respan place node :: respanAll place rest
  termination_by structural nodes => nodes

end

mutual

def tokens : Node → List Token
  | literal t | pragma t _ | «variable» t _ | partialRef t => [t]
  | region _ opening _ nodes closing => opening :: tokensOf nodes ++ [closing]
  termination_by structural node => node

def tokensOf : List Node → List Token
  | [] => []
  | node :: rest => tokens node ++ tokensOf rest
  termination_by structural nodes => nodes

end

theorem shiftAll_eq_respanAll (offset : Nat) (nodes : List Node) :
    shiftAll offset nodes = respanAll (Span.shift offset) nodes := by
  induction nodes using forest with
  | nil => rfl
  | literal t rest ih => rw [shiftAll, respanAll, ih]; rfl
  | pragma t p rest ih => rw [shiftAll, respanAll, ih]; rfl
  | interpolation t name rest ih => rw [shiftAll, respanAll, ih]; rfl
  | partialRef t rest ih => rw [shiftAll, respanAll, ih]; rfl
  | region role opening name nodes closing rest inner ih =>
    rw [shiftAll, respanAll, shift, respan, inner, ih]
    rfl

theorem shiftAll_eq_map (offset : Nat) (nodes : List Node) :
    shiftAll offset nodes = nodes.map (shift offset) := by
  induction nodes with
  | nil => rfl
  | cons node rest ih => rw [shiftAll, ih, List.map_cons]

theorem shiftAll_reverse (offset : Nat) (nodes : List Node) :
    shiftAll offset nodes.reverse = (shiftAll offset nodes).reverse := by
  rw [shiftAll_eq_map, shiftAll_eq_map, List.map_reverse]

theorem pragmasOf_respanAll (place : Span → Span) (nodes : List Node) :
    pragmasOf (respanAll place nodes) = pragmasOf nodes := by
  induction nodes using forest with
  | nil => rfl
  | literal t rest ih => simp only [respanAll, respan, pragmasOf, pragmas, ih]
  | pragma t p rest ih => simp only [respanAll, respan, pragmasOf, pragmas, ih]
  | interpolation t name rest ih => simp only [respanAll, respan, pragmasOf, pragmas, ih]
  | partialRef t rest ih => simp only [respanAll, respan, pragmasOf, pragmas, ih]
  | region role opening name nodes closing rest inner ih =>
    simp only [respanAll, respan, pragmasOf, pragmas, inner, ih]

theorem pragmasOf_shiftAll (offset : Nat) (nodes : List Node) :
    pragmasOf (shiftAll offset nodes) = pragmasOf nodes := by
  rw [shiftAll_eq_respanAll, pragmasOf_respanAll]

theorem shiftAll_zero (nodes : List Node) : shiftAll 0 nodes = nodes := by
  have token (t : Token) : t.shift 0 = t := rfl
  induction nodes using forest with
  | nil => rfl
  | literal t rest ih => simp only [shiftAll, shift, token, ih]
  | pragma t p rest ih => simp only [shiftAll, shift, token, ih]
  | interpolation t name rest ih => simp only [shiftAll, shift, token, ih]
  | partialRef t rest ih => simp only [shiftAll, shift, token, ih]
  | region role opening name nodes closing rest inner ih =>
    simp only [shiftAll, shift, token, inner, ih]

end Node

namespace Nests

variable {inParent : Bool} {set : Pragmas} {tokens : List Token} {nodes : List Node}

theorem pragmasOf_eq (nests : Nests inParent set tokens nodes) :
    Node.pragmasOf nodes = pragmasIn tokens := by
  induction nests with
  | nil => rfl
  | literal inParent set t tokens nodes kind rest ih =>
    rw [pragmasIn_cons_of_none _ (Token.switched?_of_ne (by rw [kind]; decide)), ← ih]
    rfl
  | silent inParent set t tokens nodes kind rest ih =>
    rcases kind with kind | kind | ⟨kind, unknown⟩
    · rw [pragmasIn_cons_of_none _ (Token.switched?_of_ne (by rw [kind]; decide)), ih]
    · rw [pragmasIn_cons_of_none _ (Token.switched?_of_ne (by rw [kind]; decide)), ih]
    · rw [pragmasIn_cons_of_none _ (by rw [Token.switched?, if_pos kind, unknown]), ih]
  | pragma inParent set t p tokens nodes kind known rest ih =>
    rw [pragmasIn_cons_of_some _ (by rw [Token.switched?, if_pos kind, known]), ← ih]
    rfl
  | interpolation inParent set t tokens nodes kind rest ih =>
    have other : t.kind ≠ .pragma := by rcases kind with kind | kind <;> rw [kind] <;> decide
    rw [pragmasIn_cons_of_none _ (Token.switched?_of_ne other), ← ih]
    rfl
  | partialRef inParent set t tokens nodes kind rest ih =>
    rw [pragmasIn_cons_of_none _ (Token.switched?_of_ne (by rw [kind]; decide)), ← ih]
    rfl
  | region inParent set opening closing inner tokens nodes more opens closes inside same rest ih ih' =>
    rw [pragmasIn_region inner tokens opens closes, ← ih, ← ih']
    rfl

theorem tokensOf_sublist (nests : Nests inParent set tokens nodes) :
    (Node.tokensOf nodes).Sublist tokens := by
  induction nests with
  | nil => exact .slnil
  | literal inParent set t tokens nodes kind rest ih => exact ih.cons_cons t
  | silent inParent set t tokens nodes kind rest ih => exact ih.cons t
  | pragma inParent set t p tokens nodes kind known rest ih => exact ih.cons_cons t
  | interpolation inParent set t tokens nodes kind rest ih => exact ih.cons_cons t
  | partialRef inParent set t tokens nodes kind rest ih => exact ih.cons_cons t
  | region inParent set opening closing inner tokens nodes more opens closes inside same rest ih ih' =>
    have whole := (ih.append (ih'.cons_cons closing)).cons_cons opening
    simpa [Node.tokensOf, Node.tokens] using whole

theorem uncons {tree : Node} {trees : List Node}
    (nests : Nests inParent set tokens (tree :: trees)) :
    ∃ first second, Nests inParent set first [tree] ∧
      Nests inParent (set.insertAll tree.pragmas) second trees := by
  generalize whole : tree :: trees = nodes at nests
  induction nests with
  | nil => cases whole
  | literal inParent set t tokens nodes kind rest ih =>
    obtain ⟨rfl, rfl⟩ := List.cons.inj whole
    exact ⟨[t], tokens, .literal _ _ t _ _ kind (.nil _ _), rest⟩
  | silent inParent set t tokens nodes kind rest ih => exact ih whole
  | pragma inParent set t p tokens nodes kind known rest ih =>
    obtain ⟨rfl, rfl⟩ := List.cons.inj whole
    exact ⟨[t], tokens, .pragma _ _ t p _ _ kind known (.nil _ _), rest⟩
  | interpolation inParent set t tokens nodes kind rest ih =>
    obtain ⟨rfl, rfl⟩ := List.cons.inj whole
    exact ⟨[t], tokens, .interpolation _ _ t _ _ kind (.nil _ _), rest⟩
  | partialRef inParent set t tokens nodes kind rest ih =>
    obtain ⟨rfl, rfl⟩ := List.cons.inj whole
    exact ⟨[t], tokens, .partialRef _ _ t _ _ kind (.nil _ _), rest⟩
  | region inParent set opening closing inner tokens nodes more opens closes inside same rest ih ih' =>
    obtain ⟨rfl, rfl⟩ := List.cons.inj whole
    refine ⟨_, tokens, .region _ _ opening closing inner [] nodes [] opens closes inside same
      (.nil _ _), ?_⟩
    rw [← inside.pragmasOf_eq] at rest
    exact rest

theorem inside_of_region {role : Role} {opening closing : Token} {name : Name} {inner rest : List Node}
    (nests : Nests inParent set tokens (.region role opening name inner closing :: rest)) :
    ∃ within, Nests (role = .parent) set within inner := by
  generalize whole : Node.region role opening name inner closing :: rest = nodes at nests
  induction nests with
  | silent inParent set t tokens nodes kind rest ih => exact ih whole
  | region inParent set opening' closing within tokens nodes more opens closes inside _ _ _ _ =>
    obtain ⟨same, -⟩ := List.cons.inj whole
    obtain ⟨rfl, -, -, rfl, -⟩ := Node.region.inj same
    refine ⟨within, ?_⟩
    rwa [Kind.decide_role_parent inParent opens]
  | nil | literal | pragma | interpolation | partialRef => cases whole

theorem pragmasIn_respan (place : Span → Span) (tokens : List Token) :
    pragmasIn (tokens.map (Token.respan place)) = pragmasIn tokens := by
  rw [pragmasIn, List.filterMap_map]
  rfl

/-- Where tokens stand only matters to the spans in their trees. -/
theorem respan (place : Span → Span) (nests : Nests inParent set tokens nodes) :
    Nests inParent set (tokens.map (Token.respan place)) (Node.respanAll place nodes) := by
  induction nests with
  | nil inParent set => exact .nil inParent set
  | literal inParent set t tokens nodes kind rest ih =>
    exact .literal inParent set (t.respan place) _ _ kind ih
  | silent inParent set t tokens nodes kind rest ih =>
    exact .silent inParent set (t.respan place) _ _ kind ih
  | pragma inParent set t p tokens nodes kind known rest ih =>
    exact .pragma inParent set (t.respan place) p _ _ kind known ih
  | interpolation inParent set t tokens nodes kind rest ih =>
    exact .interpolation inParent set (t.respan place) _ _ kind ih
  | partialRef inParent set t tokens nodes kind rest ih =>
    exact .partialRef inParent set (t.respan place) _ _ kind ih
  | region inParent set opening closing inner tokens nodes more opens closes inside same rest ih ih' =>
    rw [← pragmasIn_respan place inner] at same ih'
    rw [List.map_append, List.map_cons, List.map_cons]
    exact .region inParent set (opening.respan place) (closing.respan place) _ _ _ _ opens closes ih
      same ih'

theorem pragmasIn_shift (offset : Nat) (tokens : List Token) :
    pragmasIn (tokens.map (Token.shift offset)) = pragmasIn tokens :=
  pragmasIn_respan (Span.shift offset) tokens

theorem shift (offset : Nat) (nests : Nests inParent set tokens nodes) :
    Nests inParent set (tokens.map (Token.shift offset)) (Node.shiftAll offset nodes) := by
  rw [Node.shiftAll_eq_respanAll]
  exact nests.respan (Span.shift offset)

theorem unshift (offset : Nat) (nests : Nests inParent set (tokens.map (Token.shift offset)) nodes) :
    ∃ nodes', nodes = Node.shiftAll offset nodes' ∧ Nests inParent set tokens nodes' := by
  generalize moved : tokens.map (Token.shift offset) = tokens' at nests
  induction nests generalizing tokens with
  | nil =>
    rw [List.map_eq_nil_iff] at moved
    subst moved
    exact ⟨[], rfl, .nil _ _⟩
  | literal inParent set t tokens' nodes kind rest ih =>
    obtain ⟨t, tokens, rfl, rfl, there⟩ := List.map_eq_cons_iff.1 moved
    obtain ⟨nodes', rfl, nests⟩ := ih there
    exact ⟨.literal t :: nodes', rfl, .literal _ _ t _ _ kind nests⟩
  | silent inParent set t tokens' nodes kind rest ih =>
    obtain ⟨t, tokens, rfl, rfl, there⟩ := List.map_eq_cons_iff.1 moved
    obtain ⟨nodes', rfl, nests⟩ := ih there
    exact ⟨nodes', rfl, .silent _ _ t _ _ kind nests⟩
  | pragma inParent set t p tokens' nodes kind known rest ih =>
    obtain ⟨t, tokens, rfl, rfl, there⟩ := List.map_eq_cons_iff.1 moved
    obtain ⟨nodes', rfl, nests⟩ := ih there
    exact ⟨.pragma t p :: nodes', rfl, .pragma _ _ t p _ _ kind known nests⟩
  | interpolation inParent set t tokens' nodes kind rest ih =>
    obtain ⟨t, tokens, rfl, rfl, there⟩ := List.map_eq_cons_iff.1 moved
    obtain ⟨nodes', rfl, nests⟩ := ih there
    exact ⟨.variable t (t.name set) :: nodes', rfl, .interpolation _ _ t _ _ kind nests⟩
  | partialRef inParent set t tokens' nodes kind rest ih =>
    obtain ⟨t, tokens, rfl, rfl, there⟩ := List.map_eq_cons_iff.1 moved
    obtain ⟨nodes', rfl, nests⟩ := ih there
    exact ⟨.partialRef t :: nodes', rfl, .partialRef _ _ t _ _ kind nests⟩
  | region inParent set opening closing inner tokens' nodes more opens closes inside same rest ih ih' =>
    obtain ⟨front, back, rfl, first, last⟩ := List.map_eq_append_iff.1 moved
    obtain ⟨opening, inner, rfl, rfl, middle⟩ := List.map_eq_cons_iff.1 first
    obtain ⟨closing, tokens, rfl, rfl, there⟩ := List.map_eq_cons_iff.1 last
    obtain ⟨nodes', rfl, within⟩ := ih middle
    obtain ⟨more', rfl, after⟩ := ih' there
    rw [← middle, pragmasIn_shift] at same after
    exact ⟨.region (opening.kind.role inParent) opening (opening.name set) nodes' closing :: more',
      rfl, .region _ _ opening closing inner tokens nodes' more' opens closes within same after⟩

end Nests

end Mustache.Markup
