import Mustache.Markup.Node
import Mustache.Proofs.Markup.Reading

/-! The grammar of nested tags, without a stack: a region is an opening tag, the tokens of its
nodes, and a closing tag of the same name. Reading a list of tokens from left to right finds exactly
the trees of the grammar. -/
namespace Mustache.Markup

def Kind.opens : Kind → Bool
  | sectionOpen | invertedOpen | parentOpen | blockOpen => true
  | _ => false

/-- The role of a region, directly in a parent or not. -/
def Kind.role (inParent : Bool) : Kind → Role
  | invertedOpen => .inverted
  | parentOpen => .parent
  | blockOpen => if inParent then .argument else .slot
  | _ => .repeated

theorem Kind.decide_role_parent (inParent : Bool) {kind : Kind} (opens : kind.opens = true) :
    decide (kind.role inParent = .parent) = decide (kind = .parentOpen) := by
  cases kind <;> cases opens <;> cases inParent <;> decide

/-- The trees of a list of tokens with some pragmas switched on before them, directly in a parent
or not. -/
inductive Nests : Bool → Pragmas → List Token → List Node → Prop
  | nil (inParent : Bool) (set : Pragmas) : Nests inParent set [] []
  | literal (inParent : Bool) (set : Pragmas) (t : Token) (tokens : List Token) (nodes : List Node)
      (kind : t.kind = .text) (rest : Nests inParent set tokens nodes) :
      Nests inParent set (t :: tokens) (.literal t :: nodes)
  | silent (inParent : Bool) (set : Pragmas) (t : Token) (tokens : List Token) (nodes : List Node)
      (kind : t.kind = .comment ∨ t.kind = .delimiters ∨ t.kind = .pragma ∧ t.pragma? = none)
      (rest : Nests inParent set tokens nodes) : Nests inParent set (t :: tokens) nodes
  | pragma (inParent : Bool) (set : Pragmas) (t : Token) (p : Pragma) (tokens : List Token)
      (nodes : List Node) (kind : t.kind = .pragma) (known : t.pragma? = some p)
      (rest : Nests inParent (set.insert p) tokens nodes) :
      Nests inParent set (t :: tokens) (.pragma t p :: nodes)
  | interpolation (inParent : Bool) (set : Pragmas) (t : Token) (tokens : List Token) (nodes : List Node)
      (kind : t.kind = .escaped ∨ t.kind = .unescaped) (rest : Nests inParent set tokens nodes) :
      Nests inParent set (t :: tokens) (.variable t (t.name set) :: nodes)
  | partialRef (inParent : Bool) (set : Pragmas) (t : Token) (tokens : List Token)
      (nodes : List Node) (kind : t.kind = .partialTag) (rest : Nests inParent set tokens nodes) :
      Nests inParent set (t :: tokens) (.partialRef t :: nodes)
  | region (inParent : Bool) (set : Pragmas) (opening closing : Token) (inner tokens : List Token)
      (nodes more : List Node) (opens : opening.kind.opens = true) (closes : closing.kind = .close)
      (inside : Nests (opening.kind = .parentOpen) set inner nodes)
      (same : (opening.name set).path = (closing.name (set.insertAll (pragmasIn inner))).path)
      (rest : Nests inParent (set.insertAll (pragmasIn inner)) tokens more) :
      Nests inParent set (opening :: inner ++ closing :: tokens)
        (.region (opening.kind.role inParent) opening (opening.name set) nodes closing :: more)

theorem pragmasIn_cons_of_none {t : Token} (tokens : List Token) (silent : t.switched? = none) :
    pragmasIn (t :: tokens) = pragmasIn tokens :=
  List.filterMap_cons_none silent

theorem pragmasIn_cons_of_some {t : Token} {p : Pragma} (tokens : List Token)
    (switched : t.switched? = some p) : pragmasIn (t :: tokens) = p :: pragmasIn tokens :=
  List.filterMap_cons_some switched

theorem Token.switched?_of_ne {t : Token} (other : t.kind ≠ .pragma) : t.switched? = none := by
  rw [switched?, if_neg other]

theorem Kind.ne_pragma_of_opens {kind : Kind} (opens : kind.opens = true) : kind ≠ .pragma := by
  rintro rfl
  cases opens

theorem pragmasIn_region {opening closing : Token} (inner tokens : List Token)
    (opens : opening.kind.opens = true) (closes : closing.kind = .close) :
    pragmasIn (opening :: inner ++ closing :: tokens) = pragmasIn inner ++ pragmasIn tokens := by
  have first : opening.switched? = none :=
    Token.switched?_of_ne (Kind.ne_pragma_of_opens opens)
  have last : closing.switched? = none := Token.switched?_of_ne (by rw [closes]; decide)
  rw [List.cons_append, pragmasIn_cons_of_none _ first, pragmasIn_append,
    pragmasIn_cons_of_none _ last]

theorem Nests.append {inParent : Bool} {set : Pragmas} {first second : List Token}
    {nodes more : List Node} (front : Nests inParent set first nodes)
    (back : Nests inParent (set.insertAll (pragmasIn first)) second more) :
    Nests inParent set (first ++ second) (nodes ++ more) := by
  induction front with
  | nil => exact back
  | literal inParent set t tokens nodes kind rest ih =>
    rw [pragmasIn_cons_of_none _ (Token.switched?_of_ne (by rw [kind]; decide))] at back
    exact .literal inParent set t _ _ kind (ih back)
  | silent inParent set t tokens nodes kind rest ih =>
    have none : t.switched? = none := by
      rcases kind with kind | kind | ⟨kind, unknown⟩
      · exact Token.switched?_of_ne (by rw [kind]; decide)
      · exact Token.switched?_of_ne (by rw [kind]; decide)
      · rw [Token.switched?, if_pos kind, unknown]
    rw [pragmasIn_cons_of_none _ none] at back
    exact .silent inParent set t _ _ kind (ih back)
  | pragma inParent set t p tokens nodes kind known rest ih =>
    have some : t.switched? = some p := by rw [Token.switched?, if_pos kind, known]
    rw [pragmasIn_cons_of_some _ some] at back
    exact .pragma inParent set t p _ _ kind known (ih back)
  | interpolation inParent set t tokens nodes kind rest ih =>
    have other : t.kind ≠ .pragma := by rcases kind with kind | kind <;> rw [kind] <;> decide
    rw [pragmasIn_cons_of_none _ (Token.switched?_of_ne other)] at back
    exact .interpolation inParent set t _ _ kind (ih back)
  | partialRef inParent set t tokens nodes kind rest ih =>
    rw [pragmasIn_cons_of_none _ (Token.switched?_of_ne (by rw [kind]; decide))] at back
    exact .partialRef inParent set t _ _ kind (ih back)
  | region inParent set opening closing inner tokens nodes more opens closes inside same rest _ ih =>
    rw [pragmasIn_region inner tokens opens closes, Pragmas.insertAll_append] at back
    have whole := Nests.region inParent set opening closing inner _ nodes _ opens closes inside same
      (ih back)
    simpa using whole

/-! ### Reading finds a tree of the grammar -/

/-- Whether what is read next stands directly in a parent. -/
def Parsing.inParent : List OpenRegion → Bool
  | [] => false
  | outer :: _ => decide (outer.kind = .parentOpen)

theorem Parsing.role_eq (kind : Kind) (enclosing : List OpenRegion) :
    role kind enclosing = kind.role (inParent enclosing) := by
  cases kind <;> cases enclosing <;> simp [role, Kind.role, inParent]

theorem Parsing.step_of_leaf (p : Parsing) {t : Token} (opens : t.kind.opens = false)
    (closes : t.kind ≠ .close) :
    ∃ nodes, p.step t =
        .ok ⟨p.pragmas.insertAll (pragmasIn [t]), p.enclosing, nodes.reverse ++ p.nodes⟩ ∧
      ∀ inParent, Nests inParent p.pragmas [t] nodes := by
  have other (kind : t.kind ≠ .pragma) : pragmasIn [t] = [] :=
    pragmasIn_cons_of_none [] (Token.switched?_of_ne kind)
  unfold step
  cases kind : t.kind with
  | text =>
    refine ⟨[.literal t], ?_, fun b => .literal b _ t [] [] kind (.nil b _)⟩
    rw [other (by rw [kind]; decide)]
    rfl
  | comment =>
    refine ⟨[], ?_, fun b => .silent b _ t [] [] (.inl kind) (.nil b _)⟩
    rw [other (by rw [kind]; decide)]
    rfl
  | delimiters =>
    refine ⟨[], ?_, fun b => .silent b _ t [] [] (.inr (.inl kind)) (.nil b _)⟩
    rw [other (by rw [kind]; decide)]
    rfl
  | pragma =>
    cases known : t.pragma? with
    | none =>
      refine ⟨[], ?_, fun b => .silent b _ t [] [] (.inr (.inr ⟨kind, known⟩)) (.nil b _)⟩
      rw [pragmasIn_cons_of_none [] (by rw [Token.switched?, if_pos kind, known])]
      rfl
    | some q =>
      refine ⟨[.pragma t q], ?_, fun b => .pragma b _ t q [] [] kind known (.nil b _)⟩
      rw [pragmasIn_cons_of_some [] (by rw [Token.switched?, if_pos kind, known])]
      rfl
  | escaped =>
    refine ⟨[.variable t (t.name p.pragmas)], ?_,
      fun b => .interpolation b _ t [] [] (.inl kind) (.nil b _)⟩
    rw [other (by rw [kind]; decide)]
    rfl
  | unescaped =>
    refine ⟨[.variable t (t.name p.pragmas)], ?_,
      fun b => .interpolation b _ t [] [] (.inr kind) (.nil b _)⟩
    rw [other (by rw [kind]; decide)]
    rfl
  | partialTag =>
    refine ⟨[.partialRef t], ?_, fun b => .partialRef b _ t [] [] kind (.nil b _)⟩
    rw [other (by rw [kind]; decide)]
    rfl
  | close => exact absurd kind closes
  | sectionOpen | invertedOpen | parentOpen | blockOpen =>
    rw [kind] at opens
    cases opens

/-- The tokens read so far: those of the nodes outside all open regions, and for each open region
its opening tag and those of its nodes so far. -/
inductive Stacked (set : Pragmas) : List Token → Parsing → Prop
  | flat (tokens : List Token) (nodes : List Node) (inside : Nests false set tokens nodes.reverse) :
      Stacked set tokens ⟨set.insertAll (pragmasIn tokens), [], nodes⟩
  | deeper (tokens inner : List Token) (opening : Token) (p : Parsing) (nodes : List Node)
      (outer : Stacked set tokens p) (opens : opening.kind.opens = true)
      (inside : Nests (opening.kind = .parentOpen) p.pragmas inner nodes.reverse) :
      Stacked set (tokens ++ opening :: inner)
        ⟨p.pragmas.insertAll (pragmasIn inner),
          ⟨opening.kind, opening, opening.name p.pragmas, p.nodes⟩ :: p.enclosing, nodes⟩

namespace Stacked

variable {set : Pragmas} {tokens : List Token} {p : Parsing}

theorem extend (stacked : Stacked set tokens p) {more : List Token} {nodes : List Node}
    (inside : Nests (Parsing.inParent p.enclosing) p.pragmas more nodes) :
    Stacked set (tokens ++ more)
      ⟨p.pragmas.insertAll (pragmasIn more), p.enclosing, nodes.reverse ++ p.nodes⟩ := by
  cases stacked with
  | flat tokens before front =>
    have whole := front.append inside
    dsimp only
    rw [← Pragmas.insertAll_append, ← pragmasIn_append]
    refine .flat (tokens ++ more) (nodes.reverse ++ before) ?_
    simpa using whole
  | deeper tokens inner opening p before outer opens front =>
    have whole := front.append inside
    dsimp only
    rw [← Pragmas.insertAll_append, ← pragmasIn_append, List.append_assoc, List.cons_append]
    refine .deeper tokens (inner ++ more) opening p (nodes.reverse ++ before) outer opens ?_
    simpa using whole

theorem step (stacked : Stacked set tokens p) {t : Token} {q : Parsing} (read : p.step t = .ok q) :
    Stacked set (tokens ++ [t]) q := by
  by_cases closes : t.kind = .close
  · cases stacked with
    | flat tokens nodes inside => simp [Parsing.step, closes, Parsing.close] at read
    | deeper tokens inner opening p nodes outer opens inside =>
      simp only [Parsing.step, closes, Parsing.close] at read
      split at read
      · rename_i same
        simp only [Except.ok.injEq] at read
        subst read
        have region := Nests.region (Parsing.inParent p.enclosing) p.pragmas opening t inner []
          nodes.reverse [] opens closes inside same (.nil _ _)
        have extended := outer.extend region
        rw [pragmasIn_region inner [] opens closes, ← Parsing.role_eq] at extended
        simpa [pragmasIn] using extended
      · cases read
  · cases opens : t.kind.opens with
    | false =>
      obtain ⟨nodes, same, inside⟩ := p.step_of_leaf opens closes
      rw [same, Except.ok.injEq] at read
      subst read
      exact stacked.extend (inside _)
    | true =>
      have same : p.step t =
          .ok ⟨p.pragmas, ⟨t.kind, t, t.name p.pragmas, p.nodes⟩ :: p.enclosing, []⟩ := by
        unfold Parsing.step
        cases kind : t.kind <;> first
          | rfl
          | rw [kind] at opens
            cases opens
      rw [same, Except.ok.injEq] at read
      subst read
      exact .deeper tokens [] t p [] stacked opens (.nil _ _)

theorem steps (stacked : Stacked set tokens p) {more : List Token} {q : Parsing}
    (read : more.foldlM Parsing.step p = .ok q) : Stacked set (tokens ++ more) q := by
  induction more generalizing tokens p with
  | nil =>
    simp only [List.foldlM_nil, pure, Except.pure, Except.ok.injEq] at read
    subst read
    simpa using stacked
  | cons t more ih =>
    rw [List.foldlM_cons] at read
    cases first : p.step t with
    | error flaw => simp [first, bind, Except.bind] at read
    | ok next =>
      simp only [first, bind, Except.bind] at read
      simpa using ih (stacked.step first) read

end Stacked

theorem nests_of_nest {set : Pragmas} {tokens : List Token} {nodes : List Node}
    (read : nest set tokens = .ok nodes) : Nests false set tokens nodes := by
  unfold nest at read
  cases last : tokens.foldlM Parsing.step (.initial set) with
  | error flaw => simp [last, bind, Except.bind] at read
  | ok p =>
    simp only [last, bind, Except.bind] at read
    have start : Stacked set [] (.initial set) := .flat [] [] (.nil false set)
    have stacked := start.steps last
    rw [List.nil_append] at stacked
    cases stacked with
    | flat tokens nodes' inside =>
      simp only [Parsing.finish, Except.ok.injEq] at read
      subst read
      exact inside
    | deeper tokens inner opening p nodes' outer opens inside => simp [Parsing.finish] at read

/-! ### Every tree of the grammar is found -/

theorem Nests.foldlM_step {inParent : Bool} {set : Pragmas} {tokens : List Token}
    {nodes : List Node} (nests : Nests inParent set tokens nodes) (enclosing : List OpenRegion)
    (before : List Node) (place : Parsing.inParent enclosing = inParent) :
    tokens.foldlM Parsing.step ⟨set, enclosing, before⟩ =
      .ok ⟨set.insertAll (pragmasIn tokens), enclosing, nodes.reverse ++ before⟩ := by
  induction nests generalizing enclosing before with
  | nil => rfl
  | literal inParent set t tokens nodes kind rest ih =>
    rw [List.foldlM_cons, pragmasIn_cons_of_none _ (Token.switched?_of_ne (by rw [kind]; decide))]
    simp only [Parsing.step, kind, Parsing.add, bind, Except.bind, ih enclosing _ place]
    simp
  | silent inParent set t tokens nodes kind rest ih =>
    rw [List.foldlM_cons]
    rcases kind with kind | kind | ⟨kind, unknown⟩
    · rw [pragmasIn_cons_of_none _ (Token.switched?_of_ne (by rw [kind]; decide))]
      simp only [Parsing.step, kind, bind, Except.bind, ih enclosing _ place]
    · rw [pragmasIn_cons_of_none _ (Token.switched?_of_ne (by rw [kind]; decide))]
      simp only [Parsing.step, kind, bind, Except.bind, ih enclosing _ place]
    · rw [pragmasIn_cons_of_none _ (by rw [Token.switched?, if_pos kind, unknown])]
      simp only [Parsing.step, kind, unknown, bind, Except.bind, ih enclosing _ place]
  | pragma inParent set t p tokens nodes kind known rest ih =>
    rw [List.foldlM_cons, pragmasIn_cons_of_some _ (by rw [Token.switched?, if_pos kind, known])]
    simp only [Parsing.step, kind, known, Parsing.add, bind, Except.bind, ih enclosing _ place]
    simp
  | interpolation inParent set t tokens nodes kind rest ih =>
    have other : t.kind ≠ .pragma := by rcases kind with kind | kind <;> rw [kind] <;> decide
    rw [List.foldlM_cons, pragmasIn_cons_of_none _ (Token.switched?_of_ne other)]
    rcases kind with kind | kind <;>
    · simp only [Parsing.step, kind, Parsing.add, bind, Except.bind, ih enclosing _ place]
      simp
  | partialRef inParent set t tokens nodes kind rest ih =>
    rw [List.foldlM_cons, pragmasIn_cons_of_none _ (Token.switched?_of_ne (by rw [kind]; decide))]
    simp only [Parsing.step, kind, Parsing.add, bind, Except.bind, ih enclosing _ place]
    simp
  | region inParent set opening closing inner tokens nodes more opens closes inside same rest ih ih' =>
    rw [pragmasIn_region inner tokens opens closes, Pragmas.insertAll_append]
    have first : Parsing.step ⟨set, enclosing, before⟩ opening =
        .ok ⟨set, ⟨opening.kind, opening, opening.name set, before⟩ :: enclosing, []⟩ := by
      unfold Parsing.step
      cases kind : opening.kind <;> first
        | rfl
        | rw [kind] at opens
          cases opens
    have middle := ih (⟨opening.kind, opening, opening.name set, before⟩ :: enclosing) [] rfl
    rw [List.append_nil] at middle
    have last := ih' enclosing
      (.region (opening.kind.role inParent) opening (opening.name set) nodes closing :: before) place
    rw [List.cons_append, List.foldlM_cons, first]
    simp only [bind, Except.bind]
    rw [List.foldlM_append, middle]
    simp only [bind, Except.bind]
    rw [List.foldlM_cons]
    simp only [Parsing.step, closes, Parsing.close, same, if_true, List.reverse_reverse, bind,
      Except.bind, last, Parsing.role_eq, place, List.reverse_cons, List.append_assoc,
      List.singleton_append]

theorem Nests.nest_eq {set : Pragmas} {tokens : List Token} {nodes : List Node}
    (nests : Nests false set tokens nodes) : nest set tokens = .ok nodes := by
  unfold nest
  rw [Parsing.initial, nests.foldlM_step [] [] rfl]
  simp [bind, Except.bind, Parsing.finish]

end Mustache.Markup
