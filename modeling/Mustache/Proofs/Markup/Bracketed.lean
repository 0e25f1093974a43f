import Mustache.Proofs.Markup.Force

/-! Which lists of tokens have a tree: those whose tags are properly nested, each closing tag with
the path of the tag that it closes. The tree keeps the order of the tokens, and where there is none
the flaw is at the first tag that spoils the nesting. -/
namespace Mustache

namespace Text

theorem head?_pieces (test : Char → Bool) (text : List Char) :
    (pieces test text).head? = some (text.takeWhile (!test ·)) := by
  induction text with
  | nil => rfl
  | cons c rest ih =>
    rw [pieces, List.takeWhile_cons]
    cases separates : test c with
    | true => rfl
    | false =>
      obtain ⟨more, found⟩ := List.head?_eq_some_iff.1 ih
      simp [found]

end Text

namespace Markup

/-! ### Nesting, told from the tokens alone -/

/-- The tags that open regions and those that close them are properly nested. -/
inductive Bracketed : List Token → Prop
  | nil : Bracketed []
  | leaf (t : Token) (rest : List Token) (opens : t.kind.opens = false) (closes : t.kind ≠ .close)
      (after : Bracketed rest) : Bracketed (t :: rest)
  | region (opening closing : Token) (inner rest : List Token) (opens : opening.kind.opens = true)
      (closes : closing.kind = .close) (inside : Bracketed inner) (after : Bracketed rest) :
      Bracketed (opening :: inner ++ closing :: rest)

/-- The last tag in a list of tokens that is left open there, and the tokens before and after it. -/
structure LeftOpen (tokens before : List Token) (opening : Token) (inner : List Token) : Prop where
  whole : tokens = before ++ opening :: inner
  opens : opening.kind.opens = true
  inside : Bracketed inner

/-- Whether filters are split off the names of tags that come after the given tokens. -/
def filtersOn (set : Pragmas) (before : List Token) : Bool :=
  set.filters || before.any fun t => t.kind == .pragma && t.pragma? == some .filters

/-- The part of a tag's content before the first bar, without the blanks around it, if filters are on,
and else the content. -/
def Token.path (filters : Bool) (t : Token) : String :=
  if filters then .ofList (Text.trim (t.content.toList.takeWhile (· != '|'))) else t.content

/-- A closing tag that has no partner among the tokens before it, or one with another path. -/
inductive ClosesWrongly (set : Pragmas) (before : List Token) (t : Token) : Cause → Prop
  | alone (closes : t.kind = .close) (none : ∀ front opening inner, ¬ LeftOpen before front opening inner) :
      ClosesWrongly set before t (.unexpectedClose t.content)
  | mismatched (closes : t.kind = .close) (front inner : List Token) (opening : Token)
      (partner : LeftOpen before front opening inner)
      (other : opening.path (filtersOn set front) ≠ t.path (filtersOn set before)) :
      ClosesWrongly set before t
        (.mismatchedClose (opening.path (filtersOn set front)) (t.path (filtersOn set before)))

/-- Whether each closing tag has the path of the tag that it closes. -/
def PathsMeet (set : Pragmas) (tokens : List Token) : Prop :=
  ∀ before closing after, tokens = before ++ closing :: after → closing.kind = .close →
    ∀ front opening inner, LeftOpen before front opening inner →
      opening.path (filtersOn set front) = closing.path (filtersOn set before)

namespace Bracketed

variable {tokens : List Token}

/-- How many more tags a list of tokens opens than it closes. -/
def excess (tokens : List Token) : Int :=
  tokens.countP (·.kind.opens) - tokens.countP (·.kind == .close)

theorem excess_append (first second : List Token) :
    excess (first ++ second) = excess first + excess second := by
  simp only [excess, List.countP_append]
  omega

theorem excess_cons (t : Token) (tokens : List Token) : excess (t :: tokens) = excess [t] + excess tokens :=
  excess_append [t] tokens

theorem excess_of_leaf {t : Token} (opens : t.kind.opens = false) (closes : t.kind ≠ .close) :
    excess [t] = 0 := by
  simp [excess, opens, closes]

theorem excess_of_opens {t : Token} (opens : t.kind.opens = true) : excess [t] = 1 := by
  have other : t.kind ≠ .close := by
    intro closes
    rw [closes] at opens
    cases opens
  simp [excess, opens, other]

theorem excess_of_closes {t : Token} (closes : t.kind = .close) : excess [t] = -1 := by
  simp [excess, closes, Kind.opens]

theorem excess_eq (bracketed : Bracketed tokens) : excess tokens = 0 := by
  induction bracketed with
  | nil => rfl
  | leaf t rest opens closes after ih => rw [excess_cons, excess_of_leaf opens closes, ih]; rfl
  | region opening closing inner rest opens closes inside after inner_ih ih =>
    rw [excess_append, excess_cons opening, excess_cons closing, excess_of_opens opens,
      excess_of_closes closes, inner_ih, ih]
    rfl

/-- What ends a nested list closes at least as many tags as it opens. -/
theorem excess_le_of_suffix (bracketed : Bracketed tokens) {before after : List Token}
    (whole : tokens = before ++ after) : excess after ≤ 0 := by
  induction bracketed generalizing before after with
  | nil =>
    obtain ⟨-, rfl⟩ := List.append_eq_nil_iff.1 whole.symm
    exact Int.le_refl 0
  | leaf t rest opens closes later ih =>
    cases before with
    | nil =>
      rw [List.nil_append] at whole
      exact Int.le_of_eq (whole ▸ (Bracketed.leaf t rest opens closes later).excess_eq)
    | cons b before => exact ih (List.cons.inj whole).2
  | region opening closing inner rest opens closes inside later inner_ih ih =>
    cases before with
    | nil =>
      rw [List.nil_append] at whole
      exact Int.le_of_eq
        (whole ▸ (Bracketed.region opening closing inner rest opens closes inside later).excess_eq)
    | cons b before =>
      rw [List.cons_append, List.cons_append, List.cons.injEq] at whole
      rcases List.append_eq_append_iff.1 whole.2 with ⟨middle, front, back⟩ | ⟨middle, front, back⟩
      · cases middle with
        | nil =>
          rw [List.nil_append] at back
          rw [← back, excess_cons, excess_of_closes closes, later.excess_eq]
          decide
        | cons m middle =>
          rw [List.cons_append, List.cons.injEq] at back
          exact ih back.2
      · have inner_le := inner_ih front
        rw [back, excess_append, excess_cons, excess_of_closes closes, later.excess_eq]
        omega

end Bracketed

theorem LeftOpen.not_bracketed {tokens before inner : List Token} {opening : Token}
    (left : LeftOpen tokens before opening inner) : ¬ Bracketed tokens := by
  intro bracketed
  have le := bracketed.excess_le_of_suffix left.whole
  rw [Bracketed.excess_cons, Bracketed.excess_of_opens left.opens, left.inside.excess_eq] at le
  omega

theorem LeftOpen.unique {tokens before before' inner inner' : List Token} {opening opening' : Token}
    (left : LeftOpen tokens before opening inner) (left' : LeftOpen tokens before' opening' inner') :
    before = before' ∧ opening = opening' ∧ inner = inner' := by
  have same := left.whole.symm.trans left'.whole
  rcases List.append_eq_append_iff.1 same with ⟨middle, front, back⟩ | ⟨middle, front, back⟩
  · cases middle with
    | nil =>
      rw [List.nil_append, List.cons.injEq] at back
      exact ⟨by simpa using front.symm, back.1, back.2⟩
    | cons m middle =>
      rw [List.cons_append, List.cons.injEq] at back
      exact absurd left.inside (LeftOpen.not_bracketed ⟨back.2, left'.opens, left'.inside⟩)
  · cases middle with
    | nil =>
      rw [List.nil_append, List.cons.injEq] at back
      exact ⟨by simpa using front, back.1.symm, back.2.symm⟩
    | cons m middle =>
      rw [List.cons_append, List.cons.injEq] at back
      exact absurd left'.inside (LeftOpen.not_bracketed ⟨back.2, left.opens, left.inside⟩)

/-! ### Reading, told from the state -/

theorem filters_insertAll (set : Pragmas) (tokens : List Token) :
    (set.insertAll (pragmasIn tokens)).filters = filtersOn set tokens := by
  have known : (set.insertAll (pragmasIn tokens)).filters =
      (decide (.filters ∈ pragmasIn tokens) || set.filters) :=
    Pragmas.contains_insertAll (pragmasIn tokens) .filters set
  have switched (t : Token) : (t.kind == .pragma && t.pragma? == some .filters) = true ↔
      t.switched? = some .filters := by
    unfold Token.switched?
    by_cases pragma : t.kind = .pragma <;> simp [pragma]
  have among : decide (.filters ∈ pragmasIn tokens) =
      tokens.any fun t => t.kind == .pragma && t.pragma? == some .filters := by
    rw [Bool.eq_iff_iff, decide_eq_true_iff, pragmasIn, List.mem_filterMap, List.any_eq_true]
    simp only [switched]
  rw [known, among, Bool.or_comm, filtersOn]

theorem path_name (t : Token) (set : Pragmas) : (t.name set).path = t.path set.filters := by
  unfold Token.name Token.path
  cases set.filters with
  | false => rfl
  | true =>
    obtain ⟨more, found⟩ := List.head?_eq_some_iff.1
      (Text.head?_pieces (· == '|') t.content.toList)
    simp only [if_true, Token.pipeline, found]
    rfl

theorem path_eq (set : Pragmas) (before : List Token) (t : Token) :
    (t.name (set.insertAll (pragmasIn before))).path = t.path (filtersOn set before) := by
  rw [path_name, filters_insertAll]

theorem Nests.bracketed {inParent : Bool} {set : Pragmas} {tokens : List Token} {nodes : List Node}
    (nests : Nests inParent set tokens nodes) : Bracketed tokens := by
  induction nests with
  | nil => exact .nil
  | literal inParent set t tokens nodes kind rest ih =>
    exact .leaf t tokens (by rw [kind]; rfl) (by rw [kind]; decide) ih
  | silent inParent set t tokens nodes kind rest ih =>
    rcases kind with kind | kind | ⟨kind, -⟩ <;>
      exact .leaf t tokens (by rw [kind]; rfl) (by rw [kind]; decide) ih
  | pragma inParent set t p tokens nodes kind known rest ih =>
    exact .leaf t tokens (by rw [kind]; rfl) (by rw [kind]; decide) ih
  | interpolation inParent set t tokens nodes kind rest ih =>
    rcases kind with kind | kind <;>
      exact .leaf t tokens (by rw [kind]; rfl) (by rw [kind]; decide) ih
  | partialRef inParent set t tokens nodes kind rest ih =>
    exact .leaf t tokens (by rw [kind]; rfl) (by rw [kind]; decide) ih
  | region inParent set opening closing inner tokens nodes more opens closes inside same rest ih ih' =>
    exact .region opening closing inner tokens opens closes ih ih'

namespace Stacked

variable {set : Pragmas} {tokens : List Token} {p : Parsing}

theorem pragmas_eq (stacked : Stacked set tokens p) : p.pragmas = set.insertAll (pragmasIn tokens) := by
  induction stacked with
  | flat tokens nodes inside => rfl
  | deeper tokens inner opening p nodes outer opens inside ih =>
    have silent : opening.switched? = none :=
      Token.switched?_of_ne (Kind.ne_pragma_of_opens opens)
    rw [pragmasIn_append, pragmasIn_cons_of_none _ silent, Pragmas.insertAll_append, ih]

/-- The innermost open region is the last one that the tokens leave open. -/
theorem innermost (stacked : Stacked set tokens p) :
    (p.enclosing = [] ∧ Bracketed tokens) ∨
      ∃ front inner region outer, p.enclosing = region :: outer ∧
        LeftOpen tokens front region.tag inner ∧
        region.name.path = region.tag.path (filtersOn set front) := by
  cases stacked with
  | flat tokens nodes inside => exact .inl ⟨rfl, inside.bracketed⟩
  | deeper front inner opening p nodes outer opens inside =>
    refine .inr ⟨front, inner, _, _, rfl, ⟨rfl, opens, inside.bracketed⟩, ?_⟩
    dsimp only
    rw [outer.pragmas_eq, path_eq]

theorem not_closesWrongly (stacked : Stacked set tokens p) {t : Token} {q : Parsing}
    (read : p.step t = .ok q) (cause : Cause) : ¬ ClosesWrongly set tokens t cause := by
  have close (closes : t.kind = .close) : p.close t = .ok q := by
    simpa only [Parsing.step, closes] using read
  rcases stacked.innermost with ⟨flat, -⟩ | ⟨front, inner, region, outer, enclosing, left, path⟩
  · intro wrong
    have closed := close (by cases wrong <;> assumption)
    rw [Parsing.close, flat] at closed
    cases closed
  · intro wrong
    cases wrong with
    | alone closes none => exact none _ _ _ left
    | mismatched closes front' inner' opening partner other =>
      obtain ⟨rfl, rfl, rfl⟩ := left.unique partner
      have closed := close closes
      rw [Parsing.close, enclosing] at closed
      dsimp only at closed
      split at closed
      · rename_i same
        rw [path, stacked.pragmas_eq, path_eq] at same
        exact other same
      · cases closed

theorem closesWrongly (stacked : Stacked set tokens p) {t : Token} {flaw : Flaw}
    (read : p.step t = .error flaw) : flaw.span = t.span ∧ ClosesWrongly set tokens t flaw.cause := by
  by_cases closes : t.kind = .close
  · have closed : p.close t = .error flaw := by simpa only [Parsing.step, closes] using read
    rcases stacked.innermost with ⟨flat, bracketed⟩ | ⟨front, inner, region, outer, enclosing, left, path⟩
    · rw [Parsing.close, flat] at closed
      cases closed
      exact ⟨rfl, .alone closes fun front opening inner left => left.not_bracketed bracketed⟩
    · rw [Parsing.close, enclosing] at closed
      dsimp only at closed
      rw [path, stacked.pragmas_eq, path_eq] at closed
      split at closed
      · cases closed
      · rename_i other
        cases closed
        exact ⟨rfl, .mismatched closes front inner region.tag left other⟩
  · cases opens : t.kind.opens with
    | false =>
      obtain ⟨nodes, same, -⟩ := p.step_of_leaf opens closes
      rw [same] at read
      cases read
    | true =>
      exfalso
      unfold Parsing.step at read
      cases kind : t.kind <;> simp_all [Kind.opens]

end Stacked

section
variable {set : Pragmas} {tokens : List Token} {p q : Parsing}

theorem foldlM_before {before after : List Token} {t : Token}
    (read : (before ++ t :: after).foldlM Parsing.step p = .ok q) :
    ∃ r next, before.foldlM Parsing.step p = .ok r ∧ r.step t = .ok next := by
  rw [List.foldlM_append] at read
  cases first : before.foldlM Parsing.step p with
  | error flaw => simp [first, bind, Except.bind] at read
  | ok r =>
    rw [first] at read
    cases stepped : r.step t with
    | error flaw => simp [stepped, bind, Except.bind] at read
    | ok next => exact ⟨r, next, rfl, stepped⟩

theorem foldlM_error {flaw : Flaw} (failed : tokens.foldlM Parsing.step p = .error flaw) :
    ∃ before t after r, tokens = before ++ t :: after ∧ before.foldlM Parsing.step p = .ok r ∧
      r.step t = .error flaw := by
  induction tokens generalizing p with
  | nil => cases failed
  | cons t rest ih =>
    rw [List.foldlM_cons] at failed
    cases stepped : p.step t with
    | error flaw' =>
      rw [stepped] at failed
      cases failed
      exact ⟨[], t, rest, p, rfl, rfl, stepped⟩
    | ok next =>
      rw [stepped] at failed
      obtain ⟨before, u, after, r, rfl, read, wrong⟩ := ih failed
      refine ⟨t :: before, u, after, r, rfl, ?_, wrong⟩
      rw [List.foldlM_cons, stepped]
      exact read

theorem stacked_of_foldlM (read : tokens.foldlM Parsing.step (.initial set) = .ok q) :
    Stacked set tokens q := by
  have start : Stacked set [] (.initial set) := .flat [] [] (.nil false set)
  simpa using start.steps read

theorem not_closesWrongly_of_foldlM (read : tokens.foldlM Parsing.step (.initial set) = .ok q)
    {before after : List Token} {t : Token} (whole : tokens = before ++ t :: after) (cause : Cause) :
    ¬ ClosesWrongly set before t cause := by
  rw [whole] at read
  obtain ⟨r, next, earlier, stepped⟩ := foldlM_before read
  exact (stacked_of_foldlM earlier).not_closesWrongly stepped cause

/-! ### Accepting -/

theorem LeftOpen.prepend {before front inner : List Token} {opening : Token}
    (left : LeftOpen before front opening inner) (earlier : List Token) :
    LeftOpen (earlier ++ before) (earlier ++ front) opening inner where
  whole := by rw [left.whole, List.append_assoc]
  opens := left.opens
  inside := left.inside

theorem filtersOn_append (set : Pragmas) (first second : List Token) :
    filtersOn set (first ++ second) = filtersOn (set.insertAll (pragmasIn first)) second := by
  rw [← filters_insertAll, ← filters_insertAll, pragmasIn_append, Pragmas.insertAll_append]

theorem PathsMeet.within (first middle last : List Token)
    (meet : PathsMeet set (first ++ middle ++ last)) :
    PathsMeet (set.insertAll (pragmasIn first)) middle := by
  rintro before closing after rfl closes front opening inner left
  rw [← filtersOn_append, ← filtersOn_append]
  exact meet (first ++ before) closing (after ++ last) (by simp) closes _ _ _ (left.prepend first)

/-- Where tags are nested and paths meet there is a tree. -/
theorem Bracketed.exists_nests (bracketed : Bracketed tokens) (inParent : Bool)
    (meet : PathsMeet set tokens) : ∃ nodes, Nests inParent set tokens nodes := by
  induction bracketed generalizing inParent set with
  | nil => exact ⟨[], .nil inParent set⟩
  | leaf t rest opens closes after ih =>
    obtain ⟨nodes, -, here⟩ := Parsing.step_of_leaf ⟨set, [], []⟩ opens closes
    have later : PathsMeet (set.insertAll (pragmasIn [t])) rest :=
      .within [t] rest [] (by simpa using meet)
    obtain ⟨more, there⟩ := ih inParent later
    exact ⟨nodes ++ more, (here inParent).append there⟩
  | region opening closing inner rest opens closes inside after inner_ih ih =>
    have silent : opening.switched? = none := Token.switched?_of_ne (Kind.ne_pragma_of_opens opens)
    have first : PathsMeet set inner := by
      have within := PathsMeet.within [opening] inner (closing :: rest) (by simpa using meet)
      rwa [pragmasIn_cons_of_none _ silent] at within
    have later : PathsMeet (set.insertAll (pragmasIn inner)) rest := by
      have within := PathsMeet.within (opening :: inner ++ [closing]) rest [] (by simpa using meet)
      have between := pragmasIn_region inner [] opens closes
      rw [between] at within
      simpa [pragmasIn] using within
    obtain ⟨nodes, here⟩ := inner_ih (opening.kind = .parentOpen) first
    obtain ⟨more, there⟩ := ih inParent later
    refine ⟨_, .region inParent set opening closing inner rest nodes more opens closes here ?_ there⟩
    have path := meet (opening :: inner) closing rest rfl closes [] opening inner ⟨rfl, opens, inside⟩
    have outside := path_eq set [] opening
    have behind := path_eq set (opening :: inner) closing
    rw [pragmasIn_cons_of_none _ silent] at behind
    rw [behind, ← path, ← outside]
    rfl

theorem exists_nest_iff :
    (∃ tree, nest set tokens = .ok tree) ↔ Bracketed tokens ∧ PathsMeet set tokens := by
  constructor
  · rintro ⟨tree, read⟩
    refine ⟨(nests_of_nest read).bracketed, ?_⟩
    unfold nest at read
    cases last : tokens.foldlM Parsing.step (.initial set) with
    | error flaw => simp [last, bind, Except.bind] at read
    | ok q =>
      intro before closing after whole closes front opening inner left
      refine Decidable.byContradiction fun other => ?_
      exact not_closesWrongly_of_foldlM last whole _ (.mismatched closes front inner opening left other)
  · rintro ⟨bracketed, meet⟩
    obtain ⟨nodes, nests⟩ := bracketed.exists_nests false meet
    exact ⟨nodes, nests.nest_eq⟩

/-! ### Rejecting -/

theorem flaw_of_nest {flaw : Flaw} (failed : nest set tokens = .error flaw) :
    (∃ before t after, tokens = before ++ t :: after ∧ flaw.span = t.span ∧
        ClosesWrongly set before t flaw.cause ∧
        ∀ earlier u later, before = earlier ++ u :: later → ∀ cause, ¬ ClosesWrongly set earlier u cause) ∨
      (∀ before t after, tokens = before ++ t :: after → ∀ cause, ¬ ClosesWrongly set before t cause) ∧
        ∃ before opening inner, LeftOpen tokens before opening inner ∧
          flaw = ⟨.unclosedSection (opening.path (filtersOn set before)), opening.span⟩ := by
  unfold nest at failed
  cases last : tokens.foldlM Parsing.step (.initial set) with
  | error flaw' =>
    simp only [last, bind, Except.bind, Except.error.injEq] at failed
    subst failed
    obtain ⟨before, t, after, r, rfl, read, wrong⟩ := foldlM_error last
    obtain ⟨span, closesWrongly⟩ := (stacked_of_foldlM read).closesWrongly wrong
    exact .inl ⟨before, t, after, rfl, span, closesWrongly,
      fun earlier u later whole cause => not_closesWrongly_of_foldlM read whole cause⟩
  | ok q =>
    simp only [last, bind, Except.bind] at failed
    refine .inr ⟨fun before t after whole cause => not_closesWrongly_of_foldlM last whole cause, ?_⟩
    rcases (stacked_of_foldlM last).innermost with ⟨flat, -⟩ |
      ⟨front, inner, region, outer, enclosing, left, path⟩
    · rw [Parsing.finish, flat] at failed
      cases failed
    · rw [Parsing.finish, enclosing] at failed
      cases failed
      exact ⟨front, region.tag, inner, left, by rw [path]⟩

end

/-! ### What the tree says -/

/-- Comments, changes of delimiters and pragmas that are not known leave nothing in the tree. -/
def Token.isKept (t : Token) : Bool :=
  t.kind != .comment && t.kind != .delimiters && !(t.kind == .pragma && t.pragma?.isNone)

/-- A node somewhere in the trees, with the role of the region that it is directly in. -/
inductive Node.At : Option Role → List Node → Option Role → Node → Prop
  | here (outer : Option Role) (nodes : List Node) (node : Node) (member : node ∈ nodes) :
      At outer nodes outer node
  | inside (outer within : Option Role) (role : Role) (opening : Token) (name : Name)
      (inner nodes : List Node) (closing : Token) (node : Node)
      (member : .region role opening name inner closing ∈ nodes)
      (deeper : At (some role) inner within node) : At outer nodes within node

theorem Node.At.of_cons {outer within : Option Role} {first node : Node} {rest : List Node}
    (found : At outer (first :: rest) within node) :
    (within = outer ∧ node = first) ∨
      (∃ role opening name inner closing, first = .region role opening name inner closing ∧
        At (some role) inner within node) ∨ At outer rest within node := by
  cases found with
  | here _ _ _ member =>
    rcases List.mem_cons.1 member with rfl | later
    · exact .inl ⟨rfl, rfl⟩
    · exact .inr (.inr (.here outer rest node later))
  | inside _ _ role opening name inner _ closing _ member deeper =>
    rcases List.mem_cons.1 member with rfl | later
    · exact .inr (.inl ⟨role, opening, name, inner, closing, rfl, deeper⟩)
    · exact .inr (.inr (.inside outer within role opening name inner rest closing node later deeper))

namespace Nests

variable {inParent : Bool} {set : Pragmas} {tokens : List Token} {nodes : List Node}

theorem tokensOf_eq (nests : Nests inParent set tokens nodes) :
    Node.tokensOf nodes = tokens.filter Token.isKept := by
  induction nests with
  | nil => rfl
  | literal inParent set t tokens nodes kind rest ih =>
    rw [List.filter_cons_of_pos (by simp [Token.isKept, kind]), ← ih]
    rfl
  | silent inParent set t tokens nodes kind rest ih =>
    rw [List.filter_cons_of_neg, ← ih]
    rcases kind with kind | kind | ⟨kind, unknown⟩
    · simp [Token.isKept, kind]
    · simp [Token.isKept, kind]
    · simp [Token.isKept, kind, unknown]
  | pragma inParent set t p tokens nodes kind known rest ih =>
    rw [List.filter_cons_of_pos (by simp [Token.isKept, kind, known]), ← ih]
    rfl
  | interpolation inParent set t tokens nodes kind rest ih =>
    rw [List.filter_cons_of_pos, ← ih]
    · rfl
    · rcases kind with kind | kind <;> simp [Token.isKept, kind]
  | partialRef inParent set t tokens nodes kind rest ih =>
    rw [List.filter_cons_of_pos (by simp [Token.isKept, kind]), ← ih]
    rfl
  | region inParent set opening closing inner tokens nodes more opens closes inside same rest ih ih' =>
    have first : opening.isKept = true := by
      unfold Token.isKept
      cases kind : opening.kind <;> simp_all [Kind.opens]
    have last : closing.isKept = true := by simp [Token.isKept, closes]
    rw [List.cons_append, List.filter_cons_of_pos first, List.filter_append,
      List.filter_cons_of_pos last, ← ih, ← ih']
    simp [Node.tokensOf, Node.tokens]

end Nests

/-- Two tags of a list that are partners, with the nodes of what stands between them. -/
inductive Paired (opening closing : Token) (inner : List Node) : List Token → Prop
  | intro (set : Pragmas) (before between after : List Token) (opens : opening.kind.opens = true)
      (closes : closing.kind = .close)
      (inside : Nests (opening.kind = .parentOpen) set between inner) :
      Paired opening closing inner (before ++ opening :: between ++ closing :: after)

theorem Paired.around {opening closing : Token} {inner : List Node} {tokens : List Token}
    (paired : Paired opening closing inner tokens) (first last : List Token) :
    Paired opening closing inner (first ++ tokens ++ last) := by
  cases paired with
  | intro set before between after opens closes inside =>
    have whole := Paired.intro set (first ++ before) between (after ++ last) opens closes inside
    simpa using whole

theorem Node.At.of_leaf {outer within : Option Role} {leaf : Node} {rest : List Node} {role : Role}
    {opening closing : Token} {name : Name} {inner : List Node}
    (found : At outer (leaf :: rest) within (.region role opening name inner closing))
    (isLeaf : ∀ role opening name inner closing, leaf ≠ .region role opening name inner closing) :
    At outer rest within (.region role opening name inner closing) := by
  rcases found.of_cons with ⟨-, same⟩ | ⟨_, _, _, _, _, same, -⟩ | later
  · exact absurd same.symm (isLeaf _ _ _ _ _)
  · exact absurd same (isLeaf _ _ _ _ _)
  · exact later

/-- A region of the tree comes from two tags that are partners, and its role from the first of them
and from the region around it. -/
theorem Nests.region_at {inParent : Bool} {set : Pragmas} {tokens : List Token} {nodes : List Node}
    {outer within : Option Role} {role : Role} {opening closing : Token} {name : Name}
    {inner : List Node} (nests : Nests inParent set tokens nodes)
    (place : inParent = decide (outer = some .parent))
    (found : Node.At outer nodes within (.region role opening name inner closing)) :
    Paired opening closing inner tokens ∧
      role = opening.kind.role (decide (within = some .parent)) := by
  induction nests generalizing outer with
  | nil =>
    cases found with
    | here _ _ _ member => cases member
    | inside _ _ _ _ _ _ _ _ _ member _ => cases member
  | literal inParent set t tokens nodes kind rest ih =>
    obtain ⟨paired, whose⟩ := ih place (found.of_leaf (by simp))
    exact ⟨by simpa using paired.around [t] [], whose⟩
  | silent inParent set t tokens nodes kind rest ih =>
    obtain ⟨paired, whose⟩ := ih place found
    exact ⟨by simpa using paired.around [t] [], whose⟩
  | pragma inParent set t p tokens nodes kind known rest ih =>
    obtain ⟨paired, whose⟩ := ih place (found.of_leaf (by simp))
    exact ⟨by simpa using paired.around [t] [], whose⟩
  | interpolation inParent set t tokens nodes kind rest ih =>
    obtain ⟨paired, whose⟩ := ih place (found.of_leaf (by simp))
    exact ⟨by simpa using paired.around [t] [], whose⟩
  | partialRef inParent set t tokens nodes kind rest ih =>
    obtain ⟨paired, whose⟩ := ih place (found.of_leaf (by simp))
    exact ⟨by simpa using paired.around [t] [], whose⟩
  | region inParent set first last between tokens nodes more opens closes inside same rest ih ih' =>
    rcases found.of_cons with ⟨rfl, here⟩ | ⟨_, _, _, _, _, here, deeper⟩ | later
    · cases here
      exact ⟨.intro set [] between tokens opens closes inside, by rw [place]⟩
    · cases here
      have around : decide (first.kind = .parentOpen) =
          decide (some (first.kind.role inParent) = some Role.parent) := by
        rw [← Kind.decide_role_parent inParent opens]
        simp only [Option.some.injEq]
      obtain ⟨paired, whose⟩ := ih around deeper
      exact ⟨by simpa using paired.around [first] (last :: tokens), whose⟩
    · obtain ⟨paired, whose⟩ := ih' place later
      exact ⟨by simpa using paired.around (first :: between ++ [last]) [], whose⟩

/-- What is between two tags lies within the span from the one to the other. -/
theorem Paired.within {opening closing : Token} {inner : List Node} {tokens : List Token}
    (paired : Paired opening closing inner tokens)
    (order : tokens.Pairwise fun s t => s.span.stop ≤ t.span.start) :
    (∃ before between after, tokens = before ++ opening :: between ++ closing :: after ∧
      opening.kind.opens = true ∧ closing.kind = .close ∧ Bracketed between ∧
      Node.tokensOf inner = between.filter Token.isKept) ∧
    ∀ t ∈ Node.tokensOf inner, (Body.between opening closing).span.start ≤ t.span.start ∧
      t.span.stop ≤ (Body.between opening closing).span.stop := by
  cases paired with
  | intro set before between after opens closes inside =>
    refine ⟨⟨before, between, after, rfl, opens, closes, inside.bracketed, inside.tokensOf_eq⟩, ?_⟩
    intro t member
    have among : t ∈ between := by
      rw [inside.tokensOf_eq] at member
      exact (List.mem_filter.1 member).1
    obtain ⟨front, -, earlier⟩ := List.pairwise_append.1 order
    have later := (List.pairwise_append.1 front).2.1
    exact ⟨(List.pairwise_cons.1 later).1 t among, earlier t (by simp [among]) closing (by simp)⟩

theorem Kind.role_eq_argument_iff {kind : Kind} (inParent : Bool) :
    kind.role inParent = .argument ↔ kind = .blockOpen ∧ inParent = true := by
  cases kind <;> cases inParent <;> simp [Kind.role]

theorem Kind.role_eq_slot_iff {kind : Kind} (inParent : Bool) :
    kind.role inParent = .slot ↔ kind = .blockOpen ∧ inParent = false := by
  cases kind <;> cases inParent <;> simp [Kind.role]

/-- The tokens of a source have a tree if and only if they are well bracketed. The tree has the
tokens in order, its bodies run from tag to tag with all that is in them, and a block is an argument
just if it is directly in a parent. Without a tree the flaw is at the first tag that closes wrongly,
or else at the last one that is left open. -/
theorem nest_iff_bracketed {lexed : Pragmas} {source : String} {tokens : List Token}
    (tokenized : tokenize lexed source = .ok tokens) (set : Pragmas) :
    ((∃ tree, nest set tokens = .ok tree) ↔ Bracketed tokens ∧ PathsMeet set tokens) ∧
    (∀ tree, nest set tokens = .ok tree → Node.tokensOf tree = tokens.filter Token.isKept ∧
      ∀ outer role opening name inner closing,
        Node.At none tree outer (.region role opening name inner closing) →
        ((∃ before between after, tokens = before ++ opening :: between ++ closing :: after ∧
            opening.kind.opens = true ∧ closing.kind = .close ∧ Bracketed between ∧
            Node.tokensOf inner = between.filter Token.isKept) ∧
          ∀ t ∈ Node.tokensOf inner, (Body.between opening closing).span.start ≤ t.span.start ∧
            t.span.stop ≤ (Body.between opening closing).span.stop) ∧
        (Body.between opening closing).span = ⟨opening.span.stop, closing.span.start⟩ ∧
        (role = .argument ↔ opening.kind = .blockOpen ∧ outer = some .parent) ∧
        (role = .slot ↔ opening.kind = .blockOpen ∧ outer ≠ some .parent)) ∧
    ∀ flaw, nest set tokens = .error flaw →
      (∃ before t after, tokens = before ++ t :: after ∧ flaw.span = t.span ∧
          ClosesWrongly set before t flaw.cause ∧
          ∀ earlier u later, before = earlier ++ u :: later →
            ∀ cause, ¬ ClosesWrongly set earlier u cause) ∨
        (∀ before t after, tokens = before ++ t :: after →
            ∀ cause, ¬ ClosesWrongly set before t cause) ∧
          ∃ before opening inner, LeftOpen tokens before opening inner ∧
            flaw = ⟨.unclosedSection (opening.path (filtersOn set before)), opening.span⟩ := by
  refine ⟨exists_nest_iff, ?_, fun flaw => flaw_of_nest⟩
  intro tree read
  have nests := nests_of_nest read
  refine ⟨nests.tokensOf_eq, ?_⟩
  intro outer role opening name inner closing found
  obtain ⟨paired, whose⟩ := nests.region_at (by simp) found
  refine ⟨paired.within (ordered_of_tokenize tokenized), rfl, ?_, ?_⟩
  · rw [whose, Kind.role_eq_argument_iff, decide_eq_true_iff]
  · rw [whose, Kind.role_eq_slot_iff, decide_eq_false_iff_not]

/-- Where filters are split off names, a bar ends the path of a tag. -/
theorem nest_iff_bracketed_by_filters :
    ∃ tokens, tokenize {} "\x7b\x7b#a|b\x7d\x7dx\x7b\x7b/a\x7d\x7d" = .ok tokens ∧
      (Bracketed tokens ∧ PathsMeet { filters := true } tokens) ∧
      ¬ (Bracketed tokens ∧ PathsMeet {} tokens) := by
  have read : (tokenize {} "\x7b\x7b#a|b\x7d\x7dx\x7b\x7b/a\x7d\x7d").toOption.any (fun tokens =>
      (nest { filters := true } tokens).isOk && !(nest {} tokens).isOk) = true := by
    decide +kernel
  have isOk_iff (result : Except Flaw (List Node)) : result.isOk = true ↔ ∃ tree, result = .ok tree := by
    cases result <;> simp [Except.isOk, Except.toBool]
  cases tokenized : tokenize {} "\x7b\x7b#a|b\x7d\x7dx\x7b\x7b/a\x7d\x7d" with
  | error flaw =>
    rw [tokenized] at read
    cases read
  | ok tokens =>
    rw [tokenized] at read
    obtain ⟨accepted, rejected⟩ := Bool.and_eq_true_iff.1 read
    refine ⟨tokens, rfl, (nest_iff_bracketed tokenized _).1.1 ((isOk_iff _).1 accepted), ?_⟩
    intro bracketed
    have tree := (isOk_iff _).2 ((nest_iff_bracketed tokenized _).1.2 bracketed)
    rw [tree] at rejected
    cases rejected

end Markup
end Mustache
