import Mustache.Proofs.Markup.Pieces
import Mathlib.Data.List.Induction

/-! Which tags stand alone, told from the lines of the source: what is removed around them, and what
indents those that have an indent. -/
namespace Mustache.Markup

/-- The line of the token up to it. -/
def Token.lineBefore (source : String) (t : Token) : List Char :=
  Text.lastLine (Text.takeBytes t.span.start source.toList)

/-- The line of the token after it. -/
def Token.lineAfter (source : String) (t : Token) : List Char :=
  Text.firstLine (Text.dropBytes t.span.stop source.toList)

/-- A tag that is no interpolation, with nothing but blanks beside it on its line. -/
structure Token.HasLine (source : String) (t : Token) : Prop where
  notEscaped : t.kind ≠ .escaped
  notUnescaped : t.kind ≠ .unescaped
  before : OnlyBlanks (t.lineBefore source)
  after : OnlyBlanks (t.lineAfter source)

/-- The bytes of the token's line before the token. -/
def Token.marginBefore (source : String) (t : Token) : Span :=
  ⟨t.span.start - Text.byteSize (t.lineBefore source), t.span.start⟩

/-- The bytes of the token's line after the token, with the line feed that ends it. -/
def Token.marginAfter (source : String) (t : Token) : Span :=
  ⟨t.span.stop, t.span.stop +
    Text.byteSize (Text.firstLineEnded (Text.dropBytes t.span.stop source.toList))⟩

/-! ### One line of tokens -/

/-- A tag of which tidying removes the line, and the texts beside it there. -/
structure Lone (left : List Token) (t : Token) (right : List Token) : Prop where
  tag : t.kind ≠ .text
  kind : t.kind.mayStandAlone = true
  texts : ∀ u ∈ left ++ right, u.kind = .text ∧ u.content.toList.all isMargin = true

theorem Lone.tidyLine_eq {left right : List Token} {t : Token} (lone : Lone left t right) :
    tidyLine (left ++ t :: right) = [t.alone left] := by
  have texts : ∀ u ∈ left ++ right, u.isText = true :=
    fun u member => (Token.isText_iff u).2 (lone.texts u member).1
  have tag : t.isText = false :=
    Bool.eq_false_iff.2 fun isText => lone.tag ((Token.isText_iff t).1 isText)
  have before : ∀ u ∈ left, u.isText = true :=
    fun u member => texts u (List.mem_append_left right member)
  have after : ∀ u ∈ right, u.isText = true :=
    fun u member => texts u (List.mem_append_right left member)
  have single : (left ++ t :: right).filter (!·.isText) = [t] := by
    rw [List.filter_append, List.filter_cons_of_pos (by simp [tag]), List.filter_eq_nil_iff.2,
      List.filter_eq_nil_iff.2, List.nil_append]
    · intro u member
      simp [after u member]
    · intro u member
      simp [before u member]
  have others : (left ++ t :: right).filter Token.isText = left ++ right := by
    rw [List.filter_append, List.filter_cons_of_neg (by simp [tag]), List.filter_eq_self.2 before,
      List.filter_eq_self.2 after]
  have blank : (left ++ right).all (·.content.toList.all isMargin) = true :=
    List.all_eq_true.2 fun u member => (lone.texts u member).2
  have margin : (left ++ t :: right).takeWhile Token.isText = left := by
    rw [List.takeWhile_append_of_pos before, List.takeWhile_cons_of_neg (by simp [tag]),
      List.append_nil]
  unfold tidyLine
  rw [single]
  simp only [others, blank, lone.kind, margin, Bool.and_self, if_true]

theorem tidyLine_of_not_lone {line : List Token}
    (crowded : ∀ left t right, line = left ++ t :: right → ¬ Lone left t right) :
    tidyLine line = line := by
  unfold tidyLine
  split
  · rename_i tag single
    split
    · rename_i alone
      exfalso
      rw [Bool.and_eq_true, List.all_eq_true] at alone
      obtain ⟨left, right, rfl, before, isTag, after⟩ := List.filter_eq_cons_iff.1 single
      have isText : ∀ u ∈ left ++ right, u.isText = true := by
        intro u member
        rcases List.mem_append.1 member with here | there
        · simpa using before u here
        · simpa using List.filter_eq_nil_iff.1 after u there
      refine crowded left tag right rfl ⟨?_, alone.1, ?_⟩
      · intro text
        simp [(Token.isText_iff tag).2 text] at isTag
      · intro u member
        refine ⟨(Token.isText_iff u).1 (isText u member), alone.2 u (List.mem_filter.2 ⟨?_, isText u member⟩)⟩
        rcases List.mem_append.1 member with here | there
        · exact List.mem_append_left _ here
        · exact List.mem_append_right _ (List.mem_cons_of_mem tag there)
    · rfl
  · rfl

/-! ### One line of the source -/

section
variable {source : List Char}

theorem newline_not_mem_of_open {t : Token} {part : List Char} (shows : t.Shows part)
    (isText : t.kind = .text) (opens : t.endsLine = false) : '\n' ∉ part := by
  cases shows with
  | tag kind => exact absurd isText kind
  | text kind content nonempty line =>
    rcases List.eq_nil_or_concat part with rfl | ⟨front, c, rfl⟩
    · exact absurd rfl nonempty
    · rw [List.concat_eq_append] at content line ⊢
      rw [List.dropLast_concat] at line
      have last : c ≠ '\n' := by
        rintro rfl
        simp [Token.endsLine, (Token.isText_iff t).2 isText, content] at opens
      simp [line, last.symm]

theorem exists_of_ended {t : Token} {part : List Char} (shows : t.Shows part)
    (ends : t.endsLine = true) : ∃ front, part = front ++ ['\n'] ∧ '\n' ∉ front := by
  rw [Token.endsLine, Bool.and_eq_true, Token.isText_iff] at ends
  obtain ⟨isText, last⟩ := ends
  cases shows with
  | tag kind => exact absurd isText kind
  | text kind content nonempty line =>
    rcases List.eq_nil_or_concat part with rfl | ⟨front, c, rfl⟩
    · exact absurd rfl nonempty
    · rw [List.concat_eq_append] at content line ⊢
      rw [List.dropLast_concat] at line
      rw [content] at last
      simp only [List.getLast?_append, List.getLast?_singleton, Option.some_or, beq_iff_eq,
        Option.some.injEq] at last
      exact ⟨front, by rw [last], line⟩

/-- What tokens say of what they cover on a line. -/
def Bare (tokens : List Token) : Prop :=
  ∀ u ∈ tokens, u.kind = .text ∧ u.content.toList.all isMargin = true

theorem Bare.append_iff {first second : List Token} :
    Bare (first ++ second) ↔ Bare first ∧ Bare second := by
  constructor
  · intro bare
    exact ⟨fun u member => bare u (List.mem_append_left _ member),
      fun u member => bare u (List.mem_append_right _ member)⟩
  · rintro ⟨here, there⟩ u member
    exact (List.mem_append.1 member).elim (here u) (there u)

theorem bare_singleton_iff {t : Token} :
    Bare [t] ↔ t.kind = .text ∧ t.content.toList.all isMargin = true := by
  simp [Bare]

/-- The last line of what is before a tag starts after the last token that ends a line. -/
theorem lastLine_of_grouped {front : List (List Token)} {left : List Token}
    (grouped : Grouped (front ++ [left]))
    (shows : ∀ t ∈ front.flatten, t.Shows (t.part source)) :
    Text.lastLine ((front.flatten ++ left).flatMap (Token.part source)) =
      Text.lastLine (left.flatMap (Token.part source)) := by
  rcases List.eq_nil_or_concat front with rfl | ⟨front, line, rfl⟩
  · rfl
  · rw [List.concat_eq_append] at grouped shows ⊢
    rw [List.append_assoc] at grouped
    have last := grouped.tail
    cases last with
    | cons body t _ opens ends rest =>
      obtain ⟨text, same, -⟩ := exists_of_ended (shows t (by simp)) ends
      simp only [List.flatten_append, List.flatten_singleton, List.flatMap_append,
        List.flatMap_cons, List.flatMap_nil, List.append_nil, same]
      have split := Text.lastLine_ended
        (front.flatten.flatMap (Token.part source) ++ (body.flatMap (Token.part source) ++ text))
        (left.flatMap (Token.part source))
      simpa only [List.append_assoc] using split

theorem not_onlyBlanks_of_mem {text : List Char} {c : Char} (other : isMargin c = false)
    (member : c ∈ text) : ¬ OnlyBlanks text := by
  intro blank
  rcases blank c member with rfl | rfl | rfl <;> exact absurd other (by decide)

theorem newline_ne_of_not_isMargin {c : Char} (other : isMargin c = false) : '\n' ≠ c := by
  rintro rfl
  exact absurd other (by decide)

theorem onlyBlanks_lastLine_iff {left : List Token} (opens : ∀ t ∈ left, t.endsLine = false)
    (shows : ∀ t ∈ left, t.Shows (t.part source)) :
    OnlyBlanks (Text.lastLine (left.flatMap (Token.part source))) ↔ Bare left := by
  induction left using List.reverseRecOn with
  | nil => simp [Text.lastLine, OnlyBlanks, Bare]
  | append_singleton left t ih =>
    have earlier := ih (fun u member => opens u (List.mem_append_left _ member))
      (fun u member => shows u (List.mem_append_left _ member))
    have here := shows t (by simp)
    rw [List.flatMap_append, List.flatMap_singleton, Bare.append_iff, bare_singleton_iff]
    by_cases isText : t.kind = .text
    · have unbroken := newline_not_mem_of_open here isText (opens t (by simp))
      have content : t.content.toList = t.part source := by
        cases here with
        | text kind content nonempty line => exact content
        | tag kind => exact absurd isText kind
      rw [Text.lastLine_append unbroken, onlyBlanks_append, earlier, content,
        all_isMargin_iff unbroken]
      simp [isText]
    · cases here with
      | text kind => exact absurd kind isText
      | tag kind first last =>
        obtain ⟨front, c, whole, other⟩ := last
        have inside : c ∈ Text.lastLine (left.flatMap (Token.part source) ++ t.part source) := by
          rw [whole, ← List.append_assoc, Text.lastLine_append]
          · simp
          · simpa using newline_ne_of_not_isMargin other
        simp [not_onlyBlanks_of_mem other inside, isText]

/-- The texts before a tag that has its line to itself are its line up to it. -/
theorem lastLine_of_bare {left : List Token} (opens : ∀ t ∈ left, t.endsLine = false)
    (shows : ∀ t ∈ left, t.Shows (t.part source)) (bare : Bare left) :
    Text.lastLine (left.flatMap (Token.part source)) = left.flatMap (Token.part source) := by
  apply Text.lastLine_of_unbroken
  intro inside
  obtain ⟨t, member, within⟩ := List.mem_flatMap.1 inside
  exact newline_not_mem_of_open (shows t member) (bare t member).1 (opens t member) within

theorem Grouped.eq_nil_of_ended {t : Token} {right : List Token} {back : List (List Token)}
    (grouped : Grouped ((t :: right) :: back)) (ends : t.endsLine = true) : right = [] := by
  cases right with
  | nil => rfl
  | cons u right =>
    have first : Grouped (([t] ++ u :: right) :: back) := grouped
    have opens := first.opens t List.mem_cons_self
    rw [ends] at opens
    cases opens

theorem Grouped.eq_nil_of_nil {back : List (List Token)} (grouped : Grouped ([] :: back)) :
    back = [] := by
  generalize whole : [] = line at grouped
  cases grouped with
  | last => rfl
  | cons body t more opens ends rest => simp at whole

/-- What stands between a tag and the next line feed, by the tokens of its line. -/
theorem onlyBlanks_firstLine_iff {right : List Token} {back : List (List Token)}
    (grouped : Grouped (right :: back))
    (shows : ∀ t ∈ right ++ back.flatten, t.Shows (t.part source)) :
    (OnlyBlanks (Text.firstLine ((right ++ back.flatten).flatMap (Token.part source))) ↔ Bare right) ∧
      (Bare right → Text.firstLineEnded ((right ++ back.flatten).flatMap (Token.part source)) =
        right.flatMap (Token.part source)) := by
  induction right with
  | nil =>
    rw [grouped.eq_nil_of_nil]
    simp [Text.firstLine, Text.firstLineEnded, OnlyBlanks, Bare]
  | cons t right ih =>
    have here := shows t (by simp)
    rw [List.cons_append, List.flatMap_cons, List.flatMap_cons, ← List.singleton_append (l := right),
      Bare.append_iff, bare_singleton_iff]
    cases ends : t.endsLine with
    | true =>
      obtain ⟨text, same, unbroken⟩ := exists_of_ended here ends
      rw [grouped.eq_nil_of_ended ends]
      cases here with
      | tag kind =>
        rw [Token.endsLine_of_tag kind] at ends
        cases ends
      | text kind content nonempty line =>
        have blank : (text ++ ['\n']).all isMargin = true ↔ OnlyBlanks text := by
          have newline : isMargin '\n' = true := by decide
          rw [← all_isMargin_iff unbroken, List.all_append]
          simp [newline]
        rw [content, same, List.append_assoc, List.singleton_append, Text.firstLine_ended unbroken,
          Text.firstLineEnded_ended unbroken, blank]
        simp [Bare, kind]
    | false =>
      have first : Grouped (([] ++ t :: right) :: back) := grouped
      have tail := ih (first.cut ends) fun u member => shows u (List.mem_cons_of_mem t member)
      cases here with
      | text kind content nonempty line =>
        have unbroken := newline_not_mem_of_open (.text kind content nonempty line) kind ends
        rw [Text.firstLine_append unbroken, Text.firstLineEnded_append unbroken, onlyBlanks_append,
          tail.1, content, all_isMargin_iff unbroken]
        refine ⟨by simp [kind], ?_⟩
        rintro ⟨-, bare⟩
        rw [tail.2 bare]
      | tag kind first last =>
        obtain ⟨c, others, whole, other⟩ := first
        have inside : c ∈ Text.firstLine (t.part source ++
            (right ++ back.flatten).flatMap (Token.part source)) := by
          rw [whole, List.cons_append, Text.firstLine, List.takeWhile_cons_of_pos]
          · exact List.mem_cons_self
          · simpa using (newline_ne_of_not_isMargin other).symm
        have crowded := not_onlyBlanks_of_mem other inside
        simp only [crowded, kind, false_and, false_implies, and_self]

end

/-! ### Standing alone -/

theorem Kind.mayStandAlone_iff {kind : Kind} (tag : kind ≠ .text) :
    kind.mayStandAlone = true ↔ kind ≠ .escaped ∧ kind ≠ .unescaped := by
  cases kind <;> simp [Kind.mayStandAlone] at tag ⊢

theorem Kind.isIndented_iff {kind : Kind} :
    kind.isIndented = true ↔ kind = .partialTag ∨ kind = .parentOpen := by
  cases kind <;> simp [Kind.isIndented]

section
variable {source : String} {raw : List Token}

/-- A tag on a line of tokens, seen in the source. -/
structure Placed (source : String) (left : List Token) (t : Token) (right : List Token) : Prop where
  hasLine : Lone left t right ↔ t.HasLine source
  before : Bare left → t.lineBefore source = left.flatMap (Token.part source.toList)
  marginBefore : Bare left → ∀ i, (t.marginBefore source).Holds i ↔ ∃ u ∈ left, u.span.Holds i
  marginAfter : Bare right → ∀ i, (t.marginAfter source).Holds i ↔ ∃ u ∈ right, u.span.Holds i

theorem Laid.placed (laid : Laid source.toList raw) {front back : List (List Token)}
    {left right : List Token} {t : Token} (grouped : lines raw = front ++ (left ++ t :: right) :: back)
    (tag : t.kind ≠ .text) : Placed source left t right := by
  have whole : raw = (front.flatten ++ left) ++ t :: (right ++ back.flatten) := by
    rw [← flatten_lines raw, grouped]
    simp
  have groups : Grouped (front ++ (left ++ t :: right) :: back) := grouped ▸ grouped_lines raw
  have opens : t.endsLine = false := Token.endsLine_of_tag tag
  have frontShows : ∀ u ∈ front.flatten, u.Shows (u.part source.toList) :=
    fun u member => laid.shows u (by rw [whole]; simp [List.mem_append, member])
  have leftShows : ∀ u ∈ left, u.Shows (u.part source.toList) :=
    fun u member => laid.shows u (by rw [whole]; simp [member])
  have rightShows : ∀ u ∈ right ++ back.flatten, u.Shows (u.part source.toList) :=
    fun u member => laid.shows u (by rw [whole]; exact List.mem_append_right _ (List.mem_cons_of_mem t member))
  have leftOpens : ∀ u ∈ left, u.endsLine = false := groups.tail.opens
  obtain ⟨span, text, rest⟩ := laid.around whole
  have lineBefore : t.lineBefore source = Text.lastLine (left.flatMap (Token.part source.toList)) := by
    rw [← lastLine_of_grouped groups.front frontShows, Token.lineBefore, text]
  have lineOf (bare : Bare left) : t.lineBefore source = left.flatMap (Token.part source.toList) := by
    rw [lineBefore, lastLine_of_bare leftOpens leftShows bare]
  obtain ⟨after, ended⟩ := onlyBlanks_firstLine_iff (groups.tail.cut opens) rightShows
  refine ⟨⟨?_, ?_⟩, lineOf, ?_, ?_⟩
  · intro lone
    have bare := Bare.append_iff.1 lone.texts
    obtain ⟨notEscaped, notUnescaped⟩ := (Kind.mayStandAlone_iff tag).1 lone.kind
    refine ⟨notEscaped, notUnescaped, ?_, ?_⟩
    · rw [lineBefore]
      exact (onlyBlanks_lastLine_iff leftOpens leftShows).2 bare.1
    · rw [Token.lineAfter, rest]
      exact after.2 bare.2
  · intro hasLine
    refine ⟨tag, (Kind.mayStandAlone_iff tag).2 ⟨hasLine.notEscaped, hasLine.notUnescaped⟩, ?_⟩
    have blankBefore := hasLine.before
    have blankAfter := hasLine.after
    rw [lineBefore] at blankBefore
    rw [Token.lineAfter, rest] at blankAfter
    exact Bare.append_iff.2
      ⟨(onlyBlanks_lastLine_iff leftOpens leftShows).1 blankBefore, after.1 blankAfter⟩
  · intro bare i
    have split : raw = front.flatten ++ (left ++ t :: (right ++ back.flatten)) := by simp [whole]
    rw [laid.holds_iff split, Token.marginBefore, lineOf bare, span, List.flatMap_append,
      Text.byteSize_append, Nat.add_sub_cancel]
  · intro bare i
    have split : raw = (front.flatten ++ left ++ [t]) ++ (right ++ back.flatten) := by simp [whole]
    rw [laid.holds_iff split, Token.marginAfter, rest, ended bare, span,
      @List.flatMap_append _ _ (front.flatten ++ left ++ [t]), Text.byteSize_append]

/-- Where a token of a tidied list comes from. -/
theorem mem_tidy_cases {t : Token} (member : t ∈ tidy raw) :
    ∃ front left u right back, lines raw = front ++ (left ++ u :: right) :: back ∧
      ((Lone left u right ∧ t = u.alone left) ∨ (¬ Lone left u right ∧ t = u)) := by
  obtain ⟨line, among, within⟩ := List.mem_flatMap.1 member
  obtain ⟨front, back, grouped⟩ := List.append_of_mem among
  by_cases lone : ∃ left u right, line = left ++ u :: right ∧ Lone left u right
  · obtain ⟨left, u, right, rfl, lone⟩ := lone
    rw [lone.tidyLine_eq, List.mem_singleton] at within
    exact ⟨front, left, u, right, back, grouped, .inl ⟨lone, within⟩⟩
  · have crowded : ∀ left u right, line = left ++ u :: right → ¬ Lone left u right :=
      fun left u right whole alone => lone ⟨left, u, right, whole, alone⟩
    rw [tidyLine_of_not_lone crowded] at within
    obtain ⟨left, right, rfl⟩ := List.append_of_mem within
    exact ⟨front, left, t, right, back, grouped, .inr ⟨crowded left t right rfl, rfl⟩⟩

theorem standalone_iff_hasLine (laid : Laid source.toList raw) (untidied : ∀ t ∈ raw, t.Raw)
    {t : Token} (member : t ∈ tidy raw) (tag : t.kind ≠ .text) :
    t.standalone = true ↔ t.HasLine source := by
  obtain ⟨front, left, u, right, back, grouped, ⟨lone, rfl⟩ | ⟨crowded, rfl⟩⟩ := mem_tidy_cases member
  · obtain ⟨notEscaped, notUnescaped, before, after⟩ := (laid.placed grouped lone.tag).hasLine.1 lone
    exact ⟨fun _ => ⟨notEscaped, notUnescaped, before, after⟩, fun _ => rfl⟩
  · have among : t ∈ raw := by
      rw [← flatten_lines raw, grouped]
      simp
    rw [(untidied t among).standalone, ← (laid.placed grouped tag).hasLine]
    simp [crowded]

/-- What tidying leaves uncovered is what stands beside a tag on a line that it removes. -/
theorem uncovered_iff (laid : Laid source.toList raw) (untidied : ∀ t ∈ raw, t.Raw) {i : Nat}
    (inside : i < Text.byteSize source.toList) :
    (¬ ∃ t ∈ tidy raw, t.span.Holds i) ↔ ∃ t ∈ tidy raw, t.standalone = true ∧
      ((t.marginBefore source).Holds i ∨ (t.marginAfter source).Holds i) := by
  constructor
  · intro uncovered
    obtain ⟨u, member, holds⟩ := (laid.tiled.exists_mem_iff i).2 ⟨Nat.zero_le i, by simpa using inside⟩
    rw [← flatten_lines raw] at member
    obtain ⟨line, among, within⟩ := List.mem_flatten.1 member
    by_cases lone : ∃ left t right, line = left ++ t :: right ∧ Lone left t right
    · obtain ⟨left, t, right, rfl, lone⟩ := lone
      obtain ⟨front, back, grouped⟩ := List.append_of_mem among
      have placed := laid.placed grouped lone.tag
      obtain ⟨bare, bare'⟩ := Bare.append_iff.1 lone.texts
      have kept : t.alone left ∈ tidy raw :=
        List.mem_flatMap.2 ⟨_, among, by rw [lone.tidyLine_eq]; exact List.mem_singleton_self _⟩
      refine ⟨t.alone left, kept, rfl, ?_⟩
      rcases List.mem_append.1 within with before | after
      · exact .inl ((placed.marginBefore bare i).2 ⟨u, before, holds⟩)
      rcases List.mem_cons.1 after with rfl | after
      · exact absurd ⟨_, kept, holds⟩ uncovered
      · exact .inr ((placed.marginAfter bare' i).2 ⟨u, after, holds⟩)
    · refine absurd ⟨u, List.mem_flatMap.2 ⟨line, among, ?_⟩, holds⟩ uncovered
      rw [tidyLine_of_not_lone fun left t right whole alone => lone ⟨left, t, right, whole, alone⟩]
      exact within
  · rintro ⟨t, member, standalone, margin⟩ ⟨s, covering, holds⟩
    have order := laid.tiled.ordered
    obtain ⟨front, left, u, right, back, grouped, ⟨lone, rfl⟩ | ⟨-, rfl⟩⟩ := mem_tidy_cases member
    · have placed := laid.placed grouped lone.tag
      obtain ⟨bare, bare'⟩ := Bare.append_iff.1 lone.texts
      obtain ⟨v, beside, holds'⟩ : ∃ v ∈ left ++ right, v.span.Holds i := by
        rcases margin with before | after
        · obtain ⟨v, here, holds'⟩ := (placed.marginBefore bare i).1 before
          exact ⟨v, List.mem_append_left right here, holds'⟩
        · obtain ⟨v, there, holds'⟩ := (placed.marginAfter bare' i).1 after
          exact ⟨v, List.mem_append_right left there, holds'⟩
      -- The token that covers the byte is on the same line, where only the tag is kept.
      obtain ⟨line, among, within⟩ := List.mem_flatMap.1 covering
      obtain ⟨s', there, like⟩ := (thinned_tidyLine line).mem within
      rw [like.span] at holds
      have here : left ++ u :: right ∈ lines raw := by simp [grouped]
      have onLine : v ∈ left ++ u :: right := by
        rcases List.mem_append.1 beside with before | after
        · exact List.mem_append_left _ before
        · exact List.mem_append_right _ (List.mem_cons_of_mem u after)
      rw [← flatten_lines raw] at order
      obtain rfl := eq_line_of_holds order among here there onLine holds holds'
      rw [lone.tidyLine_eq, List.mem_singleton] at within
      subst within
      have onTag : u.span.Holds i := by rwa [← like.span] at holds
      have same : u = v := by
        refine eq_of_holds order ?_ ?_ onTag holds'
        · exact List.mem_flatten.2 ⟨_, here, by simp⟩
        · exact List.mem_flatten.2 ⟨_, here, onLine⟩
      exact lone.tag (by rw [same]; exact (lone.texts v beside).1)
    · have among : t ∈ raw := by
        rw [← flatten_lines raw, grouped]
        simp
      rw [(untidied t among).standalone] at standalone
      cases standalone

theorem kept_of_mem_tidy (laid : Laid source.toList raw) {t : Token} (member : t ∈ tidy raw) :
    ∃ part, part ≠ [] ∧ t.span.Covers source.toList part := by
  obtain ⟨u, among, like⟩ := (thinned_tidy raw).mem member
  obtain ⟨span, part, nonempty, place, covers⟩ := laid.tiled.covers among
  refine ⟨part, nonempty, ?_⟩
  rw [like.span, place]
  exact covers

theorem text_of_mem_tidy (laid : Laid source.toList raw) (untidied : ∀ t ∈ raw, t.Raw) {t : Token}
    (member : t ∈ tidy raw) (isText : t.kind = .text) :
    t.standalone = false ∧ t.content = t.span.slice source := by
  obtain ⟨front, left, u, right, back, grouped, ⟨lone, rfl⟩ | ⟨-, rfl⟩⟩ := mem_tidy_cases member
  · exact absurd isText lone.tag
  · have among : t ∈ raw := by
      rw [← flatten_lines raw, grouped]
      simp
    refine ⟨(untidied t among).standalone, ?_⟩
    cases laid.shows t among with
    | tag kind => exact absurd isText kind
    | text kind content => exact String.toList_injective (by rw [content, Span.slice]; simp [Token.part])

theorem indent_of_mem_tidy_eq (laid : Laid source.toList raw) (untidied : ∀ t ∈ raw, t.Raw) {t : Token}
    (member : t ∈ tidy raw) :
    t.indent = if t.standalone = true ∧ (t.kind = .partialTag ∨ t.kind = .parentOpen) then
      .ofList (t.lineBefore source) else "" := by
  obtain ⟨front, left, u, right, back, grouped, ⟨lone, rfl⟩ | ⟨-, rfl⟩⟩ := mem_tidy_cases member
  · have placed := laid.placed grouped lone.tag
    have bare := (Bare.append_iff.1 lone.texts).1
    have joined : String.join (left.map Token.content) = .ofList ((u.alone left).lineBefore source) := by
      have line : (u.alone left).lineBefore source = left.flatMap (Token.part source.toList) :=
        placed.before bare
      apply String.toList_injective
      rw [line, String.toList_join, String.toList_ofList, List.flatMap_map, List.flatMap_def,
        List.flatMap_def]
      refine congrArg List.flatten (List.map_congr_left fun s here => ?_)
      have among : s ∈ raw := by
        rw [← flatten_lines raw, grouped]
        simp [here]
      cases laid.shows s among with
      | text kind content => exact content
      | tag kind => exact absurd (bare s here).1 kind
    have indented : (u.alone left).indent =
        if u.kind.isIndented then String.join (left.map Token.content) else "" := rfl
    rw [indented, joined]
    simp only [Kind.isIndented_iff]
    simp [Token.alone]
  · have among : t ∈ raw := by
      rw [← flatten_lines raw, grouped]
      simp
    simp [(untidied t among).standalone, (untidied t among).indent]

end

/-- The rule for tags that stand alone, told from the source: which tags do, that all of the source
is covered but the blanks and the line feeds of their lines, in order and with texts as they are, and
what their indents are. -/
theorem tokenize_standalone {set : Pragmas} {source : String} {tokens : List Token}
    (accepted : tokenize set source = .ok tokens) :
    (∀ t ∈ tokens, t.kind ≠ .text → (t.standalone = true ↔ t.HasLine source)) ∧
    (∀ i < Text.byteSize source.toList, (¬ ∃ t ∈ tokens, t.span.Holds i) ↔
      ∃ t ∈ tokens, t.standalone = true ∧
        ((t.marginBefore source).Holds i ∨ (t.marginAfter source).Holds i)) ∧
    tokens.Pairwise (fun s t => s.span.stop ≤ t.span.start) ∧
    (∀ t ∈ tokens, (∃ part, part ≠ [] ∧ t.span.Covers source.toList part) ∧
      (t.kind = .text → t.standalone = false ∧ t.content = t.span.slice source)) ∧
    ∀ t ∈ tokens, t.indent =
      if t.standalone = true ∧ (t.kind = .partialTag ∨ t.kind = .parentOpen) then
        .ofList (t.lineBefore source) else "" := by
  obtain ⟨raw, scanned, rfl⟩ := scanned_of_tokenize accepted
  have laid := scanned.laid
  have untidied : ∀ t ∈ raw, t.Raw := fun t => scanned.raw
  refine ⟨fun t => standalone_iff_hasLine laid untidied, fun i => uncovered_iff laid untidied,
    ordered_of_tokenize accepted, ?_, fun t => indent_of_mem_tidy_eq laid untidied⟩
  intro t member
  exact ⟨kept_of_mem_tidy laid member, text_of_mem_tidy laid untidied member⟩

theorem tokenize_standalone_partial :
    ∃ tokens, tokenize {} "a\r\n \t\x7b\x7b>p\x7d\x7d \r\n\x7b\x7b! c\n\x7d\x7d \x7b\x7b/s\x7d\x7d" = .ok tokens ∧
      ∃ t ∈ tokens, t.kind = .partialTag ∧ t.standalone = true ∧ t.indent = " \t" := by
  generalize whole : "a\r\n \t\x7b\x7b>p\x7d\x7d \r\n\x7b\x7b! c\n\x7d\x7d \x7b\x7b/s\x7d\x7d" = source
  have found : (tokenize {} source).toOption.any (·.any fun t =>
      decide (t.kind = .partialTag ∧ t.span = ⟨5, 11⟩)) = true := by
    subst whole
    decide +kernel
  cases accepted : tokenize {} source with
  | error flaw =>
    rw [accepted] at found
    cases found
  | ok tokens =>
    rw [accepted] at found
    obtain ⟨t, member, known⟩ := List.any_eq_true.1 found
    obtain ⟨kind, span⟩ := of_decide_eq_true known
    obtain ⟨standalone, -, -, -, indent⟩ := tokenize_standalone accepted
    subst whole
    have hasLine : t.HasLine "a\r\n \t\x7b\x7b>p\x7d\x7d \r\n\x7b\x7b! c\n\x7d\x7d \x7b\x7b/s\x7d\x7d" := by
      constructor
      · simp [kind]
      · simp [kind]
      · rw [Token.lineBefore, span]
        decide +kernel
      · rw [Token.lineAfter, span]
        decide +kernel
    have alone := (standalone t member (by simp [kind])).2 hasLine
    refine ⟨tokens, rfl, t, member, kind, alone, ?_⟩
    rw [indent t member, if_pos ⟨alone, .inl kind⟩, Token.lineBefore, span]
    decide +kernel

end Mustache.Markup
