import Mustache.Markup.Line
import Mustache.Proofs.Markup.Reading

/-! Tidying told from a tag on: what a tidied list has after a tag, and between two tags, depends
only on the tokens there and on whether the lines of these tags were removed. -/
namespace Mustache.Markup

/-- Tokens that differ at most in what tidying settles. -/
structure Token.Like (t u : Token) : Prop where
  kind : t.kind = u.kind
  span : t.span = u.span
  content : t.content = u.content
  delims : t.delims = u.delims

namespace Token

theorem Like.refl (t : Token) : t.Like t := ⟨rfl, rfl, rfl, rfl⟩

theorem alone_like (t : Token) (before : List Token) : (t.alone before).Like t := ⟨rfl, rfl, rfl, rfl⟩

theorem isText_iff (t : Token) : t.isText = true ↔ t.kind = .text := by
  unfold isText
  exact beq_iff_eq

theorem endsLine_of_tag {t : Token} (notText : t.kind ≠ .text) : t.endsLine = false := by
  unfold endsLine
  rw [Bool.and_eq_false_iff]
  left
  exact Bool.eq_false_iff.2 fun isText => notText ((isText_iff t).1 isText)

end Token

/-! ### Lines -/

/-- Groups of which all but the last end a line, at their last token and nowhere else. -/
inductive Grouped : List (List Token) → Prop
  | last (line : List Token) (opens : ∀ t ∈ line, t.endsLine = false) : Grouped [line]
  | cons (line : List Token) (t : Token) (more : List (List Token))
      (opens : ∀ s ∈ line, s.endsLine = false) (ends : t.endsLine = true) (rest : Grouped more) :
      Grouped ((line ++ [t]) :: more)

theorem grouped_lines (tokens : List Token) : Grouped (lines tokens) := by
  induction tokens with
  | nil => exact .last [] (by simp)
  | cons t rest ih =>
    rw [lines]
    split
    · rename_i ends
      exact .cons [] t (lines rest) (by simp) ends ih
    · rename_i opens
      rw [Bool.not_eq_true] at opens
      generalize lines rest = groups at ih
      cases ih with
      | last line others => exact .last (t :: line) (by simpa [opens] using others)
      | cons line last more others ends rest =>
        exact .cons (t :: line) last more (by simpa [opens] using others) ends rest

theorem lines_append_of_open {line rest first : List Token} {more : List (List Token)}
    (opens : ∀ t ∈ line, t.endsLine = false) (grouped : lines rest = first :: more) :
    lines (line ++ rest) = (line ++ first) :: more := by
  induction line with
  | nil => exact grouped
  | cons t line ih =>
    have here : t.endsLine = false := opens t (by simp)
    have tail := ih fun s member => opens s (by simp [member])
    rw [List.cons_append, lines, here, tail]
    rfl

theorem Grouped.lines_flatten {groups : List (List Token)} (grouped : Grouped groups) :
    lines groups.flatten = groups := by
  induction grouped with
  | last line opens =>
    have whole := lines_append_of_open opens (show lines [] = [[]] from rfl)
    simpa using whole
  | cons line t more opens ends rest ih =>
    have tail : lines (t :: more.flatten) = [t] :: more := by
      rw [lines, ends, ih]
      rfl
    have whole := lines_append_of_open opens tail
    simpa using whole

theorem Grouped.cut {front rest : List Token} {t : Token} {more : List (List Token)}
    (grouped : Grouped ((front ++ t :: rest) :: more)) (opens : t.endsLine = false) :
    Grouped (rest :: more) := by
  generalize whole : front ++ t :: rest = line at grouped
  cases grouped with
  | last line others =>
    subst whole
    exact .last rest fun s member => others s (by simp [member])
  | cons line last more others ends tail =>
    rcases List.eq_nil_or_concat rest with rfl | ⟨rest', last', rfl⟩
    · exfalso
      have : t = last := by
        have := congrArg List.getLast? whole
        simpa using this
      rw [this, ends] at opens
      cases opens
    · have split : front ++ t :: rest' = line ∧ last' = last := by
        have same : (front ++ t :: rest') ++ [last'] = line ++ [last] := by
          rw [← whole]
          simp
        obtain ⟨front, back⟩ := List.append_inj' same rfl
        exact ⟨front, by simpa using back⟩
      obtain ⟨rfl, rfl⟩ := split
      rw [List.concat_eq_append]
      exact .cons rest' last' more (fun s member => others s (by simp [member])) ends tail

theorem Grouped.tail {front more : List (List Token)} {line : List Token}
    (grouped : Grouped (front ++ line :: more)) : Grouped (line :: more) := by
  induction front with
  | nil => exact grouped
  | cons first front ih =>
    rw [List.cons_append] at grouped
    cases whole : front ++ line :: more with
    | nil => simp at whole
    | cons second others =>
      rw [whole] at grouped ih
      cases grouped with
      | cons line t more opens ends rest => exact ih rest

theorem Grouped.opens {line rest : List Token} {t : Token} {more : List (List Token)}
    (grouped : Grouped ((line ++ t :: rest) :: more)) : ∀ s ∈ line, s.endsLine = false := by
  generalize whole : line ++ t :: rest = all at grouped
  intro s member
  cases grouped with
  | last all opens =>
    subst whole
    exact opens s (by simp [member])
  | cons body last more opens ends tail =>
    have begins : line <+: body ++ [last] := ⟨t :: rest, whole⟩
    have front : line <+: body := by
      refine List.prefix_of_prefix_length_le begins (List.prefix_append body [last]) ?_
      have := congrArg List.length whole
      simp only [List.length_append, List.length_cons, List.length_nil] at this
      omega
    exact opens s (front.subset member)

theorem Grouped.front {front more : List (List Token)} {line rest : List Token} {t : Token}
    (grouped : Grouped (front ++ (line ++ t :: rest) :: more)) : Grouped (front ++ [line]) := by
  induction front with
  | nil => exact .last line grouped.opens
  | cons first front ih =>
    rw [List.cons_append] at grouped ⊢
    cases whole : front ++ (line ++ t :: rest) :: more with
    | nil => simp at whole
    | cons second others =>
      rw [whole] at grouped ih
      cases grouped with
      | cons body t more opens' ends tail => exact .cons body t _ opens' ends (ih tail)

/-! ### One line -/

theorem tidyLine_cases (line : List Token) :
    tidyLine line = line ∨ ∃ before tag after, line = before ++ tag :: after ∧
      (∀ t ∈ before, t.kind = .text) ∧ (∀ t ∈ after, t.kind = .text) ∧
      tidyLine line = [tag.alone before] := by
  unfold tidyLine
  split
  · rename_i tag single
    split
    · right
      obtain ⟨before, after, rfl, texts, isTag, others⟩ := List.filter_eq_cons_iff.1 single
      have textsBefore : ∀ t ∈ before, t.isText = true := by
        intro t member
        simpa using texts t member
      have textsAfter : ∀ t ∈ after, t.isText = true := by
        intro t member
        simpa using List.filter_eq_nil_iff.1 others t member
      have margin : (before ++ tag :: after).takeWhile Token.isText = before := by
        rw [List.takeWhile_append_of_pos textsBefore, List.takeWhile_cons_of_neg, List.append_nil]
        simpa using isTag
      refine ⟨before, tag, after, rfl, ?_, ?_, by rw [margin]⟩
      · intro t member
        exact (Token.isText_iff t).1 (textsBefore t member)
      · intro t member
        exact (Token.isText_iff t).1 (textsAfter t member)
    · exact .inl rfl
  · exact .inl rfl

theorem pragmasIn_texts {texts : List Token} (kinds : ∀ t ∈ texts, t.kind = .text) :
    pragmasIn texts = [] := by
  rw [pragmasIn, List.filterMap_eq_nil_iff]
  intro t member
  rw [Token.switched?, kinds t member]
  rfl

theorem pragmasIn_tidyLine (line : List Token) : pragmasIn (tidyLine line) = pragmasIn line := by
  rcases tidyLine_cases line with kept | ⟨before, tag, after, rfl, texts, texts', removed⟩
  · rw [kept]
  · have whole : before ++ tag :: after = before ++ ([tag] ++ after) := rfl
    rw [removed, whole, pragmasIn_append, pragmasIn_append, pragmasIn_texts texts,
      pragmasIn_texts texts', List.nil_append, List.append_nil]
    rfl

theorem pragmasIn_flatMap_tidyLine (groups : List (List Token)) :
    pragmasIn (groups.flatMap tidyLine) = pragmasIn groups.flatten := by
  induction groups with
  | nil => rfl
  | cons line more ih =>
    rw [List.flatMap_cons, List.flatten_cons, pragmasIn_append, pragmasIn_append, ih,
      pragmasIn_tidyLine]

theorem tidyLine_split {line front back : List Token} {t : Token} (raw : ∀ s ∈ line, s.Raw)
    (same : tidyLine line = front ++ t :: back) :
    ∃ front' t' back', line = front' ++ t' :: back' ∧ t.Like t' ∧
      ((t.standalone = false ∧ front = front' ∧ back = back') ∨
        (t.standalone = true ∧ front = [] ∧ back = [] ∧ (∀ s ∈ front', s.kind = .text) ∧
          ∀ s ∈ back', s.kind = .text)) := by
  rcases tidyLine_cases line with kept | ⟨before, tag, after, whole, texts, texts', removed⟩
  · rw [kept] at same
    refine ⟨front, t, back, same, .refl t, .inl ⟨?_, rfl, rfl⟩⟩
    exact (raw t (by rw [same]; simp)).standalone
  · rw [removed] at same
    cases front with
    | nil =>
      rw [List.nil_append, List.cons.injEq] at same
      obtain ⟨rfl, rfl⟩ := same
      exact ⟨before, tag, after, whole, tag.alone_like before, .inr ⟨rfl, rfl, rfl, texts, texts'⟩⟩
    | cons s front => simp at same

/-! ### From a tag on -/

/-- What tidying makes of the tokens after a tag. -/
def tidyAfter (removed : Bool) (tokens : List Token) : List Token :=
  match lines tokens with
  | [] => []
  | first :: more => (if removed then [] else first) ++ more.flatMap tidyLine

/-- What tidying makes of the tokens between two tags. -/
def tidyBetween (edges : Bool × Bool) (tokens : List Token) : List Token :=
  match lines tokens with
  | [] | [_] => tokens
  | first :: more =>
    (if edges.1 then [] else first) ++ more.dropLast.flatMap tidyLine ++
      (if edges.2 then [] else more.getLastD [])

theorem tidyBetween_of_line {edges : Bool × Bool} {tokens line : List Token}
    (single : lines tokens = [line]) : tidyBetween edges tokens = tokens := by
  rw [tidyBetween, single]

theorem tidyBetween_of_lines {edges : Bool × Bool} {tokens first last : List Token}
    {middle : List (List Token)} (several : lines tokens = first :: (middle ++ [last])) :
    tidyBetween edges tokens = (if edges.1 then [] else first) ++ middle.flatMap tidyLine ++
      (if edges.2 then [] else last) := by
  rw [tidyBetween, several]
  split
  · rename_i none
    cases none
  · rename_i single
    simp at single
  · rename_i several
    rw [List.cons.injEq] at several
    obtain ⟨rfl, rfl⟩ := several
    simp

theorem flatMap_split {α β : Type} {f : α → List β} {items : List α} {before after : List β} {b : β}
    (same : items.flatMap f = before ++ b :: after) :
    ∃ front item back left right, items = front ++ item :: back ∧ f item = left ++ b :: right ∧
      before = front.flatMap f ++ left ∧ after = right ++ back.flatMap f := by
  induction items generalizing before with
  | nil => simp at same
  | cons first items ih =>
    rw [List.flatMap_cons] at same
    rcases List.append_eq_append_iff.1 same with ⟨middle, rfl, later⟩ | ⟨middle, here, back⟩
    · obtain ⟨front, item, back, left, right, rfl, found, rfl, rfl⟩ := ih later
      exact ⟨first :: front, item, back, left, right, rfl, found, by simp, rfl⟩
    · cases middle with
      | nil =>
        rw [List.append_nil] at here
        obtain ⟨front, item, back', left, right, rfl, found, empty, rfl⟩ :=
          ih (show items.flatMap f = [] ++ b :: after by simpa using back.symm)
        obtain ⟨none, rfl⟩ := List.append_eq_nil_iff.1 empty.symm
        refine ⟨first :: front, item, back', [], right, rfl, found, ?_, rfl⟩
        rw [List.flatMap_cons, none, here]
        simp
      | cons m middle =>
        rw [List.cons_append, List.cons.injEq] at back
        obtain ⟨rfl, rfl⟩ := back
        exact ⟨[], first, items, before, middle, rfl, here, by simp, rfl⟩

theorem tidy_split {tokens before after : List Token} {t : Token} (raw : ∀ s ∈ tokens, s.Raw)
    (notText : t.kind ≠ .text) (same : tidy tokens = before ++ t :: after) :
    ∃ before' t' after', tokens = before' ++ t' :: after' ∧ t.Like t' ∧
      pragmasIn before = pragmasIn before' ∧ after = tidyAfter t.standalone after' := by
  obtain ⟨front, line, back, left, right, groups, tidied, rfl, rfl⟩ := flatMap_split same
  have whole : tokens = front.flatten ++ (line ++ back.flatten) := by
    rw [← flatten_lines tokens, groups]
    simp
  have rawLine : ∀ s ∈ line, s.Raw := by
    intro s member
    apply raw
    rw [whole]
    simp [member]
  obtain ⟨left', t', right', rfl, like, kept⟩ := tidyLine_split rawLine tidied
  have opens : t'.endsLine = false := Token.endsLine_of_tag (by rw [← like.kind]; exact notText)
  have grouped : Grouped ((left' ++ t' :: right') :: back) := by
    have all := grouped_lines tokens
    rw [groups] at all
    exact all.tail
  have rest : lines (right' ++ back.flatten) = right' :: back := (grouped.cut opens).lines_flatten
  refine ⟨front.flatten ++ left', t', right' ++ back.flatten, ?_, like, ?_, ?_⟩
  · rw [whole]
    simp
  · rw [pragmasIn_append, pragmasIn_append, pragmasIn_flatMap_tidyLine]
    rcases kept with ⟨-, rfl, -⟩ | ⟨-, rfl, -, texts, -⟩
    · rfl
    · rw [pragmasIn_texts texts]
      rfl
  · rw [tidyAfter, rest]
    rcases kept with ⟨alone, -, rfl⟩ | ⟨alone, -, rfl, -, -⟩
    · simp [alone]
    · simp [alone]

theorem tidyAfter_split {removed : Bool} {tokens inner after : List Token} {t : Token}
    (raw : ∀ s ∈ tokens, s.Raw) (same : tidyAfter removed tokens = inner ++ t :: after) :
    ∃ inner' t' after', tokens = inner' ++ t' :: after' ∧ t.Like t' ∧
      inner = tidyBetween (removed, t.standalone) inner' := by
  have grouped := grouped_lines tokens
  have whole := flatten_lines tokens
  unfold tidyAfter at same
  generalize lines tokens = groups at grouped whole same
  subst whole
  cases groups with
  | nil => simp at same
  | cons first more =>
    dsimp only at same
    have found : (∃ back, removed = false ∧ first = inner ++ t :: back) ∨
        ∃ middle, inner = (if removed then [] else first) ++ middle ∧
          more.flatMap tidyLine = middle ++ t :: after := by
      rcases List.append_eq_append_iff.1 same with ⟨middle, front, back⟩ | ⟨middle, front, back⟩
      · exact .inr ⟨middle, front, back⟩
      · cases middle with
        | nil => exact .inr ⟨[], by simpa using front.symm, by simpa using back.symm⟩
        | cons m middle =>
          rw [List.cons_append, List.cons.injEq] at back
          obtain ⟨rfl, -⟩ := back
          cases removed with
          | true => simp at front
          | false => exact .inl ⟨middle, rfl, front⟩
    rcases found with ⟨back, rfl, rfl⟩ | ⟨middle, rfl, later⟩
    · refine ⟨inner, t, back ++ more.flatten, by simp, .refl t, ?_⟩
      have single : Grouped ([] ++ [inner]) := Grouped.front grouped
      have line := single.lines_flatten
      rw [List.nil_append, List.flatten_singleton] at line
      rw [tidyBetween_of_line line]
    · obtain ⟨front, line, back, left, right, rfl, tidied, rfl, rfl⟩ := flatMap_split later
      have rawLine : ∀ s ∈ line, s.Raw := by
        intro s member
        apply raw
        simp [member]
      obtain ⟨left', t', right', rfl, like, kept⟩ := tidyLine_split rawLine tidied
      have part : Grouped ((first :: front) ++ [left']) := grouped.front
      have several := part.lines_flatten
      refine ⟨first ++ front.flatten ++ left', t', right' ++ back.flatten, by simp, like, ?_⟩
      have there : ((first :: front) ++ [left']).flatten = first ++ front.flatten ++ left' := by simp
      rw [there] at several
      rw [tidyBetween_of_lines several]
      rcases kept with ⟨alone, rfl, -⟩ | ⟨alone, rfl, -, -, -⟩
      · simp [alone]
      · simp [alone]

/-! ### Elsewhere -/

theorem endsLine_shift (offset : Nat) (t : Token) : (t.shift offset).endsLine = t.endsLine := rfl

theorem lines_shift (offset : Nat) (tokens : List Token) :
    lines (tokens.map (Token.shift offset)) =
      (lines tokens).map (List.map (Token.shift offset)) := by
  induction tokens with
  | nil => rfl
  | cons t rest ih =>
    rw [List.map_cons, lines, lines, endsLine_shift, ih]
    split
    · rfl
    · cases lines rest <;> rfl

theorem filter_shift (test : Token → Bool) (offset : Nat) (line : List Token)
    (same : ∀ t : Token, test (t.shift offset) = test t) :
    (line.map (Token.shift offset)).filter test = (line.filter test).map (Token.shift offset) := by
  rw [List.filter_map]
  congr 1
  exact List.filter_congr fun t _ => same t

theorem alone_shift (offset : Nat) (t : Token) (before : List Token) :
    (t.shift offset).alone (before.map (Token.shift offset)) = (t.alone before).shift offset := by
  simp only [Token.alone, Token.shift, List.map_map]
  rfl

theorem tidyLine_shift (offset : Nat) (line : List Token) :
    tidyLine (line.map (Token.shift offset)) = (tidyLine line).map (Token.shift offset) := by
  have tags := filter_shift (!·.isText) offset line fun t => rfl
  have texts := filter_shift Token.isText offset line fun t => rfl
  have margin : (line.map (Token.shift offset)).takeWhile Token.isText =
      (line.takeWhile Token.isText).map (Token.shift offset) := by
    rw [List.takeWhile_map]
    rfl
  have blank : ((line.filter Token.isText).map (Token.shift offset)).all
      (·.content.toList.all isMargin) = (line.filter Token.isText).all
        (·.content.toList.all isMargin) := by
    rw [List.all_map]
    rfl
  unfold tidyLine
  rw [tags, texts, margin, blank]
  cases line.filter (!·.isText) with
  | nil => rfl
  | cons tag others =>
    cases others with
    | nil =>
      have kind : (tag.shift offset).kind = tag.kind := rfl
      simp only [List.map_cons, List.map_nil, kind, alone_shift]
      split <;> rfl
    | cons second others => rfl

theorem flatMap_tidyLine_shift (offset : Nat) (groups : List (List Token)) :
    (groups.map (List.map (Token.shift offset))).flatMap tidyLine =
      (groups.flatMap tidyLine).map (Token.shift offset) := by
  rw [List.flatMap_map, List.map_flatMap]
  congr 1
  funext line
  exact tidyLine_shift offset line

theorem tidy_shift (offset : Nat) (tokens : List Token) :
    tidy (tokens.map (Token.shift offset)) = (tidy tokens).map (Token.shift offset) := by
  rw [tidy, lines_shift, flatMap_tidyLine_shift]
  rfl

theorem tidyBetween_shift (offset : Nat) (edges : Bool × Bool) (tokens : List Token) :
    tidyBetween edges (tokens.map (Token.shift offset)) =
      (tidyBetween edges tokens).map (Token.shift offset) := by
  unfold tidyBetween
  rw [lines_shift]
  cases lines tokens with
  | nil => rfl
  | cons first more =>
    cases more with
    | nil => rfl
    | cons second more =>
      have last : ((second :: more).map (List.map (Token.shift offset))).getLastD [] =
          ((second :: more).getLastD []).map (Token.shift offset) :=
        @List.getLastD_map _ _ (List.map (Token.shift offset)) (second :: more) []
      have middle : ((second :: more).map (List.map (Token.shift offset))).dropLast =
          ((second :: more).dropLast).map (List.map (Token.shift offset)) :=
        List.map_dropLast.symm
      rw [List.map_cons] at last middle
      simp only [List.map_cons, last, middle, flatMap_tidyLine_shift, List.map_append]
      cases edges.1 <;> cases edges.2 <;> rfl

/-! ### Nothing new -/

/-- Some of the tokens in their order, each perhaps settled by tidying. -/
inductive Thinned : List Token → List Token → Prop
  | nil : Thinned [] []
  | drop (u : Token) (tidied tokens : List Token) (rest : Thinned tidied tokens) :
      Thinned tidied (u :: tokens)
  | keep (t u : Token) (tidied tokens : List Token) (like : t.Like u)
      (rest : Thinned tidied tokens) : Thinned (t :: tidied) (u :: tokens)

namespace Thinned

theorem refl (tokens : List Token) : Thinned tokens tokens := by
  induction tokens with
  | nil => exact .nil
  | cons t rest ih => exact .keep t t rest rest (.refl t) ih

theorem none (tokens : List Token) : Thinned [] tokens := by
  induction tokens with
  | nil => exact .nil
  | cons t rest ih => exact .drop t [] rest ih

theorem append {first first' second second' : List Token} (front : Thinned first first')
    (back : Thinned second second') : Thinned (first ++ second) (first' ++ second') := by
  induction front with
  | nil => exact back
  | drop u tidied tokens rest ih => exact .drop u _ _ ih
  | keep t u tidied tokens like rest ih => exact .keep t u _ _ like ih

variable {tidied tokens : List Token}

theorem mem (thinned : Thinned tidied tokens) {t : Token} (member : t ∈ tidied) :
    ∃ u ∈ tokens, t.Like u := by
  induction thinned with
  | nil => cases member
  | drop u tidied tokens rest ih =>
    obtain ⟨v, later, like⟩ := ih member
    exact ⟨v, by simp [later], like⟩
  | keep s u tidied tokens like rest ih =>
    rcases List.mem_cons.1 member with rfl | later
    · exact ⟨u, by simp, like⟩
    · obtain ⟨v, there, like'⟩ := ih later
      exact ⟨v, by simp [there], like'⟩

theorem ordered (thinned : Thinned tidied tokens)
    (order : tokens.Pairwise fun s t => s.span.stop ≤ t.span.start) :
    tidied.Pairwise fun s t => s.span.stop ≤ t.span.start := by
  induction thinned with
  | nil => exact .nil
  | drop u tidied tokens rest ih => exact ih (List.pairwise_cons.1 order).2
  | keep t u tidied tokens like rest ih =>
    obtain ⟨first, others⟩ := List.pairwise_cons.1 order
    refine .cons ?_ (ih others)
    intro s member
    obtain ⟨v, there, like'⟩ := rest.mem member
    rw [like.span, like'.span]
    exact first v there

end Thinned

theorem thinned_tidyLine (line : List Token) : Thinned (tidyLine line) line := by
  rcases tidyLine_cases line with kept | ⟨before, tag, after, rfl, -, -, removed⟩
  · rw [kept]
    exact .refl line
  · rw [removed]
    have back : Thinned ([tag.alone before] ++ []) ([tag] ++ after) :=
      .append (.keep _ _ _ _ (tag.alone_like before) .nil) (.none after)
    exact .append (.none before) back

theorem thinned_flatMap_tidyLine (groups : List (List Token)) :
    Thinned (groups.flatMap tidyLine) groups.flatten := by
  induction groups with
  | nil => exact .nil
  | cons line more ih => exact .append (thinned_tidyLine line) ih

theorem thinned_tidy (tokens : List Token) : Thinned (tidy tokens) tokens := by
  have thinned := thinned_flatMap_tidyLine (lines tokens)
  rwa [flatten_lines] at thinned

theorem thinned_tidyBetween (edges : Bool × Bool) (tokens : List Token) :
    Thinned (tidyBetween edges tokens) tokens := by
  have edge (removed : Bool) (line : List Token) : Thinned (if removed then [] else line) line := by
    cases removed with
    | true => exact .none line
    | false => exact .refl line
  have whole := flatten_lines tokens
  cases groups : lines tokens with
  | nil =>
    rw [tidyBetween, groups]
    exact .refl tokens
  | cons first more =>
    rcases List.eq_nil_or_concat more with rfl | ⟨middle, last, rfl⟩
    · rw [tidyBetween_of_line groups]
      exact .refl tokens
    · rw [List.concat_eq_append] at groups
      rw [tidyBetween_of_lines groups]
      rw [groups] at whole
      have split : tokens = first ++ middle.flatten ++ last := by
        rw [← whole]
        simp
      rw [split]
      exact .append (.append (edge edges.1 first) (thinned_flatMap_tidyLine middle))
        (edge edges.2 last)

end Mustache.Markup
