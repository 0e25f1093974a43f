import Mustache.Text.Cut

/-! A search reads no further than the end of what it finds, and there is no occurrence before the
first one. A text splits at its first separator in one way. -/
namespace Mustache.Text

theorem dropPrefix?_eq_none_iff (pattern text : List Char) :
    dropPrefix? pattern text = none ↔ ¬ pattern <+: text := by
  constructor
  · rintro missed ⟨after, rfl⟩
    rw [dropPrefix?_append] at missed
    cases missed
  · intro missed
    cases found : dropPrefix? pattern text with
    | none => rfl
    | some after => exact absurd ⟨after, (eq_append_of_dropPrefix? found).symm⟩ missed

theorem cut?_append_of_cut? {pattern text before after : List Char}
    (found : cut? pattern text = some (before, after)) (rest : List Char) :
    cut? pattern (before ++ pattern ++ rest) = some (before, rest) := by
  induction text generalizing before with
  | nil =>
    have whole := eq_append_of_cut? found
    simp only [List.nil_eq, List.append_eq_nil_iff] at whole
    obtain ⟨⟨rfl, rfl⟩, rfl⟩ := whole
    cases rest with
    | nil => rfl
    | cons c rest => rfl
  | cons c text ih =>
    simp only [cut?] at found
    split at found
    · simp only [Option.some.injEq, Prod.mk.injEq] at found
      obtain ⟨rfl, rfl⟩ := found
      cases whole : pattern ++ rest with
      | nil =>
        simp only [List.append_eq_nil_iff] at whole
        obtain ⟨rfl, rfl⟩ := whole
        rfl
      | cons d text' =>
        rw [List.nil_append, whole, cut?, ← whole, dropPrefix?_append]
    · rename_i missed
      obtain ⟨⟨b, a⟩, deeper, heads⟩ := Option.map_eq_some_iff.1 found
      simp only [Prod.mk.injEq] at heads
      obtain ⟨rfl, rfl⟩ := heads
      have still : dropPrefix? pattern (c :: (b ++ pattern ++ rest)) = none := by
        rw [dropPrefix?_eq_none_iff] at missed ⊢
        intro prefixed
        apply missed
        have whole := eq_append_of_cut? deeper
        have within : pattern <+: c :: (b ++ pattern) :=
          List.prefix_of_prefix_length_le prefixed ⟨rest, by simp⟩ (by simp; omega)
        exact within.trans ⟨a, by simp [whole]⟩
      rw [List.cons_append, List.cons_append, cut?, still]
      simp only [ih deeper, Option.map_some]

theorem cut?_before {pattern text before after : List Char} (nonempty : pattern ≠ [])
    (found : cut? pattern text = some (before, after)) : cut? pattern before = none := by
  cases earlier : cut? pattern before with
  | none => rfl
  | some parts =>
    obtain ⟨b, a⟩ := parts
    exfalso
    have split := eq_append_of_cut? earlier
    have again := cut?_append_of_cut? earlier (a ++ pattern ++ after)
    have whole := eq_append_of_cut? found
    have same : b ++ pattern ++ (a ++ pattern ++ after) = text := by
      rw [whole, split]
      simp
    rw [same, found, Option.some.injEq, Prod.mk.injEq] at again
    rw [again.1] at split
    have := congrArg List.length split
    have := List.length_pos_iff.2 nonempty
    simp only [List.length_append] at *
    omega

/-- A pattern that does not have the last character of a text is not found across the end of it. -/
theorem cut?_append_of_missed {pattern text : List Char} (missed : cut? pattern text = none)
    (apart : ∀ c ∈ text.getLast?, c ∉ pattern) (more : List Char) :
    cut? pattern (text ++ more) = (cut? pattern more).map fun (before, after) => (text ++ before, after) := by
  induction text with
  | nil => simp
  | cons c text ih =>
    rw [cut?] at missed
    split at missed
    · cases missed
    · rename_i here
      have later : cut? pattern text = none := by simpa using missed
      have still : dropPrefix? pattern (c :: (text ++ more)) = none := by
        rw [dropPrefix?_eq_none_iff] at here ⊢
        rintro ⟨after, whole⟩
        have split : pattern ++ after = (c :: text) ++ more := whole
        rcases List.append_eq_append_iff.1 split with ⟨middle, front, -⟩ | ⟨middle, rfl, -⟩
        · exact here ⟨middle, front.symm⟩
        · obtain ⟨last, found⟩ : ∃ last, (c :: text).getLast? = some last := ⟨_, List.getLast?_cons⟩
          exact apart last found (List.mem_append_left _ (List.mem_of_getLast? found))
      have apart' : ∀ c ∈ text.getLast?, c ∉ pattern := by
        intro last found
        apply apart
        cases text with
        | nil => cases found
        | cons d text => exact found
      rw [List.cons_append, cut?, still]
      simp only [ih later apart', Option.map_map]
      rfl

theorem cut?_eq_none_iff {pattern text : List Char} :
    cut? pattern text = none ↔ ¬ pattern <:+: text := by
  induction text with
  | nil =>
    rw [cut?, List.infix_nil]
    cases pattern <;> simp
  | cons c rest ih =>
    rw [List.infix_cons_iff, cut?]
    cases found : dropPrefix? pattern (c :: rest) with
    | none =>
      have missed := (dropPrefix?_eq_none_iff _ _).1 found
      simp only [Option.map_eq_none_iff, ih, not_or, missed, not_false_eq_true, true_and]
    | some after =>
      have there : pattern <+: c :: rest := ⟨after, (eq_append_of_dropPrefix? found).symm⟩
      simp [there]

/-- The first occurrence of a pattern in a text, with the text before it and the text after it. -/
structure First (pattern text before after : List Char) : Prop where
  whole : text = before ++ pattern ++ after
  least : ∀ before' after', text = before' ++ pattern ++ after' → before.length ≤ before'.length

theorem First.of_cut? {pattern text before after : List Char}
    (found : cut? pattern text = some (before, after)) : First pattern text before after where
  whole := eq_append_of_cut? found
  least := by
    intro before' after' same
    induction text generalizing before before' with
    | nil =>
      have whole := eq_append_of_cut? found
      simp only [List.nil_eq, List.append_eq_nil_iff] at whole
      simp [whole.1.1]
    | cons c rest ih =>
      rw [cut?] at found
      split at found
      · cases found
        exact Nat.zero_le _
      · rename_i missed
        obtain ⟨⟨b, a⟩, deeper, heads⟩ := Option.map_eq_some_iff.1 found
        cases heads
        cases before' with
        | nil => exact absurd ⟨after', by simp [same]⟩ ((dropPrefix?_eq_none_iff _ _).1 missed)
        | cons d before' =>
          have tails : rest = before' ++ pattern ++ after' := by simpa using congrArg List.tail same
          have := ih deeper before' tails
          simpa using this

/-- A text without the first character of a pattern does not reach into an occurrence of it. -/
theorem First.of_not_mem {c : Char} {pattern before : List Char} (absent : c ∉ before) (after : List Char) :
    First (c :: pattern) (before ++ c :: pattern ++ after) before after where
  whole := rfl
  least := by
    intro before' after' same
    rw [List.append_assoc, List.append_assoc] at same
    rcases List.append_eq_append_iff.1 same with ⟨middle, front, -⟩ | ⟨middle, front, back⟩
    · rw [front, List.length_append]
      exact Nat.le_add_right _ _
    · cases middle with
      | nil =>
        exact Nat.le_of_eq (congrArg List.length (front.trans (List.append_nil _)))
      | cons d middle =>
        obtain ⟨rfl, -⟩ := List.cons.inj back
        exact absurd (front ▸ List.mem_append_right before' List.mem_cons_self) absent

/-- A cut is made at the first occurrence, and wherever there is one. -/
theorem cut?_eq_some_iff {pattern text before after : List Char} :
    cut? pattern text = some (before, after) ↔ First pattern text before after := by
  refine ⟨.of_cut?, fun first => ?_⟩
  cases found : cut? pattern text with
  | none =>
    refine absurd ?_ (cut?_eq_none_iff.1 found)
    exact ⟨before, after, first.whole.symm⟩
  | some parts =>
    obtain ⟨b, a⟩ := parts
    have other := First.of_cut? found
    have size := Nat.le_antisymm (other.least _ _ first.whole) (first.least _ _ other.whole)
    have same : b ++ (pattern ++ a) = before ++ (pattern ++ after) := by
      rw [← List.append_assoc, ← other.whole, first.whole, List.append_assoc]
    obtain ⟨front, back⟩ := List.append_inj same size
    rw [front, List.append_cancel_left back]

theorem First.eq_of_cut? {pattern text before after before' after' : List Char}
    (first : First pattern text before after) (found : cut? pattern text = some (before', after')) :
    before = before' ∧ after = after' := by
  rw [cut?_eq_some_iff.2 first] at found
  cases found
  exact ⟨rfl, rfl⟩

/-- Where a separator occurs first, a text splits in one way only. -/
theorem split_at_first {α : Type} {separator : α} {a b c d : List α} (first : separator ∉ a)
    (first' : separator ∉ c) (same : a ++ separator :: b = c ++ separator :: d) : a = c ∧ b = d := by
  rcases List.append_eq_append_iff.1 same with ⟨middle, front, back⟩ | ⟨middle, front, back⟩
  · cases middle with
    | nil => exact ⟨by simpa using front.symm, by simpa using back⟩
    | cons m middle =>
      rw [List.cons_append, List.cons.injEq] at back
      exact absurd (by simp [front, back.1]) first'
  · cases middle with
    | nil => exact ⟨by simpa using front, by simpa using back.symm⟩
    | cons m middle =>
      rw [List.cons_append, List.cons.injEq] at back
      exact absurd (by simp [front, back.1]) first

end Mustache.Text
