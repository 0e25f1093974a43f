import Mustache.Span

/-! Spans that start and end between characters, and the part of a text that each covers. -/
namespace Mustache

namespace Text

theorem byteSize_reverse (text : List Char) : byteSize text.reverse = byteSize text := by
  induction text with
  | nil => rfl
  | cons c rest ih =>
    rw [List.reverse_cons, byteSize_append, ih, byteSize_cons, byteSize_cons, byteSize_nil]
    omega

theorem append_eq_append_of_byteSize_le {a b c d : List Char} (same : a ++ b = c ++ d)
    (shorter : byteSize a ≤ byteSize c) : ∃ middle, c = a ++ middle ∧ b = middle ++ d := by
  rcases List.append_eq_append_iff.1 same with ⟨middle, front, back⟩ | ⟨middle, front, back⟩
  · exact ⟨middle, front, back⟩
  · have empty : middle = [] := by
      rw [← byteSize_eq_zero]
      have := congrArg byteSize front
      rw [byteSize_append] at this
      omega
    subst empty
    exact ⟨[], by simpa using front.symm, by simpa using back.symm⟩

theorem eq_of_append_eq_of_byteSize_eq {a b c d : List Char} (same : a ++ b = c ++ d)
    (size : byteSize a = byteSize c) : a = c ∧ b = d := by
  obtain ⟨middle, front, back⟩ := append_eq_append_of_byteSize_le same (Nat.le_of_eq size)
  have empty : middle = [] := by
    rw [← byteSize_eq_zero]
    have := congrArg byteSize front
    rw [byteSize_append] at this
    omega
  subst empty
  exact ⟨by simpa using front.symm, by simpa using back⟩

end Text

namespace Span

def shift (offset : Nat) (span : Span) : Span := ⟨span.start + offset, span.stop + offset⟩

@[simp] theorem shift_start (offset : Nat) (span : Span) :
    (span.shift offset).start = span.start + offset := rfl

@[simp] theorem shift_stop (offset : Nat) (span : Span) :
    (span.shift offset).stop = span.stop + offset := rfl

/-- The span covers a part of the text, and both its ends lie between characters. -/
def Covers (span : Span) (text part : List Char) : Prop :=
  ∃ before after, text = before ++ part ++ after ∧ span.start = Text.byteSize before ∧
    span.stop = Text.byteSize before + Text.byteSize part

variable {span : Span} {text part : List Char}

theorem Covers.stop_eq (covers : span.Covers text part) :
    span.stop = span.start + Text.byteSize part := by
  obtain ⟨before, after, -, start, stop⟩ := covers
  rw [start, stop]

theorem Covers.slice {source : String} (covers : span.Covers source.toList part) :
    span.slice source = .ofList part := by
  obtain ⟨before, after, whole, start, stop⟩ := covers
  rw [Span.slice, whole, start, stop, List.append_assoc, Text.dropBytes_append,
    Nat.add_sub_cancel_left, Text.takeBytes_append]

theorem Covers.within (covers : span.Covers text part) (before after : List Char) :
    (span.shift (Text.byteSize before)).Covers (before ++ text ++ after) part := by
  obtain ⟨b, a, rfl, start, stop⟩ := covers
  refine ⟨before ++ b, a ++ after, by simp, ?_, ?_⟩
  · rw [shift_start, start, Text.byteSize_append]
    omega
  · rw [shift_stop, stop, Text.byteSize_append]
    omega

/-- A part of a text that stands further on. -/
theorem Covers.slice_shift {source : String} {front back : List Char} (covers : span.Covers text part)
    (whole : source.toList = front ++ text ++ back) :
    (span.shift (Text.byteSize front)).slice source = span.slice (.ofList text) := by
  have moved := covers.within front back
  rw [← whole] at moved
  have alone : span.Covers (String.ofList text).toList part := by rwa [String.toList_ofList]
  rw [alone.slice, moved.slice]

theorem Covers.between {later : Span} {laterPart : List Char} (covers : span.Covers text part)
    (laterCovers : later.Covers text laterPart) (order : span.stop ≤ later.start) :
    ∃ gap, Covers ⟨span.stop, later.start⟩ text gap := by
  obtain ⟨b₁, a₁, whole, start₁, stop₁⟩ := covers
  obtain ⟨b₂, a₂, whole₂, start₂, stop₂⟩ := laterCovers
  have same : (b₁ ++ part) ++ a₁ = b₂ ++ (laterPart ++ a₂) := by
    rw [← whole, whole₂, List.append_assoc]
  obtain ⟨gap, front, back⟩ := Text.append_eq_append_of_byteSize_le same (by
    rw [Text.byteSize_append]
    omega)
  refine ⟨gap, b₁ ++ part, laterPart ++ a₂, ?_, ?_, ?_⟩
  · rw [whole, back, List.append_assoc, List.append_assoc, List.append_assoc]
  · rw [Text.byteSize_append]
    exact stop₁
  · rw [start₂, front, Text.byteSize_append]

theorem Covers.part_eq {part' : List Char} (covers : span.Covers text part)
    (covers' : span.Covers text part') : part = part' := by
  obtain ⟨b, a, whole, start, stop⟩ := covers
  obtain ⟨b', a', whole', start', stop'⟩ := covers'
  have same : b ++ (part ++ a) = b' ++ (part' ++ a') := by
    rw [← List.append_assoc, ← whole, whole', List.append_assoc]
  have back := (Text.eq_of_append_eq_of_byteSize_eq same (by omega)).2
  exact (Text.eq_of_append_eq_of_byteSize_eq back (by omega)).1

end Span
end Mustache
