import Mustache.Proofs.Markup.Grammar
import Mustache.Proofs.Program.Identity

/-! The part of the source that each token covers. A text has a line feed at its end at most, and a
tag starts and ends with characters of its delimiters, which are no blanks. -/
namespace Mustache

/-! ### Lines of a text -/

namespace Text

/-- The characters after the last line feed. -/
def lastLine (text : List Char) : List Char := (text.reverse.takeWhile (· != '\n')).reverse

/-- The characters before the first line feed. -/
def firstLine (text : List Char) : List Char := text.takeWhile (· != '\n')

/-- The first line with the line feed that ends it. -/
def firstLineEnded (text : List Char) : List Char := text.take ((firstLine text).length + 1)

theorem newline_not_mem_lastLine (text : List Char) : '\n' ∉ lastLine text := by
  unfold lastLine
  rw [List.mem_reverse]
  intro member
  have other := List.all_eq_true.1 (List.all_takeWhile (p := (· != '\n'))) _ member
  exact absurd other (by decide)

theorem lastLine_append {b : List Char} (unbroken : '\n' ∉ b) (a : List Char) :
    lastLine (a ++ b) = lastLine a ++ b := by
  unfold lastLine
  rw [List.reverse_append, List.takeWhile_append_of_pos, List.reverse_append, List.reverse_reverse]
  intro c member
  simp only [bne_iff_ne]
  rintro rfl
  exact unbroken (List.mem_reverse.1 member)

theorem lastLine_of_unbroken {text : List Char} (unbroken : '\n' ∉ text) : lastLine text = text := by
  simpa [lastLine] using lastLine_append unbroken []

theorem lastLine_ended (a b : List Char) : lastLine (a ++ ['\n'] ++ b) = lastLine b := by
  unfold lastLine
  rw [List.reverse_append, List.reverse_append, List.reverse_singleton]
  generalize b.reverse = back
  induction back with
  | nil => rfl
  | cons c back ih =>
    rw [List.cons_append, List.takeWhile_cons, List.takeWhile_cons]
    split
    · rw [List.reverse_cons, List.reverse_cons, ih]
    · rfl

theorem firstLine_append {a : List Char} (unbroken : '\n' ∉ a) (b : List Char) :
    firstLine (a ++ b) = a ++ firstLine b := by
  unfold firstLine
  rw [List.takeWhile_append_of_pos]
  intro c member
  simp only [bne_iff_ne]
  rintro rfl
  exact unbroken member

theorem firstLine_ended {a : List Char} (unbroken : '\n' ∉ a) (b : List Char) :
    firstLine (a ++ '\n' :: b) = a := by
  rw [firstLine_append unbroken]
  simp [firstLine]

theorem firstLineEnded_append {a : List Char} (unbroken : '\n' ∉ a) (b : List Char) :
    firstLineEnded (a ++ b) = a ++ firstLineEnded b := by
  unfold firstLineEnded
  rw [firstLine_append unbroken, List.length_append, Nat.add_assoc, List.take_append,
    List.take_of_length_le (by omega), Nat.add_sub_cancel_left]

theorem firstLineEnded_ended {a : List Char} (unbroken : '\n' ∉ a) (b : List Char) :
    firstLineEnded (a ++ '\n' :: b) = a ++ ['\n'] := by
  rw [firstLineEnded_append unbroken]
  simp [firstLineEnded, firstLine]

end Text

/-- Whether a byte is one of the span. -/
def Span.Holds (span : Span) (i : Nat) : Prop := span.start ≤ i ∧ i < span.stop

namespace Markup

/-- Only blanks that a line may have. -/
def OnlyBlanks (text : List Char) : Prop := ∀ c ∈ text, c = ' ' ∨ c = '\t' ∨ c = '\r'

instance (text : List Char) : Decidable (OnlyBlanks text) :=
  List.decidableBAll (fun c => c = ' ' ∨ c = '\t' ∨ c = '\r') text

theorem onlyBlanks_append {a b : List Char} : OnlyBlanks (a ++ b) ↔ OnlyBlanks a ∧ OnlyBlanks b := by
  simp only [OnlyBlanks, List.mem_append, or_imp, forall_and]

theorem isMargin_iff {c : Char} : isMargin c = true ↔ c = ' ' ∨ c = '\t' ∨ c = '\r' ∨ c = '\n' := by
  simp [isMargin, or_assoc]

theorem all_isMargin_iff {text : List Char} (unbroken : '\n' ∉ text) :
    text.all isMargin = true ↔ OnlyBlanks text := by
  rw [List.all_eq_true]
  constructor
  · intro margin c member
    rcases isMargin_iff.1 (margin c member) with space | tab | ret | rfl
    · exact .inl space
    · exact .inr (.inl tab)
    · exact .inr (.inr ret)
    · exact absurd member unbroken
  · intro blank c member
    rw [isMargin_iff]
    rcases blank c member with space | tab | ret
    · exact .inl space
    · exact .inr (.inl tab)
    · exact .inr (.inr (.inl ret))

/-! ### What tokens cover -/

/-- The part of the source that the token covers. -/
def Token.part (source : List Char) (t : Token) : List Char :=
  Text.takeBytes (t.span.stop - t.span.start) (Text.dropBytes t.span.start source)

theorem Token.part_of_covers {t : Token} {source part : List Char}
    (covers : t.span.Covers source part) : t.part source = part := by
  obtain ⟨before, after, whole, start, stop⟩ := covers
  rw [Token.part, whole, start, stop, List.append_assoc, Text.dropBytes_append,
    Nat.add_sub_cancel_left, Text.takeBytes_append]

/-- How a token covers its part: a text has a line feed at its end at most, and a tag has no blanks
at its ends. -/
inductive Token.Shows (t : Token) (part : List Char) : Prop
  | text (kind : t.kind = .text) (content : t.content.toList = part) (nonempty : part ≠ [])
      (line : '\n' ∉ part.dropLast)
  | tag (kind : t.kind ≠ .text) (first : ∃ c rest, part = c :: rest ∧ isMargin c = false)
      (last : ∃ front c, part = front ++ [c] ∧ isMargin c = false)

theorem Token.Shows.nonempty {t : Token} {part : List Char} (shows : t.Shows part) : part ≠ [] := by
  cases shows with
  | text kind content nonempty line => exact nonempty
  | tag kind first last =>
    obtain ⟨c, rest, rfl, -⟩ := first
    exact List.cons_ne_nil c rest

theorem isMargin_of_delimiter {text : List Char} (valid : isDelimiter text = true) {c : Char}
    (member : c ∈ text) : isMargin c = false := by
  rw [← Bool.not_eq_true, isMargin_iff]
  have notBlank := Delimiters.isBlank_of_mem valid member
  rintro (rfl | rfl | rfl | rfl) <;> exact absurd notBlank (by decide)

theorem exists_last_of_closing (d : Delimiters) (front : List Char) :
    ∃ body c, front ++ d.closing = body ++ [c] ∧ isMargin c = false := by
  rcases List.eq_nil_or_concat d.closing with empty | ⟨body, c, ends⟩
  · exact absurd empty d.closing_ne_nil
  · refine ⟨front ++ body, c, by simp [ends], isMargin_of_delimiter d.closing_valid ?_⟩
    simp [ends]

theorem TagForm.last {ends : List Char → Prop} {mode later : Mode}
    {text content read rest : List Char} {kind : Kind}
    (form : TagForm ends mode text kind content read rest later) :
    ∃ front c, read = front ++ [c] ∧ isMargin c = false := by
  cases form with
  | change text body _ changed closes words =>
    have := exists_last_of_closing mode.delims ('=' :: (body ++ ['=']))
    simpa using this
  | triple text body _ standard closes named =>
    exact ⟨'\x7b' :: (body ++ mode.delims.closing), '\x7d', rfl, by decide⟩
  | braced text body _ custom closes ending named =>
    exact exists_last_of_closing mode.delims ('\x7b' :: body)
  | sigil c _ text body _ sign closes named => exact exists_last_of_closing mode.delims (c :: body)
  | plain _ body _ unsigned closes named => exact exists_last_of_closing mode.delims body

theorem Template.shows {ends : List Char → Prop} {mode : Mode} {start : Nat} {source : List Char}
    {tokens : List Token} (template : Template ends mode start source tokens) {t : Token}
    (member : t ∈ tokens) :
    ∃ (span : Span) (part : List Char), t.span = span.shift start ∧ span.Covers source part ∧
      t.Shows part := by
  by_cases isText : t.kind = .text
  · obtain ⟨nonempty, line, span, place, covers⟩ := template.line member isText
    exact ⟨span, _, place, covers, .text isText rfl nonempty line⟩
  induction template with
  | text mode start run untagged => exact absurd (textTokens_text member).1 isText
  | tag mode later start source run text content read rest kind tokens opens form more ih =>
    have whole : source = run ++ (mode.delims.opening ++ read) ++ rest := by
      rw [opens.whole, form.whole]
      simp
    rcases List.mem_append.1 member with here | after
    · exact absurd (textTokens_text here).1 isText
    rcases List.mem_cons.1 after with rfl | after
    · refine ⟨⟨Text.byteSize run, Text.byteSize run + Text.byteSize (mode.delims.opening ++ read)⟩,
        mode.delims.opening ++ read, ?_, ⟨run, rest, whole, rfl, rfl⟩, .tag isText ?_ ?_⟩
      · simp only [Span.shift, Span.mk.injEq]
        omega
      · cases opening : mode.delims.opening with
        | nil => exact absurd opening mode.delims.opening_ne_nil
        | cons c others =>
          refine ⟨c, others ++ read, rfl, isMargin_of_delimiter mode.delims.opening_valid ?_⟩
          simp [opening]
      · obtain ⟨front, c, rfl, notBlank⟩ := form.last
        exact ⟨mode.delims.opening ++ front, c, by simp, notBlank⟩
    · obtain ⟨span, part, place, covers, shows⟩ := ih after
      refine ⟨span.shift (Text.byteSize (run ++ (mode.delims.opening ++ read))), part, ?_, ?_, shows⟩
      · rw [place]
        simp only [Span.shift, Span.mk.injEq, Text.byteSize_append]
        omega
      · have within := covers.within (run ++ (mode.delims.opening ++ read)) []
        rwa [List.append_nil, ← whole] at within

/-- Tokens tile a source, each with a part of it that it shows. -/
structure Laid (source : List Char) (tokens : List Token) : Prop where
  tiled : Tiled 0 source tokens
  shows : ∀ t ∈ tokens, t.Shows (t.part source)

theorem Scanned.laid {mode : Mode} {source : List Char} {tokens : List Token}
    (scanned : Scanned mode 0 source tokens) : Laid source tokens where
  tiled := scanned.tiled
  shows := by
    intro t member
    obtain ⟨span, part, place, covers, shows⟩ := scanned.template.shows member
    have same : t.span = span := by
      rw [place, Span.shift]
      rfl
    rw [← same] at covers
    rwa [Token.part_of_covers covers]

/-! ### Where tokens are -/

namespace Tiled

variable {start : Nat} {text : List Char}

theorem split {first second : List Token} (tiled : Tiled start text (first ++ second)) :
    ∃ a b, text = a ++ b ∧ Tiled start a first ∧ Tiled (start + Text.byteSize a) b second := by
  induction first generalizing start text with
  | nil => exact ⟨[], text, rfl, .nil start, tiled⟩
  | cons t first ih =>
    cases tiled with
    | cons _ part rest _ _ nonempty span tail =>
      obtain ⟨a, b, rfl, here, there⟩ := ih tail
      refine ⟨part ++ a, b, by simp, .cons start part a t first nonempty span here, ?_⟩
      rwa [Text.byteSize_append, ← Nat.add_assoc]

theorem parts {tokens : List Token} (tiled : Tiled start text tokens) {front back : List Char}
    (place : start = Text.byteSize front) :
    tokens.flatMap (Token.part (front ++ text ++ back)) = text := by
  induction tiled generalizing front with
  | nil => rfl
  | cons start part rest t tokens nonempty span tail ih =>
    have here : t.part (front ++ (part ++ rest) ++ back) = part := by
      apply Token.part_of_covers
      refine ⟨front, rest ++ back, by simp, ?_, ?_⟩
      · rw [span, place]
      · rw [span, place]
    have later := @ih (front ++ part) (by rw [place, Text.byteSize_append])
    rw [List.flatMap_cons, here]
    rw [List.append_assoc front part rest] at later
    rw [later]

/-- The bytes that some token covers are those of the text. -/
theorem exists_mem_iff {tokens : List Token} (tiled : Tiled start text tokens) (i : Nat) :
    (∃ t ∈ tokens, t.span.Holds i) ↔ (Span.mk start (start + Text.byteSize text)).Holds i := by
  unfold Span.Holds
  induction tiled with
  | nil =>
    simp only [List.not_mem_nil, false_and, exists_false, Text.byteSize_nil, false_iff]
    omega
  | cons start part rest t tokens nonempty span tail ih =>
    simp only [List.mem_cons, exists_eq_or_imp, ih, span, Text.byteSize_append]
    omega

end Tiled

namespace Laid

variable {source : List Char} {tokens : List Token}

theorem around (laid : Laid source tokens) {before after : List Token} {t : Token}
    (whole : tokens = before ++ t :: after) :
    t.span = ⟨Text.byteSize (before.flatMap (Token.part source)),
        Text.byteSize ((before ++ [t]).flatMap (Token.part source))⟩ ∧
      Text.takeBytes t.span.start source = before.flatMap (Token.part source) ∧
      Text.dropBytes t.span.stop source = after.flatMap (Token.part source) := by
  have tiled := laid.tiled
  rw [whole] at tiled
  obtain ⟨a, rest, rfl, first, second⟩ := tiled.split
  cases second with
  | cons _ part b _ _ nonempty span tail =>
    have front : before.flatMap (Token.part (a ++ (part ++ b))) = a := by
      have := @Tiled.parts 0 a before first [] (part ++ b) rfl
      simpa using this
    have here : t.part (a ++ (part ++ b)) = part := by
      apply Token.part_of_covers
      refine ⟨a, b, by simp, ?_, ?_⟩
      · rw [span, Nat.zero_add]
      · rw [span, Nat.zero_add]
    have back : after.flatMap (Token.part (a ++ (part ++ b))) = b := by
      have := @Tiled.parts _ b after tail (a ++ part) [] (by simp)
      simpa using this
    rw [List.flatMap_append, List.flatMap_singleton, front, here, back, span, Text.byteSize_append,
      Nat.zero_add]
    refine ⟨rfl, ?_, ?_⟩
    · rw [Text.takeBytes_append]
    · rw [← Text.byteSize_append, ← List.append_assoc, Text.dropBytes_append]

/-- Which bytes some of the tokens cover that stand together. -/
theorem holds_iff (laid : Laid source tokens) {before among after : List Token}
    (whole : tokens = before ++ (among ++ after)) (i : Nat) :
    (∃ t ∈ among, t.span.Holds i) ↔
      (Span.mk (Text.byteSize (before.flatMap (Token.part source)))
        (Text.byteSize ((before ++ among).flatMap (Token.part source)))).Holds i := by
  have tiled := laid.tiled
  rw [whole] at tiled
  obtain ⟨a, rest, rfl, first, second⟩ := tiled.split
  obtain ⟨part, b, rfl, middle, -⟩ := second.split
  have front : before.flatMap (Token.part (a ++ (part ++ b))) = a := by
    have := @Tiled.parts 0 a before first [] (part ++ b) rfl
    simpa using this
  have here : among.flatMap (Token.part (a ++ (part ++ b))) = part := by
    have := @Tiled.parts _ part among middle a b (Nat.zero_add _)
    simpa using this
  rw [Nat.zero_add] at middle
  rw [List.flatMap_append, front, here, Text.byteSize_append]
  exact middle.exists_mem_iff i

end Laid

/-! ### Tokens that lie apart -/

section
variable {i : Nat}

theorem eq_of_holds {tokens : List Token} (order : tokens.Pairwise fun s t => s.span.stop ≤ t.span.start)
    {s t : Token} (here : s ∈ tokens) (there : t ∈ tokens) (holds : s.span.Holds i)
    (holds' : t.span.Holds i) : s = t := by
  unfold Span.Holds at holds holds'
  induction order with
  | nil => cases here
  | cons first later ih =>
    rcases List.mem_cons.1 here with rfl | after <;> rcases List.mem_cons.1 there with rfl | after'
    · rfl
    · have := first t after'
      omega
    · have := first s after
      omega
    · exact ih after after'

theorem eq_line_of_holds {groups : List (List Token)}
    (order : groups.flatten.Pairwise fun s t => s.span.stop ≤ t.span.start) {line line' : List Token}
    (here : line ∈ groups) (there : line' ∈ groups) {s t : Token} (member : s ∈ line)
    (member' : t ∈ line') (holds : s.span.Holds i) (holds' : t.span.Holds i) : line = line' := by
  unfold Span.Holds at holds holds'
  induction groups with
  | nil => cases here
  | cons first more ih =>
    rw [List.flatten_cons, List.pairwise_append] at order
    rcases List.mem_cons.1 here with rfl | after <;> rcases List.mem_cons.1 there with rfl | after'
    · rfl
    · have := order.2.2 s member t (List.mem_flatten.2 ⟨line', after', member'⟩)
      omega
    · have := order.2.2 t member' s (List.mem_flatten.2 ⟨line, after, member⟩)
      omega
    · exact ih order.2.1 after after'

end

end Markup
end Mustache
