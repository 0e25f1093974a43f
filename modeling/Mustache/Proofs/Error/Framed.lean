import Mustache.Error.Frame
import Mustache.Proofs.Markup.Pieces

/-! The frame of an error whose place is in its source. Nothing is sliced where it cannot be, and the
line that is shown is the one in which the place starts. -/
namespace Mustache

namespace Text

/-- Splits a text after a number of bytes, unless that is within a character or past the end. -/
def splitAt? : Nat → List Char → Option (List Char × List Char)
  | 0, text => some ([], text)
  | _ + 1, [] => none
  | n + 1, c :: rest =>
    if c.utf8Size ≤ n + 1 then
      (splitAt? (n + 1 - c.utf8Size) rest).map fun (before, after) => (c :: before, after)
    else none

theorem splitAt?_append (a b : List Char) : splitAt? (byteSize a) (a ++ b) = some (a, b) := by
  induction a with
  | nil =>
    cases b <;> rfl
  | cons c rest ih =>
    have positive := c.utf8Size_pos
    obtain ⟨n, size⟩ : ∃ n, byteSize (c :: rest) = n + 1 := ⟨byteSize (c :: rest) - 1, by
      rw [byteSize_cons]
      omega⟩
    have remains : n + 1 - c.utf8Size = byteSize rest := by
      rw [← size, byteSize_cons, Nat.add_sub_cancel_left]
    have within : c.utf8Size ≤ n + 1 := by
      rw [← size, byteSize_cons]
      exact Nat.le_add_right _ _
    rw [size, List.cons_append, splitAt?, if_pos within, remains, ih]
    rfl

theorem of_splitAt? {n : Nat} {text before after : List Char}
    (split : splitAt? n text = some (before, after)) : text = before ++ after ∧ n = byteSize before := by
  induction text generalizing n before with
  | nil =>
    cases n with
    | zero =>
      cases split
      exact ⟨rfl, rfl⟩
    | succ n => cases split
  | cons c rest ih =>
    cases n with
    | zero =>
      cases split
      exact ⟨rfl, rfl⟩
    | succ n =>
      rw [splitAt?] at split
      split at split
      · obtain ⟨⟨b, a⟩, found, same⟩ := Option.map_eq_some_iff.1 split
        cases same
        obtain ⟨rfl, size⟩ := ih found
        refine ⟨rfl, ?_⟩
        rw [byteSize_cons, ← size]
        omega
      · cases split

/-- The characters of a span, unless it is not one of the text. -/
def slice? (span : Span) (text : List Char) : Option (List Char) := do
  if span.stop < span.start then failure
  let (_, rest) ← splitAt? span.start text
  let (part, _) ← splitAt? (span.stop - span.start) rest
  pure part

theorem slice?_of_covers {span : Span} {text part : List Char} (covers : span.Covers text part) :
    slice? span text = some part := by
  obtain ⟨before, after, rfl, start, stop⟩ := covers
  have ordered : ¬ span.stop < span.start := by omega
  have size : span.stop - span.start = byteSize part := by omega
  unfold slice?
  rw [if_neg ordered, start, stop, List.append_assoc, splitAt?_append, Nat.add_sub_cancel_left]
  show ((splitAt? (byteSize part) (part ++ after)).bind fun (part, _) => some part) = _
  rw [splitAt?_append]
  rfl

theorem covers_of_slice? {span : Span} {text part : List Char} (sliced : slice? span text = some part) :
    span.Covers text part := by
  unfold slice? at sliced
  split at sliced
  · cases sliced
  · rename_i ordered
    obtain ⟨⟨before, rest⟩, first, sliced⟩ := Option.bind_eq_some_iff.1 sliced
    obtain ⟨⟨part', after⟩, second, same⟩ := Option.bind_eq_some_iff.1 sliced
    cases same
    obtain ⟨rfl, start⟩ := of_splitAt? first
    obtain ⟨rfl, size⟩ := of_splitAt? second
    exact ⟨before, after, by rw [List.append_assoc], start, by omega⟩

/-! ### Lines by number -/

theorem pieces_of_one_line {line : List Char} (unbroken : '\n' ∉ line) :
    pieces (· == '\n') line = [line] := by
  refine pieces_of_unbroken fun c member => ?_
  rw [beq_eq_false_iff_ne]
  rintro rfl
  exact unbroken member

theorem length_pieces (text : List Char) :
    (pieces (· == '\n') text).length = text.count '\n' + 1 := by
  induction text with
  | nil => rfl
  | cons c rest ih =>
    rw [pieces]
    split
    · rename_i feed
      rw [List.length_cons, ih, beq_iff_eq.1 feed, List.count_cons_self]
    · rename_i other
      rw [List.count_cons_of_ne (by simpa using other), ← ih]
      split
      · rename_i none
        exact absurd none (pieces_ne_nil _ rest)
      · rename_i found
        rw [found]
        rfl

/-- The bytes of lines, each with the line feed after it. -/
def linesSize : List (List Char) → Nat
  | [] => 0
  | line :: more => byteSize line + 1 + linesSize more

theorem linesSize_pieces (text : List Char) :
    linesSize (pieces (· == '\n') text) = byteSize text + 1 := by
  have feed : ('\n').utf8Size = 1 := by decide
  induction text with
  | nil => rfl
  | cons c rest ih =>
    rw [pieces, byteSize_cons]
    split
    · rename_i same
      have first : linesSize ([] :: pieces (· == '\n') rest) =
          1 + linesSize (pieces (· == '\n') rest) := by rw [linesSize, byteSize_nil, Nat.zero_add]
      rw [first, ih, beq_iff_eq.1 same, feed]
      omega
    · split
      · rename_i none
        exact absurd none (pieces_ne_nil _ rest)
      · rename_i line more found
        rw [found] at ih
        simp only [linesSize, byteSize_cons] at ih ⊢
        omega

theorem exists_ended_of_mem {text : List Char} (broken : '\n' ∈ text) :
    ∃ before, text = before ++ '\n' :: lastLine text := by
  obtain ⟨before, after, split, absent⟩ := List.eq_append_cons_of_mem (List.mem_reverse.2 broken)
  refine ⟨after.reverse, ?_⟩
  have whole : text = after.reverse ++ ['\n'] ++ before.reverse := by
    rw [← List.reverse_reverse text, split]
    simp
  have last : lastLine text = before.reverse := by
    rw [whole, lastLine_ended, lastLine_of_unbroken (mt List.mem_reverse.1 absent)]
  rw [last, whole]
  simp

end Text

namespace Error

open Text

theorem sourceLines_of_unbroken {line : List Char} (unbroken : '\n' ∉ line) (some : line ≠ []) :
    sourceLines line = [line] := by
  unfold sourceLines
  dsimp only
  rw [pieces_of_one_line unbroken, if_neg]
  simpa using some

theorem sourceLines_ended (before rest : List Char) :
    sourceLines (before ++ '\n' :: rest) = pieces (· == '\n') before ++ sourceLines rest := by
  have some := pieces_ne_nil (· == '\n') rest
  unfold sourceLines
  dsimp only
  rw [pieces_append_cons rfl, List.getLast?_append, List.getLast?_eq_some_getLast some, Option.some_or]
  split
  · rw [List.dropLast_append_of_ne_nil some]
  · rfl

/-- A line of a source in the middle of all its lines. -/
theorem exists_line {line : List Char} (unbroken : '\n' ∉ line) {rest : List Char} (more : rest ≠ []) :
    ∃ later, sourceLines (line ++ rest) = (line ++ firstLine rest) :: later := by
  by_cases broken : '\n' ∈ rest
  · obtain ⟨front, back, rfl, first⟩ := List.eq_append_cons_of_mem broken
    have whole : '\n' ∉ line ++ front := by
      rw [List.mem_append]
      exact not_or.2 ⟨unbroken, first⟩
    rw [firstLine_ended first, ← List.append_assoc, sourceLines_ended, pieces_of_one_line whole]
    exact ⟨sourceLines back, rfl⟩
  · have whole : '\n' ∉ line ++ rest := by
      rw [List.mem_append]
      exact not_or.2 ⟨unbroken, broken⟩
    have last : firstLine rest = rest := by simpa [firstLine] using firstLine_append broken []
    rw [last, sourceLines_of_unbroken whole (by simp [more])]
    exact ⟨[], rfl⟩

theorem exists_lines (before : List Char) {rest : List Char} (more : rest ≠ []) :
    ∃ earlier later, sourceLines (before ++ rest) =
      earlier ++ (lastLine before ++ firstLine rest) :: later ∧
        earlier.length = before.count '\n' ∧
        linesSize earlier + byteSize (lastLine before) = byteSize before := by
  have unbroken := newline_not_mem_lastLine before
  obtain ⟨later, line⟩ := exists_line unbroken more
  by_cases broken : '\n' ∈ before
  · obtain ⟨front, ended⟩ := exists_ended_of_mem broken
    have lines : before.count '\n' = front.count '\n' + 1 := by
      rw [ended, List.count_append, List.count_cons_self, List.count_eq_zero.2 unbroken]
    have size : byteSize before = byteSize front + 1 + byteSize (lastLine before) := by
      have feed : ('\n').utf8Size = 1 := by decide
      have whole := congrArg byteSize ended
      rw [byteSize_append, byteSize_cons, feed] at whole
      omega
    refine ⟨pieces (· == '\n') front, later, ?_, ?_, ?_⟩
    · rw [← line, ← sourceLines_ended, ← List.cons_append, ← List.append_assoc, ← ended]
    · rw [length_pieces, lines]
    · rw [linesSize_pieces, size]
  · rw [lastLine_of_unbroken broken] at line ⊢
    refine ⟨[], later, line, ?_, Nat.zero_add _⟩
    rw [List.count_eq_zero.2 broken]
    rfl

/-! ### The frame -/

section

variable (width : List Char → Nat)

/-- As `frame`, but for slices that fail where there is nothing to slice. -/
def positionFrom? (number column : Nat) : List (List Char) → Nat → Option Position
  | [], _ => some ⟨number, column⟩
  | line :: rest, offset =>
    if offset < byteSize line + 1 then
      (splitAt? offset line).map fun (before, _) => ⟨number, width before⟩
    else positionFrom? (number + 1) column rest (offset - (byteSize line + 1))

/-- A frame with a line of the source by its number, and carets below it. -/
def framed (number : Nat) (line : List Char) (column carets : Nat) (message : String) : String :=
  let number := toString number
  let margin := blanks number.length
  "\n " ++ margin ++ " |\n " ++ number ++ " | " ++ .ofList line ++ "\n " ++ margin ++ " | " ++
    blanks column ++ .ofList (List.replicate carets '^') ++ " " ++ message ++ "\n"

/-- The frame of an error, unless something is sliced where it cannot be. -/
def frame? (message : String) (site : Site) : Option String := do
  let lines := sourceLines site.source.toList
  let place ← positionFrom? width 0 (width (lines.getLast?.getD [])) lines site.span.start
  let part ← slice? site.span site.source.toList
  let line := (lines[place.line]?).getD (lines.getLast?.getD [])
  pure (framed (place.line + 1) line place.column (max 1 (width part)) message)

end

variable {width : List Char → Nat}

theorem position_of_positionFrom? {number last offset : Nat} {lines : List (List Char)}
    {place : Position} (found : positionFrom? width number last lines offset = some place) :
    (positionFrom width number lines offset).getD ⟨number + lines.length, last⟩ = place := by
  induction lines generalizing number offset with
  | nil => exact Option.some.inj found
  | cons line rest ih =>
    rw [positionFrom?] at found
    rw [positionFrom]
    split
    · rename_i here
      rw [if_pos here] at found
      obtain ⟨⟨before, after⟩, split, rfl⟩ := Option.map_eq_some_iff.1 found
      obtain ⟨rfl, rfl⟩ := of_splitAt? split
      rw [takeBytes_append]
      rfl
    · rename_i later
      rw [if_neg later] at found
      rw [List.length_cons, Nat.add_comm rest.length, ← Nat.add_assoc]
      exact ih found

/-- A frame in which nothing fails is the frame. -/
theorem frame_of_frame? {message : String} {site : Site} {text : String}
    (shown : frame? width message site = some text) : frame width message site = text := by
  obtain ⟨place, found, shown⟩ := Option.bind_eq_some_iff.1 shown
  obtain ⟨part, sliced, shown⟩ := Option.bind_eq_some_iff.1 shown
  have position := position_of_positionFrom? found
  rw [Nat.zero_add] at position
  have slice := (covers_of_slice? sliced).slice
  cases shown
  subst position
  unfold frame
  rw [slice, String.toList_ofList]
  rfl

theorem positionFrom?_append {column : Nat} {earlier later : List (List Char)} {line before rest : List Char}
    (split : line = before ++ rest) (number : Nat) :
    positionFrom? width number column (earlier ++ line :: later) (linesSize earlier + byteSize before) =
      some ⟨number + earlier.length, width before⟩ := by
  induction earlier generalizing number with
  | nil =>
    have within : linesSize [] + byteSize before < byteSize line + 1 := by
      rw [split, byteSize_append, show linesSize [] = 0 from rfl]
      omega
    rw [List.nil_append, positionFrom?, if_pos within, split, show linesSize [] = 0 from rfl,
      Nat.zero_add, splitAt?_append]
    rfl
  | cons first earlier ih =>
    have size : linesSize (first :: earlier) = byteSize first + 1 + linesSize earlier := rfl
    rw [List.cons_append, positionFrom?, if_neg (by omega), size, Nat.add_assoc _ (linesSize earlier),
      Nat.add_sub_cancel_left, ih, List.length_cons]
    congr 2
    omega

/-- The line in which a place starts is shown under its number, with carets below the place. -/
theorem frame?_eq (width : List Char → Nat) (message : String) {site : Site} {before part after : List Char}
    (whole : site.source.toList = before ++ part ++ after) (start : site.span.start = byteSize before)
    (stop : site.span.stop = byteSize before + byteSize part) (more : part ++ after ≠ []) :
    frame? width message site = some (framed (before.count '\n' + 1)
      (lastLine before ++ firstLine (part ++ after)) (width (lastLine before))
      (max 1 (width part)) message) := by
  obtain ⟨earlier, later, lines, number, size⟩ := exists_lines before more
  rw [← List.append_assoc, ← whole] at lines
  have found : positionFrom? width 0 (width ((sourceLines site.source.toList).getLast?.getD []))
      (sourceLines site.source.toList) site.span.start =
        some ⟨before.count '\n', width (lastLine before)⟩ := by
    rw [start, ← size, ← number, lines, positionFrom?_append rfl, Nat.zero_add]
  have line : (sourceLines site.source.toList)[before.count '\n']? =
      some (lastLine before ++ firstLine (part ++ after)) := by
    rw [lines, ← number]
    simp
  have sliced : slice? site.span site.source.toList = some part :=
    slice?_of_covers ⟨before, after, whole, start, stop⟩
  unfold frame?
  dsimp only
  rw [found, sliced]
  dsimp only [Option.bind_eq_bind, Option.bind_some]
  rw [line]
  rfl

end Error

/-- A place in a source that is not empty, between characters, which starts before the end. -/
structure Site.Placed (site : Site) : Prop where
  source : site.source.isEmpty = false
  ordered : site.span.start ≤ site.span.stop
  ends : site.span.stop ≤ Text.byteSize site.source.toList
  starts : site.span.start < Text.byteSize site.source.toList
  between : ∃ part, site.span.Covers site.source.toList part

/-- A frame in which nothing has failed, with the line of the place, its number, and carets that start
where the place does and are as many as its part of the source has columns, or one. -/
def Site.Framed (width : List Char → Nat) (site : Site) (message text : String) : Prop :=
  Error.frame? width message site = some text ∧
    ∃ before part after : List Char, site.source.toList = before ++ part ++ after ∧
      site.span.start = Text.byteSize before ∧ site.span.stop = Text.byteSize (before ++ part) ∧
      text = Error.framed (before.count '\n' + 1)
        (Text.lastLine before ++ Text.firstLine (part ++ after)) (width (Text.lastLine before))
        (max 1 (width part)) message

/-- A span that starts before the end of a source, as a place. -/
def Span.Marks (span : Span) (source : String) : Prop :=
  (∃ part, span.Covers source.toList part) ∧ span.start < Text.byteSize source.toList

theorem Span.Covers.marks {span : Span} {source : String} {part : List Char}
    (covers : span.Covers source.toList part) (some : part ≠ []) : span.Marks source := by
  refine ⟨⟨part, covers⟩, ?_⟩
  obtain ⟨before, after, whole, start, -⟩ := covers
  have positive := mt Text.byteSize_eq_zero.1 some
  rw [start, whole, Text.byteSize_append, Text.byteSize_append]
  omega

namespace Span.Marks

variable {span : Span} {source : String}

theorem isEmpty_eq_false (marks : span.Marks source) : source.isEmpty = false := by
  rw [String.isEmpty_eq_false_iff]
  rintro rfl
  exact Nat.not_lt_zero _ marks.2

theorem siteIn_eq (marks : span.Marks source) : Error.siteIn source span = some ⟨source, span⟩ := by
  unfold Error.siteIn
  rw [marks.isEmpty_eq_false]
  rfl

theorem placed (marks : span.Marks source) : Site.Placed ⟨source, span⟩ := by
  obtain ⟨part, before, after, whole, start, stop⟩ := marks.1
  refine ⟨marks.isEmpty_eq_false, ?_, ?_, marks.2, part, before, after, whole, start, stop⟩
  · show span.start ≤ span.stop
    omega
  · show span.stop ≤ Text.byteSize source.toList
    rw [whole, Text.byteSize_append, Text.byteSize_append]
    omega

end Span.Marks

theorem Site.Placed.framed {site : Site} (placed : site.Placed) (width : List Char → Nat) (message : String) :
    site.Framed width message (Error.frame width message site) := by
  obtain ⟨part, before, after, whole, start, stop⟩ := placed.between
  have more : part ++ after ≠ [] := by
    intro none
    have size := congrArg Text.byteSize whole
    rw [List.append_assoc, none, List.append_nil, ← start] at size
    exact Nat.lt_irrefl _ (size ▸ placed.starts)
  have shown := Error.frame?_eq width message whole start stop more
  have same := Error.frame_of_frame? shown
  rw [Site.Framed, same]
  exact ⟨shown, before, part, after, whole, start, by rw [Text.byteSize_append]; exact stop, rfl⟩

end Mustache
