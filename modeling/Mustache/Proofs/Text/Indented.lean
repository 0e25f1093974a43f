import Mustache.Text.Bytes

/-! Texts with an indent put at the start of their lines, where a text may start within a line that is
indented already, and may be followed by one that starts a line or one that does not. -/
namespace Mustache.Text

/-- Whether what comes after a text starts a line, if the text itself starts one or does not. -/
def startsLine (start : Bool) (text : List Char) : Bool :=
  match text.getLast? with
  | none => start
  | some c => c == '\n'

/-- A text with an indent at the start of each line. The indent comes with the first character of a
line; where a line has been started without any, it comes at the end. -/
def indentFrom (indent : List Char) (start : Bool) : List Char → Bool → List Char
  | [], left => if start && !left then indent else []
  | c :: rest, left => (if start then indent else []) ++ c :: indentFrom indent (c == '\n') rest left

/-- The lines of a text, each with the line feed that ends it. -/
def endedLines : List Char → List (List Char)
  | [] => []
  | c :: rest =>
    if c == '\n' then [c] :: endedLines rest
    else match endedLines rest with
      | [] => [[c]]
      | line :: more => (c :: line) :: more

/-- Lines with an indent before each of them, before the first one only if it starts a line. -/
def indentLines (indent : List Char) (start : Bool) : List (List Char) → List Char
  | [] => []
  | line :: more => (if start then indent else []) ++ line ++ more.flatMap (indent ++ ·)

variable {indent : List Char} {start left : Bool}

theorem flatten_endedLines (text : List Char) : (endedLines text).flatten = text := by
  induction text with
  | nil => rfl
  | cons c rest ih =>
    rw [endedLines]
    split
    · simp [ih]
    · cases lines : endedLines rest with
      | nil =>
        rw [lines] at ih
        simp [← ih]
      | cons line more =>
        rw [lines] at ih
        simp [← ih]

theorem startsLine_cons (c : Char) (rest : List Char) :
    startsLine start (c :: rest) = startsLine (c == '\n') rest := by
  unfold startsLine
  rw [List.getLast?_cons]
  cases rest.getLast? <;> rfl

theorem startsLine_append (first second : List Char) :
    startsLine start (first ++ second) = startsLine (startsLine start first) second := by
  induction first generalizing start with
  | nil => rfl
  | cons c rest ih => rw [List.cons_append, startsLine_cons, startsLine_cons, ih]

theorem endedLines_eq_nil_iff {text : List Char} : endedLines text = [] ↔ text = [] := by
  constructor
  · intro none
    rw [← flatten_endedLines text, none, List.flatten_nil]
  · rintro rfl
    rfl

theorem endedLines_of_unbroken {text : List Char} (nonempty : text ≠ []) (unbroken : '\n' ∉ text) :
    endedLines text = [text] := by
  induction text with
  | nil => exact absurd rfl nonempty
  | cons c rest ih =>
    have other : (c == '\n') = false := by
      rw [beq_eq_false_iff_ne]
      rintro rfl
      exact unbroken List.mem_cons_self
    rw [endedLines, other, if_neg Bool.false_ne_true]
    cases rest with
    | nil => rfl
    | cons d more => rw [ih (List.cons_ne_nil d more) fun member => unbroken (List.mem_cons_of_mem c member)]

theorem endedLines_append_newline {text : List Char} (unbroken : '\n' ∉ text) (more : List Char) :
    endedLines (text ++ '\n' :: more) = (text ++ ['\n']) :: endedLines more := by
  induction text with
  | nil => rfl
  | cons c rest ih =>
    have other : (c == '\n') = false := by
      rw [beq_eq_false_iff_ne]
      rintro rfl
      exact unbroken List.mem_cons_self
    rw [List.cons_append, endedLines, other, if_neg Bool.false_ne_true,
      ih fun member => unbroken (List.mem_cons_of_mem c member)]
    rfl

theorem indentLines_true (lines : List (List Char)) :
    indentLines indent true lines = lines.flatMap (indent ++ ·) := by
  cases lines <;> rfl

theorem startsLine_mono {first second : Bool} (implies : first = true → second = true)
    {text : List Char} (starts : startsLine first text = true) : startsLine second text = true := by
  cases text with
  | nil => exact implies starts
  | cons c rest =>
    rw [startsLine_cons] at starts ⊢
    exact starts

theorem startsLine_of_unbroken {text : List Char} (unbroken : '\n' ∉ text) :
    startsLine false text = false := by
  cases last : text.getLast? with
  | none =>
    rw [List.getLast?_eq_none_iff.1 last]
    rfl
  | some c =>
    have other : c ≠ '\n' := by
      rintro rfl
      exact unbroken (List.mem_of_getLast? last)
    simp [startsLine, last, other]

theorem line_append {margin text : List Char} (unbroken : '\n' ∉ margin) (line : '\n' ∉ text.dropLast) :
    '\n' ∉ (margin ++ text).dropLast := by
  cases text with
  | nil => exact fun member => unbroken (List.dropLast_subset _ (by simpa using member))
  | cons c rest =>
    rw [List.dropLast_append_of_ne_nil (List.cons_ne_nil c rest), List.mem_append]
    exact fun member => member.elim unbroken line

/-- Only the first line can be without the indent. -/
theorem indentLines_eq_flatMap_iff {lines : List (List Char)} :
    indentLines indent start lines = lines.flatMap (indent ++ ·) ↔
      start = true ∨ indent = [] ∨ lines = [] := by
  cases lines with
  | nil => exact ⟨fun _ => .inr (.inr rfl), fun _ => rfl⟩
  | cons line more =>
    cases start with
    | true => exact ⟨fun _ => .inl rfl, fun _ => indentLines_true _⟩
    | false =>
      simp only [indentLines, List.flatMap_cons, Bool.false_eq_true, if_false, List.nil_append, false_or,
        reduceCtorEq, or_false]
      rw [List.append_assoc, List.self_eq_append_left]

theorem flatMap_indent_eq_flatten_iff {lines : List (List Char)} :
    lines.flatMap (indent ++ ·) = lines.flatten ↔ indent = [] ∨ lines = [] := by
  constructor
  · intro same
    have size := congrArg List.length same
    have longer : (lines.flatMap (indent ++ ·)).length =
        lines.length * indent.length + lines.flatten.length := by
      clear same size
      induction lines with
      | nil => simp
      | cons line more ih =>
        simp only [List.flatMap_cons, List.length_append, ih, List.flatten_cons, List.length_cons, Nat.add_mul]
        omega
    have none : lines.length * indent.length = 0 := by omega
    rw [Nat.mul_eq_zero, List.length_eq_zero_iff, List.length_eq_zero_iff] at none
    exact none.symm
  · rintro (rfl | rfl)
    · simp [List.flatMap_def]
    · rfl

/-- An indent before the first line alone tells itself from one before each of several lines. -/
theorem indent_append_flatten_iff {lines : List (List Char)} :
    (if start && !lines.isEmpty then indent else []) ++ lines.flatten = indentLines indent start lines ↔
      indent = [] ∨ lines.length ≤ 1 := by
  cases lines with
  | nil => simp [indentLines]
  | cons line more =>
    have first : (start && !(line :: more).isEmpty) = start := by simp
    rw [first, indentLines, List.flatten_cons, List.append_assoc, List.append_right_inj, List.append_right_inj,
      eq_comm, flatMap_indent_eq_flatten_iff]
    simp

theorem getLast?_of_mem_dropLast_endedLines {text line : List Char}
    (member : line ∈ (endedLines text).dropLast) : line.getLast? = some '\n' := by
  induction text generalizing line with
  | nil => cases member
  | cons c rest ih =>
    rw [endedLines] at member
    split at member
    · rename_i newline
      rw [beq_iff_eq] at newline
      cases lines : endedLines rest with
      | nil =>
        rw [lines] at member
        cases member
      | cons first more =>
        rw [lines, List.dropLast_cons_cons] at member
        rcases List.mem_cons.1 member with rfl | later
        · rw [newline, List.getLast?_singleton]
        · exact ih (lines ▸ later)
    · cases lines : endedLines rest with
      | nil =>
        rw [lines] at member
        cases member
      | cons first more =>
        rw [lines] at member
        cases more with
        | nil => cases member
        | cons second more =>
          rw [List.dropLast_cons_cons] at member
          rw [lines, List.dropLast_cons_cons] at ih
          rcases List.mem_cons.1 member with rfl | later
          · rw [List.getLast?_cons, ih List.mem_cons_self]
            rfl
          · exact ih (List.mem_cons_of_mem first later)

theorem ne_nil_of_mem_endedLines {text line : List Char} (member : line ∈ endedLines text) : line ≠ [] := by
  induction text generalizing line with
  | nil => cases member
  | cons c rest ih =>
    rw [endedLines] at member
    split at member
    · rcases List.mem_cons.1 member with rfl | later
      · exact List.cons_ne_nil c []
      · exact ih later
    · cases lines : endedLines rest with
      | nil =>
        rw [lines, List.mem_singleton] at member
        subst member
        exact List.cons_ne_nil c []
      | cons first more =>
        rw [lines] at member
        rcases List.mem_cons.1 member with rfl | later
        · exact List.cons_ne_nil c first
        · exact ih (lines ▸ List.mem_cons_of_mem first later)

/-- The indent stands before each line, and at the end if a line has been started there. -/
theorem indentFrom_eq_indentLines (text : List Char) :
    indentFrom indent start text left = indentLines indent start (endedLines text) ++
      if startsLine start text && !left then indent else [] := by
  induction text generalizing start with
  | nil => rfl
  | cons c rest ih =>
    rw [indentFrom, ih, startsLine_cons, endedLines]
    by_cases newline : (c == '\n') = true
    · rw [if_pos newline, newline, indentLines_true, indentLines]
      simp
    · rw [Bool.not_eq_true] at newline
      rw [newline]
      cases endedLines rest <;> simp [indentLines]

theorem indentFrom_append (first : List Char) {middle : Bool} (second : List Char)
    (here : middle = true → startsLine start first = true)
    (there : left = true → startsLine middle second = true) :
    indentFrom indent start (first ++ second) left =
      indentFrom indent start first middle ++ indentFrom indent middle second left := by
  induction first generalizing start with
  | cons c rest ih =>
    rw [startsLine_cons] at here
    rw [List.cons_append, indentFrom, indentFrom, ih here, List.append_assoc, List.cons_append]
  | nil =>
    rw [List.nil_append]
    cases middle with
    | true =>
      have start : start = true := here rfl
      subst start
      rfl
    | false =>
      cases second with
      | nil =>
        have ended : left = false := by simpa [startsLine] using there
        subst ended
        simp [indentFrom]
      | cons c rest => simp [indentFrom]

/-- A text without a line feed but at its end is indented as a whole. -/
theorem indentFrom_of_line {text : List Char} (line : '\n' ∉ text.dropLast)
    (ends : left = startsLine false text) :
    indentFrom indent start text left = if start then indent ++ text else text := by
  cases text with
  | nil =>
    subst ends
    cases start <;> simp [indentFrom, startsLine]
  | cons c rest =>
    have tail : indentFrom indent (c == '\n') rest left = rest := by
      rw [startsLine_cons] at ends
      subst ends
      clear start
      generalize begins : (c == '\n') = started at *
      induction rest generalizing c started with
      | nil => simp [indentFrom, startsLine]
      | cons d more ih =>
        have other : (c == '\n') = false := by
          rw [beq_eq_false_iff_ne]
          rintro rfl
          simp at line
        rw [other] at begins
        subst begins
        have later : '\n' ∉ (d :: more).dropLast := by
          rw [List.dropLast_cons_of_ne_nil (by simp)] at line
          exact fun inside => line (List.mem_cons_of_mem c inside)
        rw [startsLine_cons, indentFrom, ih d later _ rfl]
        simp
    rw [indentFrom, tail]
    cases start <;> simp

end Mustache.Text
