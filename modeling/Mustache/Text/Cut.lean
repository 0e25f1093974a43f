/-! Searching a text for another text: the part before and after the first occurrence, splitting at
every occurrence, and replacing every occurrence. Occurrences are found from left to right and do
not overlap. -/
namespace Mustache.Text

def dropPrefix? : List Char → List Char → Option (List Char)
  | [], text => some text
  | _ :: _, [] => none
  | p :: pattern, c :: rest => if p = c then dropPrefix? pattern rest else none

theorem eq_append_of_dropPrefix? {pattern text after : List Char}
    (found : dropPrefix? pattern text = some after) : text = pattern ++ after := by
  induction pattern generalizing text with
  | nil => simpa [dropPrefix?] using found
  | cons p pattern ih =>
    cases text with
    | nil => simp [dropPrefix?] at found
    | cons c rest =>
      simp only [dropPrefix?] at found
      split at found
      · rename_i same
        simp [same, ih found]
      · simp at found

theorem dropPrefix?_append (pattern after : List Char) :
    dropPrefix? pattern (pattern ++ after) = some after := by
  induction pattern with
  | nil => rfl
  | cons p pattern ih => simp [dropPrefix?, ih]

/-- The text before the first occurrence of the pattern and the text after it. -/
def cut? (pattern : List Char) : List Char → Option (List Char × List Char)
  | [] => if pattern.isEmpty then some ([], []) else none
  | c :: rest =>
    match dropPrefix? pattern (c :: rest) with
    | some after => some ([], after)
    | none => (cut? pattern rest).map fun (before, after) => (c :: before, after)

/-- Nothing is lost: the three parts make up the text. -/
theorem eq_append_of_cut? {pattern text before after : List Char}
    (found : cut? pattern text = some (before, after)) : text = before ++ pattern ++ after := by
  induction text generalizing before with
  | nil =>
    simp only [cut?] at found
    split at found
    · rename_i empty
      simp_all
    · simp at found
  | cons c rest ih =>
    simp only [cut?] at found
    split at found
    · rename_i rest' h
      simp only [Option.some.injEq, Prod.mk.injEq] at found
      obtain ⟨rfl, rfl⟩ := found
      simpa using eq_append_of_dropPrefix? h
    · obtain ⟨⟨b, a⟩, h, heq⟩ := Option.map_eq_some_iff.1 found
      simp only [Prod.mk.injEq] at heq
      obtain ⟨rfl, rfl⟩ := heq
      simp [ih h]

theorem length_lt_of_cut? {pattern text before after : List Char} (nonempty : pattern ≠ [])
    (found : cut? pattern text = some (before, after)) : after.length < text.length := by
  have whole := congrArg List.length (eq_append_of_cut? found)
  have := List.length_pos_iff.2 nonempty
  simp only [List.length_append] at whole
  omega

def contains (pattern text : List Char) : Bool :=
  (cut? pattern text).isSome

def consFirst (c : Char) : List (List Char) → List (List Char)
  | [] => [[c]]
  | first :: more => (c :: first) :: more

/-- Splits at every occurrence of a separator, the next `skip` characters being part of one. -/
def splitFrom (separator : List Char) : Nat → List Char → List (List Char)
  | _, [] => [[]]
  | skip + 1, _ :: rest => splitFrom separator skip rest
  | 0, c :: rest =>
    if (dropPrefix? separator (c :: rest)).isSome then
      [] :: splitFrom separator (separator.length - 1) rest
    else consFirst c (splitFrom separator 0 rest)

/-- The pieces between the occurrences of a separator. The empty separator occurs before every
character and at the end. -/
def splitAt (separator text : List Char) : List (List Char) :=
  if separator.isEmpty then [] :: text.map ([·]) ++ [[]] else splitFrom separator 0 text

def replace (pattern replacement text : List Char) : List Char :=
  replacement.intercalate (splitAt pattern text)

end Mustache.Text
