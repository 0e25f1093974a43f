/-! Blank characters, trimming and words. A character is blank if it has Unicode's White_Space
property; a word is a longest run of characters that are not blank. -/
namespace Mustache.Text

def isBlank (c : Char) : Bool :=
  let n := c.toNat
  (0x09 ≤ n && n ≤ 0x0D) || n == 0x20 || n == 0x85 || n == 0xA0 || n == 0x1680 ||
    (0x2000 ≤ n && n ≤ 0x200A) || n == 0x2028 || n == 0x2029 || n == 0x202F || n == 0x205F ||
    n == 0x3000

def trimStart (text : List Char) : List Char :=
  text.dropWhile isBlank

def trimEnd (text : List Char) : List Char :=
  (text.reverse.dropWhile isBlank).reverse

def trim (text : List Char) : List Char :=
  trimEnd (trimStart text)

/-- Splits at every character that satisfies the test, which belongs to no piece. There is always
at least one piece. -/
def pieces (test : Char → Bool) : List Char → List (List Char)
  | [] => [[]]
  | c :: rest =>
    if test c then [] :: pieces test rest
    else match pieces test rest with
      | [] => [[c]]
      | first :: more => (c :: first) :: more

def words (text : List Char) : List (List Char) :=
  (pieces isBlank text).filter (fun word => !word.isEmpty)

theorem pieces_ne_nil (test : Char → Bool) (text : List Char) : pieces test text ≠ [] := by
  cases text with
  | nil => simp [pieces]
  | cons c rest =>
    simp only [pieces]
    split
    · simp
    · split <;> simp

/-- A text without a separator is one piece. -/
theorem pieces_of_unbroken {test : Char → Bool} {text : List Char} (unbroken : ∀ c ∈ text, test c = false) :
    pieces test text = [text] := by
  induction text with
  | nil => rfl
  | cons c rest ih =>
    rw [pieces, unbroken c List.mem_cons_self, ih fun d member => unbroken d (List.mem_cons_of_mem c member)]
    rfl

/-- A separator between two texts splits them. -/
theorem pieces_append_cons {test : Char → Bool} {c : Char} (separates : test c = true)
    (before after : List Char) :
    pieces test (before ++ c :: after) = pieces test before ++ pieces test after := by
  induction before with
  | nil => simp [pieces, separates]
  | cons d rest ih =>
    simp only [List.cons_append, pieces]
    split
    · simp [ih]
    · rw [ih]
      cases found : pieces test rest with
      | nil => exact absurd found (pieces_ne_nil test rest)
      | cons first more => rfl

/-- A blank between two texts separates their words. -/
theorem words_append_cons {c : Char} (blank : isBlank c = true) (before after : List Char) :
    words (before ++ c :: after) = words before ++ words after := by
  rw [words, pieces_append_cons blank, List.filter_append]
  rfl

end Mustache.Text
