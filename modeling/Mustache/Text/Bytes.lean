/-! Texts measured in UTF-8 bytes, and the part of a text between two byte offsets. -/
namespace Mustache.Text

def byteSize : List Char → Nat
  | [] => 0
  | c :: rest => c.utf8Size + byteSize rest

@[simp] theorem byteSize_nil : byteSize [] = 0 := rfl

@[simp] theorem byteSize_cons (c : Char) (rest : List Char) :
    byteSize (c :: rest) = c.utf8Size + byteSize rest := rfl

@[simp] theorem byteSize_append (a b : List Char) :
    byteSize (a ++ b) = byteSize a + byteSize b := by
  induction a with
  | nil => simp
  | cons c rest ih => simp [ih, Nat.add_assoc]

theorem byteSize_eq_zero {text : List Char} : byteSize text = 0 ↔ text = [] := by
  cases text with
  | nil => simp
  | cons c rest =>
    have := c.utf8Size_pos
    simp
    omega

/-- What is left after a number of bytes, a character that is only partly within them included. -/
def dropBytes : Nat → List Char → List Char
  | 0, text => text
  | _, [] => []
  | n + 1, c :: rest => dropBytes (n + 1 - c.utf8Size) rest

/-- The characters that start within a number of bytes. -/
def takeBytes : Nat → List Char → List Char
  | 0, _ => []
  | _, [] => []
  | n + 1, c :: rest => c :: takeBytes (n + 1 - c.utf8Size) rest

@[simp] theorem dropBytes_zero (text : List Char) : dropBytes 0 text = text := by
  cases text <;> rfl

@[simp] theorem takeBytes_zero (text : List Char) : takeBytes 0 text = [] := by
  cases text <;> rfl

@[simp] theorem dropBytes_append (a b : List Char) : dropBytes (byteSize a) (a ++ b) = b := by
  induction a with
  | nil => simp
  | cons c rest ih =>
    have := c.utf8Size_pos
    obtain ⟨n, h⟩ := Nat.exists_eq_add_of_lt this
    have : byteSize (c :: rest) = (n + byteSize rest) + 1 := by simp; omega
    rw [this, List.cons_append, dropBytes]
    rw [show n + byteSize rest + 1 - c.utf8Size = byteSize rest by omega, ih]

@[simp] theorem takeBytes_append (a b : List Char) : takeBytes (byteSize a) (a ++ b) = a := by
  induction a with
  | nil => simp
  | cons c rest ih =>
    have := c.utf8Size_pos
    obtain ⟨n, h⟩ := Nat.exists_eq_add_of_lt this
    have : byteSize (c :: rest) = (n + byteSize rest) + 1 := by simp; omega
    rw [this, List.cons_append, takeBytes]
    rw [show n + byteSize rest + 1 - c.utf8Size = byteSize rest by omega, ih]

end Mustache.Text
