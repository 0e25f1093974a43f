import Mustache.Program.Compile
import Mustache.Proofs.Text.Search

/-! The text that the key of a body is the digest of can be read back: it tells the delimiters, the
removed lines, the pragmas and the text of the body apart. -/
namespace Mustache

theorem Pragmas.eq_of_sortedNames {a b : Pragmas}
    (same : " ".intercalate a.sortedNames = " ".intercalate b.sortedNames) : a = b := by
  obtain ⟨blocks, filters, anchored⟩ := a
  obtain ⟨blocks', filters', anchored'⟩ := b
  cases blocks <;> cases filters <;> cases anchored <;> cases blocks' <;> cases filters' <;>
    cases anchored' <;> first
    | rfl
    | exact absurd same (by decide)

theorem Pragmas.newline_not_mem (set : Pragmas) :
    '\n' ∉ (" ".intercalate set.sortedNames).toList := by
  obtain ⟨blocks, filters, anchored⟩ := set
  cases blocks <;> cases filters <;> cases anchored <;> decide

namespace Delimiters

theorem isBlank_of_mem {text : List Char} (valid : isDelimiter text = true) {c : Char}
    (member : c ∈ text) : Text.isBlank c = false := by
  unfold isDelimiter at valid
  rw [Bool.and_eq_true, List.all_eq_true] at valid
  have := valid.2 c member
  simp only [Bool.and_eq_true, Bool.not_eq_true'] at this
  exact this.2

theorem blank_not_mem {text : List Char} (valid : isDelimiter text = true) {c : Char}
    (blank : Text.isBlank c = true) : c ∉ text := by
  intro member
  rw [isBlank_of_mem valid member] at blank
  cases blank

theorem changeTag_injective {a b : Delimiters} (same : a.changeTag = b.changeTag) : a = b := by
  unfold changeTag at same
  simp only [List.append_assoc, List.append_cancel_left_eq, List.singleton_append] at same
  have space : Text.isBlank ' ' = true := by decide
  obtain ⟨opening, later⟩ := Text.split_at_first (blank_not_mem a.opening_valid space)
    (blank_not_mem b.opening_valid space) same
  have closing := (Text.split_at_first (blank_not_mem a.closing_valid space)
    (blank_not_mem b.closing_valid space) later).1
  obtain ⟨_, _, _, _⟩ := a
  obtain ⟨_, _, _, _⟩ := b
  simp only [mk.injEq]
  exact ⟨opening, closing⟩

theorem newline_not_mem_changeTag (d : Delimiters) : '\n' ∉ d.changeTag := by
  have newline : Text.isBlank '\n' = true := by decide
  have opening := blank_not_mem d.opening_valid newline
  have closing := blank_not_mem d.closing_valid newline
  simp [changeTag, opening, closing]

theorem changeTag?_injective {a b : Delimiters}
    (same : a.changeTag?.getD "" = b.changeTag?.getD "") : a = b := by
  have nonempty (d : Delimiters) : String.ofList d.changeTag ≠ "" := by
    intro empty
    have := congrArg String.toList empty
    simp [changeTag] at this
  unfold changeTag? at same
  split at same <;> split at same
  · rename_i first second
    rw [first, second]
  · exact absurd same.symm (nonempty b)
  · exact absurd same (nonempty a)
  · exact changeTag_injective (String.ofList_injective same)

theorem newline_not_mem (d : Delimiters) : '\n' ∉ (d.changeTag?.getD "").toList := by
  unfold changeTag?
  split
  · decide
  · simpa using d.newline_not_mem_changeTag

end Delimiters

theorem newline_not_mem_edges (edges : Bool × Bool) :
    '\n' ∉ (edgeDigit edges.1).toList ++ (edgeDigit edges.2).toList := by
  obtain ⟨first, last⟩ := edges
  cases first <;> cases last <;> decide

theorem edges_injective {a b : Bool × Bool}
    (same : (edgeDigit a.1).toList ++ (edgeDigit a.2).toList =
      (edgeDigit b.1).toList ++ (edgeDigit b.2).toList) : a = b := by
  obtain ⟨first, last⟩ := a
  obtain ⟨first', last'⟩ := b
  cases first <;> cases last <;> cases first' <;> cases last' <;> first
    | rfl
    | exact absurd same (by decide)

theorem Body.eq_of_identity {source source' : String} {set set' : Pragmas} {a b : Body}
    (same : a.identity source set = b.identity source' set') :
    a.delims = b.delims ∧ a.edges = b.edges ∧ set = set' ∧
      a.span.slice source = b.span.slice source' := by
  have whole := congrArg String.toList same
  have newline : "\n".toList = ['\n'] := rfl
  simp only [identity, String.toList_append, newline, List.append_assoc, List.cons_append,
    List.nil_append] at whole
  obtain ⟨delims, more⟩ := Text.split_at_first a.delims.newline_not_mem b.delims.newline_not_mem whole
  rw [← List.append_assoc (edgeDigit a.edges.1).toList,
    ← List.append_assoc (edgeDigit b.edges.1).toList] at more
  obtain ⟨edges, more⟩ := Text.split_at_first (newline_not_mem_edges a.edges)
    (newline_not_mem_edges b.edges) more
  obtain ⟨names, text⟩ := Text.split_at_first set.newline_not_mem set'.newline_not_mem more
  exact ⟨Delimiters.changeTag?_injective (String.toList_injective delims), edges_injective edges,
    Pragmas.eq_of_sortedNames (String.toList_injective names), String.toList_injective text⟩

end Mustache
