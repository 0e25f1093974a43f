import Mustache.Html

/-! Escaped text holds no markup of its own, and the text that was escaped can be read back from it. -/
namespace Mustache.Html

/-- The entities that characters are written as, each with its character. -/
def entities : List (List Char × Char) :=
  [("&amp;".toList, '&'), ("&lt;".toList, '<'), ("&gt;".toList, '>'), ("&quot;".toList, '"'),
    ("&#039;".toList, '\'')]

def entity? (text : List Char) : Option (List Char × Char) :=
  entities.find? fun entity => entity.1.isPrefixOf text

/-- Reads from left to right, each entity as its character and any other character as itself. The
number tells how many characters still belong to an entity that has been read. -/
def decode : Nat → List Char → List Char
  | _, [] => []
  | skip + 1, _ :: rest => decode skip rest
  | 0, c :: rest =>
    match entity? (c :: rest) with
    | some (name, meant) => meant :: decode (name.length - 1) rest
    | none => c :: decode 0 rest

def unescape (text : String) : String :=
  .ofList (decode 0 text.toList)

/-- The characters that are written as entities. -/
def Marks (flags : EntityFlags) (c : Char) : Prop :=
  c = '&' ∨ c = '<' ∨ c = '>' ∨ c = '"' ∧ flags ≠ .noQuotes ∨ c = '\'' ∧ flags = .quotes

/-- A character is written as itself, or else as its entity. -/
theorem escapeChar_cases (flags : EntityFlags) (c : Char) :
    ¬Marks flags c ∧ escapeChar flags c = [c] ∨
      Marks flags c ∧ (escapeChar flags c, c) ∈ entities := by
  unfold escapeChar Marks
  split <;> simp_all [entities]
  cases flags <;> simp_all

theorem exists_tail_of_mem_entities {name : List Char} {c : Char} (listed : (name, c) ∈ entities) :
    ∃ tail, name = '&' :: tail := by
  have all : ∀ entity ∈ entities, entity.1.head? = some '&' := by decide +kernel
  obtain ⟨tail, same⟩ := List.head?_eq_some_iff.1 (all _ listed)
  exact ⟨tail, same⟩

theorem not_mem_entities_tail {name : List Char} {c d : Char} (listed : (name, c) ∈ entities)
    (marked : Marks .quotes d) : d ∉ name.tail := by
  have all : (entities.all fun entity =>
      ['&', '<', '>', '"', '\''].all fun d => d ∉ entity.1.tail) = true := by
    decide +kernel
  have own := List.all_eq_true.1 (List.all_eq_true.1 all _ listed) d
  unfold Marks at marked
  exact of_decide_eq_true (own (by simpa using marked))

/-- No entity is the beginning of another one. -/
theorem eq_of_isPrefix {entity other : List Char × Char} (listed : entity ∈ entities)
    (listed' : other ∈ entities) (starts : entity.1 <+: other.1) : entity = other := by
  have all : ∀ entity ∈ entities, ∀ other ∈ entities, entity.1 <+: other.1 → entity = other := by
    decide +kernel
  exact all _ listed _ listed' starts

/-- An entity is recognized whatever follows it. -/
theorem entity?_append {name : List Char} {c : Char} (listed : (name, c) ∈ entities)
    (rest : List Char) : entity? (name ++ rest) = some (name, c) := by
  have own : name.isPrefixOf (name ++ rest) = true :=
    List.isPrefixOf_iff_prefix.2 (List.prefix_append name rest)
  unfold entity?
  cases found : entities.find? fun entity => entity.1.isPrefixOf (name ++ rest) with
  | none => exact absurd own (List.find?_eq_none.1 found _ listed)
  | some other =>
    have listed' := List.mem_of_find?_eq_some found
    have starts := List.find?_some found
    rw [List.isPrefixOf_iff_prefix] at starts
    rcases List.prefix_or_prefix_of_prefix starts (List.prefix_append name rest) with within | within
    · rw [eq_of_isPrefix listed' listed within]
    · rw [eq_of_isPrefix listed listed' within]

theorem entity?_cons {c : Char} (other : c ≠ '&') (rest : List Char) : entity? (c :: rest) = none := by
  unfold entity?
  rw [List.find?_eq_none]
  rintro ⟨name, meant⟩ listed starts
  obtain ⟨tail, rfl⟩ := exists_tail_of_mem_entities listed
  simp only [List.isPrefixOf, Bool.and_eq_true, beq_iff_eq] at starts
  exact other starts.1.symm

theorem decode_append (passed rest : List Char) : decode passed.length (passed ++ rest) = decode 0 rest := by
  induction passed with
  | nil => rfl
  | cons c passed ih => exact ih

theorem decode_escapeChar (flags : EntityFlags) (c : Char) (rest : List Char) :
    decode 0 (escapeChar flags c ++ rest) = c :: decode 0 rest := by
  rcases escapeChar_cases flags c with ⟨plain, same⟩ | ⟨-, listed⟩
  · have other : c ≠ '&' := fun same => plain (.inl same)
    rw [same, List.singleton_append, decode, entity?_cons other]
  · have found := entity?_append listed rest
    obtain ⟨tail, same⟩ := exists_tail_of_mem_entities listed
    rw [same, List.cons_append] at found ⊢
    rw [decode, found]
    exact congrArg _ (decode_append tail rest)

theorem unescape_escape (flags : EntityFlags) (text : String) : unescape (escape flags text) = text := by
  have decoded (text : List Char) : decode 0 (text.flatMap (escapeChar flags)) = text := by
    induction text with
    | nil => rfl
    | cons c text ih => rw [List.flatMap_cons, decode_escapeChar, ih]
  rw [unescape, toList_escape, decoded, String.ofList_toList]

theorem escape_injective (flags : EntityFlags) : Function.Injective (escape flags) :=
  Function.LeftInverse.injective (unescape_escape flags)

/-- Of the characters that are escaped only the first of an entity is left. -/
theorem not_mem_escape {flags : EntityFlags} {d : Char} (marked : Marks flags d) (other : d ≠ '&')
    (text : String) : d ∉ (escape flags text).toList := by
  rw [toList_escape, List.mem_flatMap]
  rintro ⟨c, -, inside⟩
  rcases escapeChar_cases flags c with ⟨plain, same⟩ | ⟨-, listed⟩
  · rw [same, List.mem_singleton] at inside
    exact plain (inside ▸ marked)
  · have any : Marks .quotes d := by
      unfold Marks at marked ⊢
      grind
    have outside := not_mem_entities_tail listed any
    obtain ⟨tail, same⟩ := exists_tail_of_mem_entities listed
    rw [same] at inside outside
    rcases List.mem_cons.1 inside with rfl | inside
    · exact other rfl
    · exact outside inside

/-- The first character of an entity is not found further on in it. -/
theorem eq_nil_of_mem_entities {before more : List Char} {c : Char}
    (listed : (before ++ '&' :: more, c) ∈ entities) : before = [] := by
  cases before with
  | nil => rfl
  | cons first before =>
    have outside := not_mem_entities_tail listed (.inl rfl)
    exact absurd (List.mem_append_right before List.mem_cons_self) outside

/-- Where an ampersand is left, an entity starts. -/
theorem exists_entity_of_ampersand (flags : EntityFlags) {text before after : List Char}
    (split : text.flatMap (escapeChar flags) = before ++ '&' :: after) :
    ∃ entity ∈ entities, entity.1 <+: '&' :: after := by
  induction text generalizing before with
  | nil => simp at split
  | cons c text ih =>
    rw [List.flatMap_cons] at split
    rcases List.append_eq_append_iff.1 split with ⟨more, -, later⟩ | ⟨more, here, later⟩
    · exact ih later
    · cases more with
      | nil =>
        have starts : text.flatMap (escapeChar flags) = [] ++ '&' :: after := later.symm
        exact ih starts
      | cons first more =>
        cases later
        rcases escapeChar_cases flags c with ⟨plain, same⟩ | ⟨-, listed⟩
        · have inside : '&' ∈ [c] := by
            rw [← same, here]
            exact List.mem_append_right before List.mem_cons_self
          exact absurd (.inl (List.mem_singleton.1 inside).symm) plain
        · rw [here] at listed
          have whole := eq_nil_of_mem_entities listed
          subst whole
          exact ⟨_, listed, List.prefix_append _ _⟩

/-- Escaping leaves no markup, and nothing is lost by it. -/
theorem escape_lossless (flags : EntityFlags) :
    (∀ text, '<' ∉ (escape flags text).toList ∧ '>' ∉ (escape flags text).toList ∧
      (flags ≠ .noQuotes → '"' ∉ (escape flags text).toList) ∧
      (flags = .quotes → '\'' ∉ (escape flags text).toList) ∧
      (∀ before after, (escape flags text).toList = before ++ '&' :: after →
        ∃ entity ∈ entities, entity.1 <+: '&' :: after) ∧
      unescape (escape flags text) = text) ∧
    Function.Injective (escape flags) ∧
    ∀ a b, escape flags (a ++ b) = escape flags a ++ escape flags b := by
  refine ⟨fun text => ⟨?_, ?_, ?_, ?_, ?_, unescape_escape flags text⟩, escape_injective flags,
    escape_append flags⟩
  · exact not_mem_escape (.inr (.inl rfl)) (by decide) text
  · exact not_mem_escape (.inr (.inr (.inl rfl))) (by decide) text
  · intro escaped
    exact not_mem_escape (.inr (.inr (.inr (.inl ⟨rfl, escaped⟩)))) (by decide) text
  · intro escaped
    exact not_mem_escape (.inr (.inr (.inr (.inr ⟨rfl, escaped⟩)))) (by decide) text
  · intro before after split
    rw [toList_escape] at split
    exact exists_entity_of_ampersand flags split

/-- A text that holds an entity, the beginning of one, and both quotes. -/
theorem escape_lossless_of_entities :
    escape .quotes "&lt;&am\"'" = "&amp;lt;&amp;am&quot;&#039;" ∧
      '"' ∉ (escape .quotes "&lt;&am\"'").toList ∧ '\'' ∉ (escape .quotes "&lt;&am\"'").toList ∧
      (∃ entity ∈ entities, entity.1 <+: '&' :: "amp;am&quot;&#039;".toList) ∧
      unescape (escape .quotes "&lt;&am\"'") = "&lt;&am\"'" := by
  obtain ⟨-, -, double, single, entity, read⟩ := (escape_lossless .quotes).1 "&lt;&am\"'"
  refine ⟨by decide +kernel, double (by decide), single rfl, ?_, read⟩
  exact entity "&amp;lt;".toList "amp;am&quot;&#039;".toList (by decide +kernel)

end Mustache.Html
