import Mustache.Html
import Mustache.Proofs.Engine.Fetching
import Mustache.Proofs.Program.Deduplication

/-! The text that the key of a program is the digest of can be read back: it tells the source apart
and all of the engine that the program depends on. -/
namespace Mustache

open Markup

/-- The texts that are hashed when engines read sources. -/
def Hashed (known : Engine → String → Prop) (text : String) : Prop :=
  ∃ e source, known e source ∧ (text = e.identity source ∨
    ∃ tree, parse e.pragmas source = .ok tree ∧ Node.identities source e.pragmas tree text)

theorem comma_not_mem_of_isCharset {name : String} (valid : isCharset name = true) :
    ',' ∉ name.toList := by
  unfold isCharset at valid
  rw [List.any_eq_true] at valid
  obtain ⟨known, listed, same⟩ := valid
  rw [beq_iff_eq] at same
  intro member
  have upper : Char.toUpper ',' ∈ known.toList.map Char.toUpper := by
    rw [same]
    exact List.mem_map_of_mem member
  have silent : ∀ known ∈ charsets, Char.toUpper ',' ∉ known.toList.map Char.toUpper := by decide
  exact silent known listed upper

theorem EntityFlags.comma_not_mem_bits (flags : EntityFlags) : ',' ∉ (toString flags.bits).toList := by
  cases flags <;> decide

theorem EntityFlags.eq_of_bits {a b : EntityFlags} (same : toString a.bits = toString b.bits) : a = b := by
  cases a <;> cases b <;> first
    | rfl
    | exact absurd same (by decide)

theorem split_field {a b label rest rest' : List Char} (starts : label.head? = some ',')
    (first : ',' ∉ a) (first' : ',' ∉ b) (same : a ++ (label ++ rest) = b ++ (label ++ rest')) :
    a = b ∧ rest = rest' := by
  obtain ⟨tail, rfl⟩ := List.head?_eq_some_iff.1 starts
  obtain ⟨front, back⟩ := Text.split_at_first first first' same
  exact ⟨front, List.append_cancel_left back⟩

theorem Pragmas.comma_not_mem (set : Pragmas) :
    ',' ∉ (" ".intercalate (set.toList.map Pragma.name)).toList := by
  obtain ⟨blocks, filters, anchored⟩ := set
  cases blocks <;> cases filters <;> cases anchored <;> decide

theorem Pragmas.eq_of_names {a b : Pragmas}
    (same : " ".intercalate (a.toList.map Pragma.name) = " ".intercalate (b.toList.map Pragma.name)) :
    a = b := by
  obtain ⟨blocks, filters, anchored⟩ := a
  obtain ⟨blocks', filters', anchored'⟩ := b
  cases blocks <;> cases filters <;> cases anchored <;> cases blocks' <;> cases filters' <;>
    cases anchored' <;> first
    | rfl
    | exact absurd same (by decide)

namespace Engine

variable {e e' : Engine} {source source' : String}

theorem comma_not_mem_choice (b : Bool) {yes no : String} (left : ',' ∉ yes.toList)
    (right : ',' ∉ no.toList) : ',' ∉ (if b then yes else no).toList := by
  cases b
  · exact right
  · exact left

theorem choice_injective {a b : Bool} {yes no : String} (differ : yes ≠ no)
    (same : (if a then yes else no).toList = (if b then yes else no).toList) : a = b := by
  have texts := String.toList_injective same
  cases a <;> cases b <;> simp_all

/-- The engines differ in nothing that the keys of programs tell. -/
structure Agree (e e' : Engine) : Prop where
  escape : e.escape.isSome = e'.escape.isSome
  entityFlags : e.entityFlags = e'.entityFlags
  charset : e.charset = e'.charset
  strictCallables : e.strictCallables = e'.strictCallables
  pragmas : e.pragmas = e'.pragmas

theorem Agree.identity_eq (agree : e.Agree e') (source : String) :
    e.identity source = e'.identity source := by
  unfold identity
  rw [agree.escape, agree.entityFlags, agree.charset, agree.strictCallables, agree.pragmas]

theorem Agree.dialect_eq (agree : e.Agree e') : e.dialect = e'.dialect := by
  have mode : e.escapeMode = e'.escapeMode := by
    have escape := agree.escape
    unfold escapeMode
    rw [agree.entityFlags]
    cases first : e.escape <;> cases second : e'.escape <;> simp_all
  unfold dialect
  rw [agree.pragmas, mode, agree.strictCallables]

theorem agree_of_identity (named : isCharset e.charset = true) (named' : isCharset e'.charset = true)
    (same : e.identity source = e'.identity source') : e.Agree e' ∧ source = source' := by
  have whole := congrArg String.toList same
  unfold identity at whole
  simp only [String.toList_append, List.append_assoc, List.append_cancel_left_eq] at whole
  obtain ⟨escape, whole⟩ := split_field (by decide) (comma_not_mem_choice _ (by decide) (by decide))
    (comma_not_mem_choice _ (by decide) (by decide)) whole
  obtain ⟨flags, whole⟩ := split_field (by decide) (EntityFlags.comma_not_mem_bits _) (EntityFlags.comma_not_mem_bits _) whole
  obtain ⟨charset, whole⟩ := split_field (by decide) (comma_not_mem_of_isCharset named)
    (comma_not_mem_of_isCharset named') whole
  obtain ⟨strict, whole⟩ := split_field (by decide) (comma_not_mem_choice _ (by decide) (by decide))
    (comma_not_mem_choice _ (by decide) (by decide)) whole
  obtain ⟨pragmas, whole⟩ := split_field (by decide) (Pragmas.comma_not_mem _) (Pragmas.comma_not_mem _) whole
  refine ⟨?_, String.toList_injective whole⟩
  constructor
  · exact choice_injective (by decide) escape
  · exact EntityFlags.eq_of_bits (String.toList_injective flags)
  · exact String.toList_injective charset
  · exact choice_injective (by decide) strict
  · exact Pragmas.eq_of_names (String.toList_injective pragmas)

theorem identity_eq_iff (named : isCharset e.charset = true) (named' : isCharset e'.charset = true) :
    e.identity source = e'.identity source' ↔ e.Agree e' ∧ source = source' := by
  constructor
  · exact agree_of_identity named named'
  · rintro ⟨agree, rfl⟩
    exact agree.identity_eq source

theorem eq_of_identity (named : isCharset e.charset = true) (named' : isCharset e'.charset = true)
    (same : e.identity source = e'.identity source') : e.dialect = e'.dialect ∧ source = source' := by
  obtain ⟨agree, whole⟩ := agree_of_identity named named' same
  exact ⟨agree.dialect_eq, whole⟩

theorem source_eq_of_identity (same : e.identity source = e.identity source') : source = source' := by
  unfold identity at same
  rw [← String.toList_inj] at same ⊢
  simpa only [String.toList_append, List.append_assoc, List.append_cancel_left_eq] using same

end Engine

variable {known : Engine → String → Prop} {e : Engine} {source : String}

/-- The texts that the keys of programs are digests of. -/
def Keyed (known : Engine → String → Prop) (text : String) : Prop :=
  ∃ e source, known e source ∧ text = e.identity source

/-- Without a collision, a key tells which program is meant. -/
theorem apart_of_keyed (distinct : Hash.Distinct (Keyed known))
    (named : ∀ e source, known e source → isCharset e.charset = true) (there : known e source) :
    Apart known e source := by
  intro e' source' there' same
  have identity : e'.identity source' = e.identity source :=
    distinct _ _ ⟨e', source', there', rfl⟩ ⟨e, source, there, rfl⟩ same
  exact Engine.eq_of_identity (named e' source' there') (named e source there) identity

theorem apart_of_distinct (distinct : Hash.Distinct (Hashed known))
    (named : ∀ e source, known e source → isCharset e.charset = true) (there : known e source) :
    Apart known e source := by
  have hashed {text : String} : Keyed known text → Hashed known text := by
    rintro ⟨e, source, there, same⟩
    exact ⟨e, source, there, .inl same⟩
  exact apart_of_keyed (fun a b here there => distinct a b (hashed here) (hashed there)) named there

theorem distinct_of_known (distinct : Hash.Distinct (Hashed known)) (there : known e source)
    {tree : List Node} (parsed : parse e.pragmas source = .ok tree) :
    Hash.Distinct (Node.identities source e.pragmas tree) := by
  intro a b here here' same
  exact distinct a b ⟨e, source, there, .inr ⟨tree, parsed, here⟩⟩
    ⟨e, source, there, .inr ⟨tree, parsed, here'⟩⟩ same

end Mustache
