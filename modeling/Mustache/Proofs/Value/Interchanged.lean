import Mustache.Proofs.Value.Parts
import Mustache.Session

/-! What a value is after interchange: itself, but for floats that no document has. A value with a
lambda in it does not get through. -/
namespace Mustache

namespace Value

mutual

/-- Every float that is not finite made null, and nothing else changed. -/
def nulled : Value → Value
  | float x => if x.isFinite then .float x else .null
  | list items => .list (nulledItems items)
  | map entries => .map (nulledEntries entries)
  | v => v
  termination_by structural v => v

def nulledItems : List Value → List Value
  | [] => []
  | v :: rest => nulled v :: nulledItems rest
  termination_by structural items => items

def nulledEntries : List (String × Value) → List (String × Value)
  | [] => []
  | (name, v) :: rest => (name, nulled v) :: nulledEntries rest
  termination_by structural entries => entries

end

theorem nulledItems_eq (items : List Value) : nulledItems items = items.map nulled := by
  induction items with
  | nil => rfl
  | cons v rest ih => rw [nulledItems, ih, List.map_cons]

theorem nulledEntries_eq (entries : List (String × Value)) :
    nulledEntries entries = entries.map fun entry => (entry.1, entry.2.nulled) := by
  induction entries with
  | nil => rfl
  | cons entry rest ih => rw [nulledEntries, ih, List.map_cons]

/-- Whole numbers come back as they were, over all of their range. -/
theorem value_number (n : Int64) : Document.Number.value
    (if 0 ≤ n then .natural (UInt64.ofNat n.toNatClampNeg) else .negative n) = .integer n := by
  split
  · rename_i natural
    have inside : n.toNatClampNeg < 0x8000000000000000 := n.toNatClampNeg_lt
    have small : (UInt64.ofNat n.toNatClampNeg).toNat = n.toNatClampNeg := by
      rw [UInt64.toNat_ofNat']
      omega
    rw [Document.Number.value, small, Value.ofSize, if_pos inside, n.ofNat_toNatClampNeg natural]
  · rfl

theorem documents?_eq_none {v : Value} {items : List Value} (member : v ∈ items)
    (none : v.document? = none) : documents? items = .none := by
  induction items with
  | nil => cases member
  | cons first rest ih =>
    rw [documents?]
    rcases List.mem_cons.1 member with rfl | member
    · rw [none, Option.bind_none]
    · simp [ih member]

theorem documentEntries?_eq_none {name : String} {v : Value} {entries : List (String × Value)}
    (member : (name, v) ∈ entries) (none : v.document? = none) : documentEntries? entries = .none := by
  induction entries with
  | nil => cases member
  | cons first rest ih =>
    rw [documentEntries?]
    rcases List.mem_cons.1 member with rfl | member
    · rw [none, Option.bind_none]
    · simp [ih member]

/-- A lambda keeps all that it is in from having a document. -/
theorem document?_of_lambda {v : Value} {handle : Lambda} (inside : (lambda handle).Within v) :
    v.document? = none := by
  induction inside with
  | self => rfl
  | item v items member _ ih => rw [document?, documents?_eq_none member ih, Option.map_none]
  | entry name v entries member _ ih =>
    rw [document?, documentEntries?_eq_none member ih, Option.map_none]

theorem values_of_documents? {items : List Value}
    (each : ∀ v ∈ items, v.document?.map Document.value = some v.nulled) :
    (documents? items).map Document.values = some (nulledItems items) := by
  induction items with
  | nil => rfl
  | cons v rest ih =>
    rw [List.forall_mem_cons] at each
    obtain ⟨d, here, value⟩ := Option.map_eq_some_iff.1 each.1
    obtain ⟨ds, later, values⟩ := Option.map_eq_some_iff.1 (ih each.2)
    simp [documents?, here, later, Document.values, value, values, nulledItems]

theorem valueEntries_of_documentEntries? {entries : List (String × Value)}
    (each : ∀ entry ∈ entries, entry.2.document?.map Document.value = some entry.2.nulled) :
    (documentEntries? entries).map Document.valueEntries = some (nulledEntries entries) := by
  induction entries with
  | nil => rfl
  | cons entry rest ih =>
    rw [List.forall_mem_cons] at each
    obtain ⟨d, here, value⟩ := Option.map_eq_some_iff.1 each.1
    obtain ⟨ds, later, values⟩ := Option.map_eq_some_iff.1 (ih each.2)
    simp [documentEntries?, here, later, Document.valueEntries, value, values, nulledEntries]

theorem value_of_document? {v : Value} (free : ∀ handle, ¬(lambda handle).Within v) :
    v.document?.map Document.value = some v.nulled := by
  induction v using byParts with
  | list items ih =>
    have values := values_of_documents? fun v member =>
      ih v member fun handle inside => free handle (.item v items member inside)
    obtain ⟨ds, found, same⟩ := Option.map_eq_some_iff.1 values
    simp [document?, found, Document.value, same, nulled]
  | map entries ih =>
    have values := valueEntries_of_documentEntries? fun entry member =>
      ih entry member fun handle inside => free handle (.entry entry.1 entry.2 entries member inside)
    obtain ⟨ds, found, same⟩ := Option.map_eq_some_iff.1 values
    simp [document?, found, Document.value, same, nulled]
  | lambda handle => exact absurd .self (free handle)
  | integer n =>
    rw [document?, Option.map_some, Document.value, value_number]
    rfl
  | float x => cases x <;> rfl
  | _ => rfl

theorem interchanged_of_lambda {v : Value} {handle : Lambda} (inside : (lambda handle).Within v) :
    v.interchanged = .error { cause := .lambdaSerialized } := by
  rw [interchanged, document?_of_lambda inside]

theorem interchanged_of_free {v : Value} (free : ∀ handle, ¬(lambda handle).Within v) :
    v.interchanged = .ok v.nulled := by
  obtain ⟨d, found, same⟩ := Option.map_eq_some_iff.1 (value_of_document? free)
  rw [interchanged, found]
  exact congrArg Except.ok same

theorem nulled_eq_self {v : Value} (finite : ∀ x, (float x).Within v → x.isFinite = true) :
    v.nulled = v := by
  induction v using byParts with
  | list items ih =>
    rw [nulled, nulledItems_eq, List.map_congr_left, List.map_id']
    exact fun v member => ih v member fun x inside => finite x (.item v items member inside)
  | map entries ih =>
    rw [nulled, nulledEntries_eq, List.map_congr_left, List.map_id']
    intro entry member
    rw [ih entry member fun x inside => finite x (.entry entry.1 entry.2 entries member inside)]
  | float x => rw [nulled, if_pos (finite x .self)]
  | _ => rfl

/-- Nulls apart, nothing new gets in. -/
theorem eq_null_or_of_within_nulled {u v : Value} (flat : ∀ items, u ≠ .list items)
    (flat' : ∀ entries, u ≠ .map entries) (inside : u.Within v.nulled) :
    u = .null ∨ u.Within v ∧ ∀ x, u = .float x → x.isFinite = true := by
  induction v using byParts with
  | list items ih =>
    rw [nulled, nulledItems_eq] at inside
    cases inside with
    | self => exact absurd rfl (flat _)
    | item w _ member inside =>
      obtain ⟨v, there, rfl⟩ := List.mem_map.1 member
      exact (ih v there inside).imp_right fun ⟨own, finite⟩ => ⟨.item v items there own, finite⟩
  | map entries ih =>
    rw [nulled, nulledEntries_eq] at inside
    cases inside with
    | self => exact absurd rfl (flat' _)
    | entry name w _ member inside =>
      obtain ⟨⟨own, v⟩, there, same⟩ := List.mem_map.1 member
      cases same
      exact (ih _ there inside).imp_right fun ⟨held, finite⟩ => ⟨.entry own v entries there held, finite⟩
  | float x =>
    rw [nulled] at inside
    split at inside
    · cases inside
      refine .inr ⟨.self, ?_⟩
      rintro _ ⟨⟩
      assumption
    · cases inside
      exact .inl rfl
  | _ =>
    cases inside
    refine .inr ⟨.self, ?_⟩
    rintro _ ⟨⟩

theorem nulled_nulled (v : Value) : v.nulled.nulled = v.nulled := by
  apply nulled_eq_self
  intro x inside
  rcases eq_null_or_of_within_nulled (by simp) (by simp) inside with null | ⟨-, finite⟩
  · cases null
  · exact finite x rfl

theorem free_nulled {v : Value} (free : ∀ handle, ¬(lambda handle).Within v) (handle : Lambda) :
    ¬(lambda handle).Within v.nulled := by
  intro inside
  rcases eq_null_or_of_within_nulled (by simp) (by simp) inside with null | ⟨own, -⟩
  · cases null
  · exact free handle own

theorem free_of_interchanged {u v : Value} (arrived : v.interchanged = .ok u) (handle : Lambda) :
    ¬(lambda handle).Within v := by
  intro inside
  rw [interchanged_of_lambda inside] at arrived
  cases arrived

end Value

namespace Session

theorem present_congr (env : Render.Env) (found : Except Error Program) {input input' : Input}
    (same : input.value = input'.value) (answer : Program → String → Answer) :
    present env found input answer = present env found input' answer := by
  unfold present
  rw [same]

theorem ask_congr (s : Session) (id : String) {request request' : Request}
    (same : ∀ env, answer env request = answer env request') : s.ask id request = s.ask id request' := by
  unfold ask
  simp only [same]

end Session

namespace Value

/-- A value that holds a lambda does not get through, any other one does, with all that a document can
hold as it was. Templates are then rendered as without interchange. -/
theorem interchanged_lossless (v : Value) :
    ((∃ e, v.interchanged = .error e) ↔ ∃ handle, (lambda handle).Within v) ∧
    (∀ e, v.interchanged = .error e → e.kind = .serialize) ∧
    ((∀ handle, ¬(lambda handle).Within v) → v.interchanged = .ok v.nulled) ∧
    (∀ u, v.interchanged = .ok u → u.interchanged = .ok u) ∧
    ((∀ handle, ¬(lambda handle).Within v) → (∀ x, (float x).Within v → x.isFinite = true) →
      ∀ (s : Session) (id template : String),
        s.ask id (.render template ⟨v, true⟩) = s.ask id (.render template ⟨v, false⟩) ∧
        s.ask id (.compileRender template ⟨v, true⟩) = s.ask id (.compileRender template ⟨v, false⟩)) := by
  refine ⟨⟨?_, ?_⟩, ?_, interchanged_of_free, ?_, ?_⟩
  · rintro ⟨e, failed⟩
    refine Classical.byContradiction fun free => ?_
    rw [interchanged_of_free fun handle inside => free ⟨handle, inside⟩] at failed
    cases failed
  · rintro ⟨handle, inside⟩
    exact ⟨_, interchanged_of_lambda inside⟩
  · intro e failed
    unfold interchanged at failed
    split at failed <;> cases failed
    rfl
  · intro u arrived
    have free := free_of_interchanged arrived
    rw [interchanged_of_free free] at arrived
    cases arrived
    rw [interchanged_of_free (free_nulled free), nulled_nulled]
  · intro free finite s id template
    have same : Input.value ⟨v, true⟩ = Input.value ⟨v, false⟩ := by
      have arrived := interchanged_of_free free
      rw [nulled_eq_self finite] at arrived
      exact arrived
    constructor
    · apply Session.ask_congr
      intro env
      simp only [Session.answer, Session.present_congr env _ same]
    · apply Session.ask_congr
      intro env
      simp only [Session.answer, Session.present_congr env _ same]

/-- The least integer, a negative zero, and what is not a number; and a lambda among them. -/
theorem interchanged_lossless_of_numbers :
    let zero : Value := .float (.finite ⟨true, 0, 0⟩)
    let numbers (last : Value) : Value := .map [("b", .list [.integer Int64.minValue, zero]), ("a", last)]
    (numbers (.float .nan)).interchanged = .ok (numbers .null) ∧
      (numbers .null).interchanged = .ok (numbers .null) ∧
      (∃ e, (numbers (.lambda ⟨.filter, 7⟩)).interchanged = .error e ∧ e.kind = .serialize) ∧
      ∀ (s : Session) (id source : String), s.ask id (.compileRender source ⟨numbers .null, true⟩) =
        s.ask id (.compileRender source ⟨numbers .null, false⟩) := by
  intro zero numbers
  have leaves (last : Value) (flat : ∀ items, last ≠ .list items) (flat' : ∀ entries, last ≠ .map entries)
      (u : Value) (other : ∀ items, u ≠ .list items) (other' : ∀ entries, u ≠ .map entries) :
      u.Within (numbers last) ↔ u = .integer Int64.minValue ∨ u = zero ∨ u = last := by
    simp [numbers, within_map_iff, within_list_iff, within_iff_eq, other, other', flat, flat', zero,
      or_assoc]
  have nan := interchanged_lossless (numbers (.float .nan))
  have null := interchanged_lossless (numbers .null)
  have lambda := interchanged_lossless (numbers (.lambda ⟨.filter, 7⟩))
  have arrived : (numbers (.float .nan)).interchanged = .ok (numbers .null) := by
    refine nan.2.2.1 fun handle inside => ?_
    rw [leaves _ (by simp) (by simp) _ (by simp) (by simp)] at inside
    simp [zero] at inside
  refine ⟨arrived, nan.2.2.2.1 _ arrived, ?_, ?_⟩
  · have held : (Value.lambda ⟨.filter, 7⟩).Within (numbers (.lambda ⟨.filter, 7⟩)) :=
      (leaves _ (by simp) (by simp) _ (by simp) (by simp)).2 (by simp)
    obtain ⟨e, failed⟩ := lambda.1.2 ⟨⟨.filter, 7⟩, held⟩
    exact ⟨e, failed, lambda.2.1 e failed⟩
  · intro s id source
    refine (null.2.2.2.2 ?_ ?_ s id source).2
    · intro handle inside
      rw [leaves _ (by simp) (by simp) _ (by simp) (by simp)] at inside
      simp [zero] at inside
    · intro x inside
      rw [leaves _ (by simp) (by simp) _ (by simp) (by simp)] at inside
      simp [zero] at inside
      rw [inside]
      rfl

end Value
end Mustache
