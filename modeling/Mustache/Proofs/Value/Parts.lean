import Mustache.Value

/-! The values that a value is made of, and values whose maps have each key once. -/
namespace Mustache.Value

/-- Values by the values in them. -/
@[elab_as_elim] theorem byParts {motive : Value → Prop} (null : motive .null)
    (bool : ∀ b, motive (.bool b)) (integer : ∀ n, motive (.integer n))
    (float : ∀ x, motive (.float x)) (string : ∀ s, motive (.string s))
    (list : ∀ items, (∀ v ∈ items, motive v) → motive (.list items))
    (map : ∀ entries, (∀ entry ∈ entries, motive entry.2) → motive (.map entries))
    (lambda : ∀ handle, motive (.lambda handle)) (v : Value) : motive v :=
  Value.rec (motive_1 := motive) (motive_2 := fun items => ∀ v ∈ items, motive v)
    (motive_3 := fun entries => ∀ entry ∈ entries, motive entry.2)
    (motive_4 := fun entry => motive entry.2)
    null bool integer float string list map lambda
    (fun _ member => absurd member List.not_mem_nil)
    (fun _ _ first rest => List.forall_mem_cons.2 ⟨first, rest⟩)
    (fun _ member => absurd member List.not_mem_nil)
    (fun _ _ first rest => List.forall_mem_cons.2 ⟨first, rest⟩)
    (fun _ _ own => own) v

/-- The value is another one, or one of its items or entries, at any depth. -/
inductive Within (u : Value) : Value → Prop
  | self : Within u u
  | item (v : Value) (items : List Value) (member : v ∈ items) (inside : Within u v) :
      Within u (.list items)
  | entry (name : String) (v : Value) (entries : List (String × Value))
      (member : (name, v) ∈ entries) (inside : Within u v) : Within u (.map entries)

theorem within_iff_eq {u v : Value} (flat : ∀ items, v ≠ .list items) (flat' : ∀ entries, v ≠ .map entries) :
    u.Within v ↔ u = v := by
  constructor
  · intro within
    cases within with
    | self => rfl
    | item v items => exact absurd rfl (flat items)
    | entry name v entries => exact absurd rfl (flat' entries)
  · rintro rfl
    exact .self

theorem within_list_iff {u : Value} {items : List Value} (other : u ≠ .list items) :
    u.Within (.list items) ↔ ∃ v ∈ items, u.Within v := by
  constructor
  · intro within
    cases within with
    | self => exact absurd rfl other
    | item v _ member inside => exact ⟨v, member, inside⟩
  · rintro ⟨v, member, inside⟩
    exact .item v items member inside

theorem within_map_iff {u : Value} {entries : List (String × Value)} (other : u ≠ .map entries) :
    u.Within (.map entries) ↔ ∃ entry ∈ entries, u.Within entry.2 := by
  constructor
  · intro within
    cases within with
    | self => exact absurd rfl other
    | entry name v _ member inside => exact ⟨(name, v), member, inside⟩
  · rintro ⟨⟨name, v⟩, member, inside⟩
    exact .entry name v entries member inside

/-- All maps in the value have each key once. -/
def Keyed (v : Value) : Prop :=
  ∀ entries, (map entries).Within v → (Entries.keys entries).Nodup

theorem keyed_of_flat {v : Value} (flat : ∀ items, v ≠ .list items) (flat' : ∀ entries, v ≠ .map entries) :
    v.Keyed := by
  intro entries within
  rw [within_iff_eq flat flat'] at within
  exact absurd within.symm (flat' entries)

theorem keyed_list_iff {items : List Value} : (list items).Keyed ↔ ∀ v ∈ items, v.Keyed := by
  constructor
  · exact fun keyed v member inner inside => keyed inner (.item v items member inside)
  · intro each inner within
    cases within with
    | item v _ member inside => exact each v member inner inside

theorem keyed_map_iff {entries : List (String × Value)} :
    (map entries).Keyed ↔ (Entries.keys entries).Nodup ∧ ∀ entry ∈ entries, entry.2.Keyed := by
  constructor
  · intro keyed
    exact ⟨keyed entries .self, fun entry member inner inside =>
      keyed inner (.entry entry.1 entry.2 entries member inside)⟩
  · rintro ⟨distinct, each⟩ inner within
    cases within with
    | self => exact distinct
    | entry name v _ member inside => exact each (name, v) member inner inside

theorem keyed_map_put {name : String} {v : Value} {entries : List (String × Value)}
    (keyed : (map entries).Keyed) (own : v.Keyed) : (map (Entries.put name v entries)).Keyed := by
  rw [keyed_map_iff] at keyed ⊢
  refine ⟨Entries.nodup_keys_put keyed.1, ?_⟩
  obtain ⟨-, each⟩ := keyed
  induction entries with
  | nil => simpa [Entries.put] using own
  | cons entry rest ih =>
    rw [Entries.put]
    rw [List.forall_mem_cons] at each
    split
    · exact List.forall_mem_cons.2 ⟨own, each.2⟩
    · exact List.forall_mem_cons.2 ⟨each.1, ih each.2⟩

/-- A map that is made of entries has each key once. -/
theorem keyed_map_ofList {entries : List (String × Value)} (each : ∀ entry ∈ entries, entry.2.Keyed) :
    (map (Entries.ofList entries)).Keyed := by
  have general (old : List (String × Value)) (keyed : (map old).Keyed) :
      (map (Entries.putAll entries old)).Keyed := by
    induction entries generalizing old with
    | nil => exact keyed
    | cons entry rest ih =>
      rw [List.forall_mem_cons] at each
      exact ih each.2 _ (keyed_map_put keyed each.1)
  exact general [] (keyed_map_iff.2 ⟨List.nodup_nil, fun _ member => absurd member List.not_mem_nil⟩)

end Mustache.Value
