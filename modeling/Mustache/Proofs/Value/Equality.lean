import Mathlib.Data.List.Forall2
import Mathlib.Data.List.Perm.Subperm
import Mustache.Proofs.Entries
import Mustache.Proofs.Value.Parts

/-! Equality of values: symmetric and transitive, and reflexive but for what is not a number. It looks
at a map through its keys, so the order of the entries never counts. -/
namespace Mustache

namespace Binary64

variable {x y z : Binary64}

theorem equal_comm (x y : Binary64) : x.equal y = y.equal x := by
  unfold equal
  cases x <;> cases y <;> grind

theorem equal_trans (first : x.equal y = true) (second : y.equal z = true) : x.equal z = true := by
  unfold equal at *
  cases x <;> cases y <;> cases z <;> grind

theorem equal_self_iff : x.equal x = true ↔ x ≠ .nan := by
  cases x <;> simp [equal]

theorem isZero_of_equal (same : x.equal y = true) : x.isZero = y.isZero := by
  unfold equal isZero at *
  cases x <;> cases y <;> grind

end Binary64

namespace Entries

variable {κ α β : Type} [DecidableEq κ]

theorem get?_of_mem {key : κ} {value : α} {entries : List (κ × α)} (distinct : (keys entries).Nodup)
    (member : (key, value) ∈ entries) : get? key entries = some value := by
  induction entries with
  | nil => cases member
  | cons entry rest ih =>
    obtain ⟨outside, distinct⟩ := List.nodup_cons.1 distinct
    rw [get?]
    rcases List.mem_cons.1 member with rfl | member
    · exact if_pos rfl
    · have other : entry.1 ≠ key :=
        fun same => outside (List.mem_map.2 ⟨(key, value), member, same.symm⟩)
      rw [if_neg other]
      exact ih distinct member

omit [DecidableEq κ] in
/-- No more keys fit into as many entries. -/
theorem mem_keys_of_length {xs : List (κ × α)} {ys : List (κ × β)} (distinct : (keys xs).Nodup)
    (length : xs.length = ys.length) (inside : keys xs ⊆ keys ys) {key : κ} (member : key ∈ keys ys) :
    key ∈ keys xs := by
  have enough : (keys ys).length ≤ (keys xs).length := by simp [keys, length]
  have perm := (distinct.subperm inside).perm_of_length_le enough
  exact perm.mem_iff.2 member

end Entries

namespace Value

theorem equalItems_iff {xs ys : List Value} : equalItems xs ys = true ↔
    xs.length = ys.length ∧ ∀ i (h : i < xs.length) (h' : i < ys.length), xs[i].equal ys[i] = true := by
  have related : equalItems xs ys = true ↔ List.Forall₂ (fun x y => x.equal y = true) xs ys := by
    induction xs generalizing ys with
    | nil => cases ys <;> simp [equalItems]
    | cons x xs ih => cases ys <;> simp [equalItems, ih]
  rw [related, List.forall₂_iff_get]
  rfl

theorem equalEntries_iff {xs ys : List (String × Value)} : equalEntries xs ys = true ↔
    ∀ entry ∈ xs, ∃ w, Entries.get? entry.1 ys = some w ∧ entry.2.equal w = true := by
  induction xs with
  | nil => simp [equalEntries]
  | cons entry rest ih =>
    obtain ⟨name, v⟩ := entry
    rw [equalEntries, Bool.and_eq_true, ih, List.forall_mem_cons]
    apply and_congr_left'
    cases Entries.get? name ys <;> simp

theorem list_equal_iff {xs : List Value} {v : Value} : (list xs).equal v = true ↔
    ∃ ys, v = list ys ∧ xs.length = ys.length ∧
      ∀ i (h : i < xs.length) (h' : i < ys.length), xs[i].equal ys[i] = true := by
  cases v <;> simp [equal, equalItems_iff]

/-- Maps are equal if they have as many entries and each entry of one has its equal in the other. -/
theorem map_equal_iff {xs : List (String × Value)} {v : Value} : (map xs).equal v = true ↔
    ∃ ys, v = map ys ∧ xs.length = ys.length ∧
      ∀ entry ∈ xs, ∃ w, Entries.get? entry.1 ys = some w ∧ entry.2.equal w = true := by
  cases v <;> simp [equal, equalEntries_iff]

theorem equal_flat_comm {u : Value} (flat : ∀ items, u ≠ .list items) (flat' : ∀ entries, u ≠ .map entries)
    (v : Value) : u.equal v = v.equal u := by
  cases u <;> cases v <;> simp [equal, Binary64.equal_comm, Bool.beq_comm] at flat flat' ⊢

theorem equal_symm {u v : Value} (keyed : u.Keyed) (keyed' : v.Keyed) (same : u.equal v = true) :
    v.equal u = true := by
  induction u using byParts generalizing v with
  | list items ih =>
    obtain ⟨others, rfl, length, each⟩ := list_equal_iff.1 same
    rw [keyed_list_iff] at keyed keyed'
    refine list_equal_iff.2 ⟨items, rfl, length.symm, ?_⟩
    intro i h h'
    exact ih _ (List.getElem_mem h') (keyed _ (List.getElem_mem h')) (keyed' _ (List.getElem_mem h))
      (each i h' h)
  | map entries ih =>
    obtain ⟨others, rfl, length, each⟩ := map_equal_iff.1 same
    rw [keyed_map_iff] at keyed keyed'
    refine map_equal_iff.2 ⟨entries, rfl, length.symm, ?_⟩
    rintro ⟨name, w⟩ member
    have inside : Entries.keys entries ⊆ Entries.keys others := by
      intro name listed
      obtain ⟨entry, member, rfl⟩ := List.mem_map.1 listed
      obtain ⟨w, found, -⟩ := each entry member
      exact Entries.isSome_get?_iff.1 (by rw [found]; rfl)
    have listed := Entries.mem_keys_of_length keyed.1 length inside (List.mem_map_of_mem member)
    obtain ⟨⟨_, v⟩, there, rfl⟩ := List.mem_map.1 listed
    obtain ⟨w', found, equal⟩ := each _ there
    rw [Entries.get?_of_mem keyed'.1 member] at found
    cases found
    exact ⟨v, Entries.get?_of_mem keyed.1 there,
      ih _ there (keyed.2 _ there) (keyed'.2 _ member) equal⟩
  | _ =>
    rw [← equal_flat_comm (by simp) (by simp)]
    exact same

theorem equal_comm {u v : Value} (keyed : u.Keyed) (keyed' : v.Keyed) : u.equal v = v.equal u :=
  Bool.eq_iff_iff.2 ⟨equal_symm keyed keyed', equal_symm keyed' keyed⟩

theorem equal_trans {u v w : Value} (first : u.equal v = true) (second : v.equal w = true) :
    u.equal w = true := by
  induction u using byParts generalizing v w with
  | list items ih =>
    obtain ⟨others, rfl, length, each⟩ := list_equal_iff.1 first
    obtain ⟨more, rfl, length', each'⟩ := list_equal_iff.1 second
    refine list_equal_iff.2 ⟨more, rfl, length.trans length', ?_⟩
    intro i h h'
    have between : i < others.length := length ▸ h
    exact ih _ (List.getElem_mem h) (each i h between) (each' i between h')
  | map entries ih =>
    obtain ⟨others, rfl, length, each⟩ := map_equal_iff.1 first
    obtain ⟨more, rfl, length', each'⟩ := map_equal_iff.1 second
    refine map_equal_iff.2 ⟨more, rfl, length.trans length', ?_⟩
    intro entry member
    obtain ⟨v, found, equal⟩ := each entry member
    obtain ⟨w, found', equal'⟩ := each' _ (Entries.mem_of_get? found)
    exact ⟨w, found', ih entry member equal equal'⟩
  | float x =>
    cases v <;> cases w <;> simp only [equal, Bool.false_eq_true] at first second ⊢
    exact Binary64.equal_trans first second
  | _ =>
    cases v <;> cases w <;> simp_all [equal]

/-- What differs from itself is not a number, or holds something that is none. -/
theorem equal_self_iff {v : Value} (keyed : v.Keyed) :
    v.equal v = true ↔ ¬(float .nan).Within v := by
  induction v using byParts with
  | list items ih =>
    rw [keyed_list_iff] at keyed
    rw [list_equal_iff, within_list_iff (by simp)]
    have own (i : Nat) (h : i < items.length) := ih _ (List.getElem_mem h) (keyed _ (List.getElem_mem h))
    constructor
    · rintro ⟨_, ⟨⟩, -, each⟩ ⟨v, member, inside⟩
      obtain ⟨i, h, rfl⟩ := List.getElem_of_mem member
      exact (own i h).1 (each i h h) inside
    · intro clean
      refine ⟨items, rfl, rfl, fun i h _ => (own i h).2 ?_⟩
      exact fun inside => clean ⟨_, List.getElem_mem h, inside⟩
  | map entries ih =>
    rw [keyed_map_iff] at keyed
    rw [map_equal_iff, within_map_iff (by simp)]
    have own (entry) (member : entry ∈ entries) := ih entry member (keyed.2 entry member)
    constructor
    · rintro ⟨_, ⟨⟩, -, each⟩ ⟨entry, member, inside⟩
      obtain ⟨v, found, equal⟩ := each entry member
      rw [Entries.get?_of_mem keyed.1 member] at found
      cases found
      exact (own entry member).1 equal inside
    · intro clean
      refine ⟨entries, rfl, rfl, fun entry member => ⟨entry.2, Entries.get?_of_mem keyed.1 member, ?_⟩⟩
      exact (own entry member).2 fun inside => clean ⟨entry, member, inside⟩
  | float x =>
    rw [within_iff_eq (by simp) (by simp), equal, Binary64.equal_self_iff]
    simp [eq_comm]
  | _ =>
    rw [within_iff_eq (by simp) (by simp)]
    simp [equal]

theorem isEmpty_of_equal {u v : Value} (same : u.equal v = true) : u.isEmpty = v.isEmpty := by
  cases u with
  | list items =>
    obtain ⟨others, rfl, length, -⟩ := list_equal_iff.1 same
    cases items <;> cases others <;> simp_all [isEmpty]
  | map entries =>
    obtain ⟨others, rfl, length, -⟩ := map_equal_iff.1 same
    cases entries <;> cases others <;> simp_all [isEmpty]
  | float x =>
    cases v <;> simp only [equal, Bool.false_eq_true] at same
    exact Binary64.isZero_of_equal same
  | _ => cases v <;> simp_all [equal]

/-- The other value differs only in the order of entries of maps, at any depth. -/
inductive Reordered : Value → Value → Prop
  | refl (v : Value) : Reordered v v
  | trans (u v w : Value) (first : Reordered u v) (second : Reordered v w) : Reordered u w
  | perm (xs ys : List (String × Value)) (perm : xs.Perm ys) : Reordered (.map xs) (.map ys)
  | item (before : List Value) (v w : Value) (after : List Value) (inner : Reordered v w) :
      Reordered (.list (before ++ v :: after)) (.list (before ++ w :: after))
  | entry (before : List (String × Value)) (name : String) (v w : Value)
      (after : List (String × Value)) (inner : Reordered v w) :
      Reordered (.map (before ++ (name, v) :: after)) (.map (before ++ (name, w) :: after))

theorem equalItems_congr {v w : Value} (same : ∀ u, v.equal u = w.equal u) (before after : List Value)
    (others : List Value) :
    equalItems (before ++ v :: after) others = equalItems (before ++ w :: after) others := by
  induction before generalizing others with
  | nil => cases others <;> simp [equalItems, same]
  | cons x before ih => cases others <;> simp [equalItems, ih]

theorem equalEntries_congr {v w : Value} (same : ∀ u, v.equal u = w.equal u) (name : String)
    (before after others : List (String × Value)) :
    equalEntries (before ++ (name, v) :: after) others =
      equalEntries (before ++ (name, w) :: after) others := by
  induction before with
  | nil => simp only [List.nil_append, equalEntries, same]
  | cons entry before ih => simp only [List.cons_append, equalEntries, ih]

theorem Reordered.equal_left {u v : Value} (reordered : u.Reordered v) (w : Value) :
    u.equal w = v.equal w := by
  induction reordered generalizing w with
  | refl v => rfl
  | trans _ _ _ _ _ ih ih' => exact (ih w).trans (ih' w)
  | perm xs ys perm =>
    rw [Bool.eq_iff_iff, map_equal_iff, map_equal_iff, perm.length_eq]
    simp only [perm.mem_iff]
  | item before v v' after _ ih =>
    cases w with
    | list others => exact equalItems_congr ih before after others
    | _ => rfl
  | entry before name v v' after _ ih =>
    cases w with
    | map others =>
      simp only [equal, equalEntries_congr ih name before after others, List.length_append,
        List.length_cons]
    | _ => rfl

theorem Reordered.keyed {u v : Value} (reordered : u.Reordered v) (keyed : u.Keyed) : v.Keyed := by
  induction reordered with
  | refl v => exact keyed
  | trans _ _ _ _ _ ih ih' => exact ih' (ih keyed)
  | perm xs ys perm =>
    rw [keyed_map_iff] at keyed ⊢
    exact ⟨(perm.map _).nodup_iff.1 keyed.1, fun entry member => keyed.2 entry (perm.mem_iff.2 member)⟩
  | item before v w after _ ih =>
    simp only [keyed_list_iff, List.forall_mem_append, List.forall_mem_cons] at keyed ⊢
    exact ⟨keyed.1, ih keyed.2.1, keyed.2.2⟩
  | entry before name v w after _ ih =>
    simp only [keyed_map_iff, List.forall_mem_append, List.forall_mem_cons] at keyed ⊢
    refine ⟨?_, keyed.2.1, ih keyed.2.2.1, keyed.2.2.2⟩
    simpa [Entries.keys] using keyed.1

theorem Reordered.equal {u u' v v' : Value} (first : u.Reordered u') (second : v.Reordered v')
    (keyed : u.Keyed) (keyed' : v.Keyed) : u'.equal v' = u.equal v :=
  calc u'.equal v' = u.equal v' := (first.equal_left v').symm
    _ = v'.equal u := equal_comm keyed (second.keyed keyed')
    _ = v.equal u := (second.equal_left u).symm
    _ = u.equal v := equal_comm keyed' keyed

/-- Equality of values whose maps have each key once. -/
theorem equal_partial_equivalence {u v w : Value} (first : u.Keyed) (second : v.Keyed) :
    (u.equal v = true → v.equal u = true) ∧
    (u.equal v = true → v.equal w = true → u.equal w = true) ∧
    (v.equal v = true ↔ ¬(float .nan).Within v) ∧
    (∀ u' v', u.Reordered u' → v.Reordered v' → u'.equal v' = u.equal v) ∧
    (u.equal v = true → u.isEmpty = v.isEmpty) :=
  ⟨equal_symm first second, equal_trans, equal_self_iff second,
    fun _ _ moved moved' => moved.equal moved' first second, isEmpty_of_equal⟩

/-- Entries in another order, a zero of each sign, and a lambda that both share. -/
theorem equal_partial_equivalence_of_perm :
    ∃ u v w : Value, u.Keyed ∧ v.Keyed ∧ u.equal v = true ∧ v.equal w = true ∧ u.equal w = true ∧
      v.equal u = true ∧ ¬(float .nan).Within v ∧ v.equal v = true := by
  let zero (negative : Bool) : Value := .float (.finite ⟨negative, 0, 0⟩)
  let handle : Value := .lambda ⟨.filter, 7⟩
  let u : Value := .map (Entries.ofList [("a", zero false), ("b", .list [handle, .integer 1])])
  let v : Value := .map (Entries.ofList [("b", .list [handle, .integer 1]), ("a", zero true)])
  have keyed : (zero false).Keyed ∧ (zero true).Keyed ∧ (list [handle, .integer 1]).Keyed := by
    refine ⟨keyed_of_flat (by simp [zero]) (by simp [zero]),
      keyed_of_flat (by simp [zero]) (by simp [zero]), keyed_list_iff.2 ?_⟩
    simp [keyed_of_flat, handle]
  have first : u.Keyed := keyed_map_ofList (by simpa using ⟨keyed.1, keyed.2.2⟩)
  have second : v.Keyed := keyed_map_ofList (by simpa using ⟨keyed.2.2, keyed.2.1⟩)
  have same : u.equal v = true := by decide +kernel
  have alike : v.equal v = true := by decide +kernel
  obtain ⟨symm, trans, self, -, -⟩ := equal_partial_equivalence (w := v) first second
  exact ⟨u, v, v, first, second, same, alike, trans same alike, symm same, self.1 alike, alike⟩

end Value
end Mustache
