import Mustache.Context

/-! What is found in entries and in overlays. -/
namespace Mustache.Entries

variable {κ α : Type} [DecidableEq κ]

theorem isSome_get?_iff {key : κ} {entries : List (κ × α)} :
    (get? key entries).isSome = true ↔ key ∈ keys entries := by
  induction entries with
  | nil => simp [get?, keys]
  | cons entry rest ih =>
    obtain ⟨k, v⟩ := entry
    simp only [get?, keys, List.map_cons, List.mem_cons]
    by_cases same : k = key
    · simp [same]
    · rw [if_neg same, ih]
      simp [keys, Ne.symm same]

theorem mem_of_get? {key : κ} {value : α} {entries : List (κ × α)}
    (found : get? key entries = some value) : (key, value) ∈ entries := by
  induction entries with
  | nil => cases found
  | cons entry rest ih =>
    rw [get?] at found
    split at found
    · rename_i same
      cases found
      exact same ▸ List.mem_cons_self
    · exact List.mem_cons_of_mem entry (ih found)

theorem has_put_self (key : κ) (value : α) (entries : List (κ × α)) :
    has key (put key value entries) = true := by
  rw [has, get?_put, if_pos rfl]
  rfl

theorem has_put {key other : κ} {value : α} {entries : List (κ × α)}
    (there : has other entries = true) : has other (put key value entries) = true := by
  rw [has, get?_put]
  split
  · rfl
  · exact there

theorem get?_map {β : Type} (f : α → β) (key : κ) (entries : List (κ × α)) :
    get? key (entries.map fun entry => (entry.1, f entry.2)) = (get? key entries).map f := by
  induction entries with
  | nil => rfl
  | cons entry rest ih =>
    rw [List.map_cons, get?, get?]
    split
    · rfl
    · exact ih

theorem has_map {β : Type} (f : α → β) (key : κ) (entries : List (κ × α)) :
    has key (entries.map fun entry => (entry.1, f entry.2)) = has key entries := by
  rw [has, get?_map, Option.isSome_map, has]

theorem put_map {β : Type} (f : α → β) (key : κ) (value : α) (entries : List (κ × α)) :
    put key (f value) (entries.map fun entry => (entry.1, f entry.2)) =
      (put key value entries).map fun entry => (entry.1, f entry.2) := by
  induction entries with
  | nil => rfl
  | cons entry rest ih =>
    rw [List.map_cons, put, put]
    split
    · rfl
    · exact congrArg _ ih

theorem get?_filter (keep : κ → Bool) (key : κ) (entries : List (κ × α)) :
    get? key (entries.filter fun entry => keep entry.1) =
      if keep key then get? key entries else none := by
  induction entries with
  | nil => simp [get?]
  | cons entry rest ih =>
    obtain ⟨k, v⟩ := entry
    rw [List.filter_cons]
    by_cases same : k = key
    · subst same
      cases kept : keep k <;> simp_all [get?]
    · cases kept : keep k <;> simp_all [get?]

/-- Of entries with one key the last one is kept. -/
theorem get?_ofList (key : κ) (entries : List (κ × α)) :
    get? key (ofList entries) = (entries.reverse.find? fun entry => entry.1 = key).map (·.2) := by
  have general (new old : List (κ × α)) : get? key (putAll new old) =
      ((new.reverse.find? fun entry => entry.1 = key).map (·.2)).or (get? key old) := by
    induction new generalizing old with
    | nil => rfl
    | cons entry rest ih =>
      obtain ⟨k, v⟩ := entry
      have first : putAll ((k, v) :: rest) old = putAll rest (put k v old) := rfl
      rw [first, ih, get?_put, List.reverse_cons, List.find?_append]
      by_cases same : key = k
      · cases found : rest.reverse.find? fun entry => entry.1 = key <;> simp [same]
      · cases found : rest.reverse.find? fun entry => entry.1 = key <;> simp [same, Ne.symm same]
  rw [ofList, general]
  simp [get?]

end Mustache.Entries

namespace Mustache.Overlay

theorem find?_push (outer : Overlay) (given : List (String × Override)) (name : String) :
    (outer.push given).find? name = (outer.find? name <|> Entries.get? name given) := by
  have kept : Entries.get? name (given.filter fun entry => (outer.find? entry.1).isNone) =
      if (outer.find? name).isNone then Entries.get? name given else none :=
    Entries.get?_filter (fun name => (outer.find? name).isNone) name given
  have outside : List.findSome? (Entries.get? name) outer = outer.find? name := rfl
  rw [find?, push, List.findSome?_cons, kept, outside]
  cases outer.find? name with
  | some found => rfl
  | none => cases Entries.get? name given <;> rfl

end Mustache.Overlay
