/-! Entries in the order in which their keys were first put. A key that is put again keeps its
place and takes the new value. -/
namespace Mustache.Entries

variable {κ α : Type} [DecidableEq κ]

def put (key : κ) (value : α) : List (κ × α) → List (κ × α)
  | [] => [(key, value)]
  | (k, v) :: rest => if k = key then (key, value) :: rest else (k, v) :: put key value rest

def get? (key : κ) : List (κ × α) → Option α
  | [] => none
  | (k, v) :: rest => if k = key then some v else get? key rest

def has (key : κ) (entries : List (κ × α)) : Bool :=
  (get? key entries).isSome

def erase (key : κ) : List (κ × α) → List (κ × α)
  | [] => []
  | (k, v) :: rest => if k = key then erase key rest else (k, v) :: erase key rest

def putAll (new : List (κ × α)) (entries : List (κ × α)) : List (κ × α) :=
  new.foldl (fun entries (key, value) => put key value entries) entries

def ofList (entries : List (κ × α)) : List (κ × α) :=
  putAll entries []

def keys (entries : List (κ × α)) : List κ :=
  entries.map (·.1)

theorem get?_put (key other : κ) (value : α) (entries : List (κ × α)) :
    get? other (put key value entries) = if other = key then some value else get? other entries := by
  induction entries with
  | nil => grind [put, get?]
  | cons entry rest ih => grind [put, get?]

theorem get?_erase (key other : κ) (entries : List (κ × α)) :
    get? other (erase key entries) = if other = key then none else get? other entries := by
  induction entries with
  | nil => simp [erase, get?]
  | cons entry rest ih => grind [erase, get?]

theorem mem_keys_put {key other : κ} {value : α} {entries : List (κ × α)} :
    other ∈ keys (put key value entries) ↔ other = key ∨ other ∈ keys entries := by
  induction entries with
  | nil => simp [put, keys]
  | cons entry rest ih =>
    obtain ⟨k, v⟩ := entry
    simp only [keys] at ih
    simp only [put]
    split <;> simp_all [keys]
    grind

theorem nodup_keys_put {key : κ} {value : α} {entries : List (κ × α)}
    (distinct : (keys entries).Nodup) : (keys (put key value entries)).Nodup := by
  induction entries with
  | nil => simp [put, keys]
  | cons entry rest ih =>
    obtain ⟨k, v⟩ := entry
    simp only [put]
    split
    · simp_all [keys]
    · rename_i ne
      simp only [keys, List.map_cons, List.nodup_cons] at distinct ⊢
      exact ⟨fun h => (mem_keys_put.1 h).elim ne distinct.1, ih distinct.2⟩

end Mustache.Entries
