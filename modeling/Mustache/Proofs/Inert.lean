import Mustache.Proofs.Entries
import Mustache.Render

/-! Data without lambdas. Whatever is looked up in it is such data again, and calls nothing. -/
namespace Mustache

inductive Value.Inert : Value → Prop
  | null : Inert .null
  | bool (b : Bool) : Inert (.bool b)
  | integer (n : Int64) : Inert (.integer n)
  | float (x : Binary64) : Inert (.float x)
  | string (s : String) : Inert (.string s)
  | list (items : List Value) (each : ∀ v ∈ items, Inert v) : Inert (.list items)
  | map (entries : List (String × Value)) (each : ∀ entry ∈ entries, Inert entry.2) :
      Inert (.map entries)

namespace Value.Inert

variable {v w : Value}

theorem callable?_eq_none (inert : v.Inert) (strict : Bool) : v.callable? strict = none := by
  cases found : v.callable? strict with
  | none => rfl
  | some handle =>
    exfalso
    unfold callable? at found
    split at found
    · cases inert
    · rename_i entries name
      split at found
      · cases found
      · split at found
        · rename_i handle' entry
          have within := Entries.mem_of_get? entry
          cases inert with
          | list _ each =>
            cases each _ List.mem_cons_self with
            | map _ each' => cases each' _ within
        · cases found
    · cases found

theorem index? (inert : v.Inert) {name : String} (found : v.index? name = some w) : w.Inert := by
  unfold Value.index? at found
  split at found
  · cases inert with
    | map entries each => exact each _ (Entries.mem_of_get? found)
  · cases inert with
    | list items each =>
      obtain ⟨i, -, there⟩ := Option.bind_eq_some_iff.1 found
      exact each _ (List.mem_of_getElem? there)
  · cases found

theorem path? (inert : v.Inert) {path : List String} (found : v.path? path = some w) : w.Inert := by
  induction path generalizing v with
  | nil =>
    cases found
    exact inert
  | cons name rest ih =>
    obtain ⟨u, first, later⟩ := Option.bind_eq_some_iff.1 found
    exact ih (inert.index? first) later

theorem frames (inert : v.Inert) (member : w ∈ v.frames) : w.Inert := by
  unfold Value.frames at member
  split at member
  · cases inert with
    | list items each => exact each w member
  · split at member
    · cases inert with
      | map entries each =>
        obtain ⟨entry, there, rfl⟩ := List.mem_map.1 member
        exact each entry there
    · rw [List.mem_singleton.1 member]
      exact inert
  · rw [List.mem_singleton.1 member]
    exact inert

end Value.Inert

def Frames.Inert (frames : Frames) : Prop := ∀ frame ∈ frames, Value.Inert frame

namespace Frames.Inert

variable {frames : Frames} {v : Value}

theorem followPath (inert : frames.Inert) {parts : List String}
    (found : frames.followPath parts = some v) : v.Inert := by
  induction frames with
  | nil => cases found
  | cons frame outer ih =>
    unfold Frames.followPath at found
    split at found
    · exact (inert frame List.mem_cons_self).path? found
    · exact ih (fun other member => inert other (List.mem_cons_of_mem frame member)) found

theorem find (inert : frames.Inert) (ref : Ref) : (frames.find ref).Inert := by
  unfold Frames.find
  cases found : frames.find? ref with
  | none => exact .null
  | some v =>
    show v.Inert
    unfold Frames.find? at found
    split at found
    · exact inert v (List.mem_of_head? found)
    · obtain ⟨frame, member, there⟩ := List.exists_of_findSome?_eq_some found
      exact (inert frame member).index? there
    · exact inert.followPath found
    · obtain ⟨frame, first, there⟩ := Option.bind_eq_some_iff.1 found
      exact (inert frame (List.mem_of_head? first)).path? there

theorem initial {helpers : List (String × Value)} {context : Value}
    (shared : ∀ entry ∈ helpers, entry.2.Inert) (inert : context.Inert) :
    Frames.Inert (Render.initialFrames helpers context) := by
  intro frame member
  unfold Render.initialFrames at member
  rcases List.mem_append.1 member with own | shelf
  · split at own
    · cases own
    · rw [List.mem_singleton.1 own]
      exact inert
  · split at shelf
    · cases shelf
    · rw [List.mem_singleton.1 shelf]
      exact .map helpers shared

end Frames.Inert
end Mustache
