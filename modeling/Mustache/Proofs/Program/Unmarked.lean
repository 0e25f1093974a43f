import Mustache.Proofs.Program.Kept

/-! Templates without markup characters of their own, in which every value is escaped. What they are
compiled to only ever writes such texts by itself. -/
namespace Mustache

open Markup

/-- No character of a text opens or closes markup. -/
structure Unmarked (text : String) : Prop where
  opening : '<' ∉ text.toList
  closing : '>' ∉ text.toList

namespace Unmarked

instance (text : String) : Decidable (Unmarked text) :=
  decidable_of_iff ('<' ∉ text.toList ∧ '>' ∉ text.toList)
    ⟨fun clean => ⟨clean.1, clean.2⟩, fun clean => ⟨clean.opening, clean.closing⟩⟩

theorem empty : Unmarked "" := ⟨by decide, by decide⟩

theorem append {a b : String} (first : Unmarked a) (second : Unmarked b) : Unmarked (a ++ b) := by
  constructor
  · rw [String.toList_append, List.mem_append]
    exact fun member => member.elim first.opening second.opening
  · rw [String.toList_append, List.mem_append]
    exact fun member => member.elim first.closing second.closing

theorem escape (flags : EntityFlags) (text : String) : Unmarked (Html.escape flags text) := by
  have clean (c : Char) : '<' ∉ Html.escapeChar flags c ∧ '>' ∉ Html.escapeChar flags c := by
    unfold Html.escapeChar
    split
    all_goals try decide
    · rename_i opening closing _ _ _
      simp only [List.mem_singleton]
      exact ⟨fun same => opening same.symm, fun same => closing same.symm⟩
  constructor
  · rw [Html.toList_escape, List.mem_flatMap]
    rintro ⟨c, -, member⟩
    exact (clean c).1 member
  · rw [Html.toList_escape, List.mem_flatMap]
    rintro ⟨c, -, member⟩
    exact (clean c).2 member

/-- Indents are made of margins. -/
theorem of_margin {text : String} (margin : text.toList.all isMargin = true) : Unmarked text := by
  rw [List.all_eq_true] at margin
  constructor
  · intro member
    exact absurd (margin _ member) (by decide)
  · intro member
    exact absurd (margin _ member) (by decide)

end Unmarked

namespace Markup

theorem join_margin {texts : List String} (margins : ∀ text ∈ texts, text.toList.all isMargin = true) :
    (String.join texts).toList.all isMargin = true := by
  rw [String.toList_join, List.all_flatMap, List.all_eq_true]
  exact margins

theorem indent_of_mem_tidy {tokens : List Token} (raw : ∀ t ∈ tokens, t.Raw) {t : Token}
    (member : t ∈ tidy tokens) : t.indent.toList.all isMargin = true := by
  obtain ⟨line, among, within⟩ := List.mem_flatMap.1 member
  have kept : t ∈ line → t.indent.toList.all isMargin = true := by
    intro here
    have whole := flatten_lines tokens
    rw [(raw t (by rw [← whole]; exact List.mem_flatten.2 ⟨line, among, here⟩)).indent]
    rfl
  unfold tidyLine at within
  split at within
  · rename_i tag single
    split at within
    · rename_i alone
      rw [List.mem_singleton.1 within]
      rw [Bool.and_eq_true, List.all_eq_true] at alone
      unfold Token.alone
      dsimp only
      split
      · refine join_margin ?_
        intro text listed
        obtain ⟨s, taken, rfl⟩ := List.mem_map.1 listed
        refine alone.2 s (List.mem_filter.2 ⟨List.takeWhile_subset _ taken, ?_⟩)
        exact List.all_eq_true.1 List.all_takeWhile s taken
      · rfl
    · exact kept within
  · exact kept within

/-- A token that is no unescaped tag, and has no markup characters of its own. -/
structure Token.Unmarked (t : Token) : Prop where
  escapes : t.kind ≠ .unescaped
  content : t.kind = .text → Mustache.Unmarked t.content
  indent : Mustache.Unmarked t.indent

/-- A source without markup characters in its texts and without unescaped tags. -/
def Unmarked (set : Pragmas) (source : String) : Prop :=
  ∀ tokens, tokenize set source = .ok tokens →
    ∀ t ∈ tokens, t.kind ≠ .unescaped ∧ (t.kind = .text → Mustache.Unmarked t.content)

instance (set : Pragmas) (source : String) : Decidable (Unmarked set source) :=
  match same : tokenize set source with
  | .ok tokens => decidable_of_iff (∀ t ∈ tokens, t.kind ≠ .unescaped ∧
      (t.kind = .text → Mustache.Unmarked t.content)) (by simp [Unmarked, same])
  | .error _ => isTrue (by simp [Unmarked, same])

theorem Unmarked.nests {set : Pragmas} {source : String} {tree : List Node}
    (unmarked : Unmarked set source) (parsed : parse set source = .ok tree) :
    ∃ tokens, Nests false set tokens tree ∧ ∀ t ∈ tokens, t.Unmarked := by
  obtain ⟨raw, scanned, nests⟩ := read_of_parse parsed
  refine ⟨_, nests, ?_⟩
  intro t member
  obtain ⟨escapes, content⟩ := unmarked _ scanned.tokenize_eq t member
  exact ⟨escapes, content, .of_margin (indent_of_mem_tidy (fun _ => scanned.raw) member)⟩

end Markup

/-- An instruction that by itself writes no markup characters, and emits only what is escaped. -/
def Instr.Unmarked : Instr → Prop
  | .text content => Mustache.Unmarked content
  | .emit isEscaped _ => isEscaped = true
  | .partialCall _ indent | .parentCall _ indent _ => Mustache.Unmarked indent
  | _ => True

structure Program.Unmarked (program : Program) : Prop where
  instrs : ∀ instr ∈ program.instrs, instr.Unmarked
  sections : ∀ key sec, Entries.get? key program.sections = some sec → ∀ instr ∈ sec.instrs, instr.Unmarked
  blocks : ∀ key instrs, Entries.get? key program.blocks = some instrs → ∀ instr ∈ instrs, instr.Unmarked

theorem Instr.mute_unmarked : Mute Instr.Unmarked :=
  ⟨fun _ => trivial, fun _ => trivial, fun _ _ => trivial, fun _ => trivial⟩

theorem Markup.Token.Unmarked.gives {t : Token} (unmarked : t.Unmarked) : t.Gives Instr.Unmarked where
  text := unmarked.content
  emit := fun kind => decide_eq_true (kind.resolve_right unmarked.escapes)
  partialCall := unmarked.indent
  parentCall := fun _ _ => unmarked.indent
  lookup := fun _ _ => trivial
  resolve := trivial
  apply := fun _ _ => trivial

theorem Program.unmarked_of_compile {dialect : Dialect} {key : Key} {source : String} {program : Program}
    (unmarked : Markup.Unmarked dialect.pragmas source)
    (compiled : Program.compile dialect key source = .ok program) : program.Unmarked := by
  obtain ⟨tree, parsed, rfl⟩ := exists_tree_of_compile compiled
  obtain ⟨tokens, nests, clean⟩ := unmarked.nests parsed
  have only : (Program.ofNodes dialect key source tree).Only Instr.Unmarked :=
    .of_nests Instr.mute_unmarked nests fun t member => (clean t member).gives
  exact ⟨only.instrs, only.sections, only.blocks⟩

end Mustache
