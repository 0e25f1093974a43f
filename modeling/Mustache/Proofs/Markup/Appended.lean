import Mustache.Proofs.Markup.Grammar
import Mustache.Proofs.Program.Locality

/-! Sources one after another. Where the first ends with a line of its own, outside all tags, the
second is read as if it were alone: their tokens, and the trees of these, follow one another. -/
namespace Mustache.Markup

/-! ### Text -/

theorem newline_not_mem_opening (d : Delimiters) : '\n' ∉ d.opening := by
  intro member
  have valid := d.opening_valid
  unfold isDelimiter at valid
  rw [Bool.and_eq_true, List.all_eq_true] at valid
  exact absurd (valid.2 _ member) (by decide)

theorem linesFrom_append (delims : Delimiters) (start : Nat) (line text more : List Char)
    (ended : text.getLast? = some '\n') :
    linesFrom delims start line (text ++ more) = linesFrom delims start line text ++
      linesFrom delims (start + Text.byteSize (line ++ text)) [] more := by
  induction text generalizing start line with
  | nil => cases ended
  | cons c text ih =>
    rw [List.cons_append, linesFrom, linesFrom]
    cases text with
    | nil =>
      obtain rfl : c = '\n' := by simpa using ended
      have size : Text.byteSize ('\n' :: line) = Text.byteSize (line ++ ['\n']) := by
        simp only [Text.byteSize_append, Text.byteSize_cons, Text.byteSize_nil]
        omega
      have alone : linesFrom delims (start + Text.byteSize ('\n' :: line)) [] [] = [] := rfl
      rw [if_pos rfl, alone, if_pos rfl, List.nil_append, size, List.singleton_append]
    | cons d text =>
      have ended' : (d :: text).getLast? = some '\n' := ended
      split
      · rw [ih _ _ ended', List.cons_append]
        congr 3
        simp only [Text.byteSize_append, Text.byteSize_cons, Text.byteSize_nil]
        omega
      · rw [ih _ _ ended']
        congr 2
        simp only [Text.byteSize_append, Text.byteSize_cons]
        omega

theorem textTokens_append (delims : Delimiters) (start : Nat) (text more : List Char)
    (ended : ∀ c ∈ text.getLast?, c = '\n') :
    textTokens delims start (text ++ more) =
      textTokens delims start text ++ textTokens delims (start + Text.byteSize text) more := by
  cases last : text.getLast? with
  | none =>
    obtain rfl := List.getLast?_eq_none_iff.1 last
    rfl
  | some c =>
    obtain rfl := ended c last
    exact linesFrom_append delims start [] text more last

theorem ended_of_linesFrom {delims : Delimiters} {start : Nat} {line rest : List Char}
    (ended : ∀ t ∈ (linesFrom delims start line rest).getLast?, t.endsLine = true) :
    ∀ c ∈ (line.reverse ++ rest).getLast?, c = '\n' := by
  induction rest generalizing start line with
  | nil =>
    intro c last
    rw [List.append_nil] at last
    rw [linesFrom] at ended
    split at ended
    · rename_i empty
      rw [List.isEmpty_iff.1 empty] at last
      cases last
    · have closes := ended _ rfl
      simp only [Token.endsLine, Token.isText, Bool.and_eq_true, beq_iff_eq, List.getLast_singleton,
        String.toList_ofList] at closes
      exact Option.some.inj (last.symm.trans closes.2)
  | cons d rest ih =>
    rw [linesFrom] at ended
    split at ended
    · rename_i newline
      cases rest with
      | nil =>
        intro c last
        rw [newline, List.getLast?_concat] at last
        exact (Option.some.inj last).symm
      | cons e rest =>
        have whole : (line.reverse ++ d :: e :: rest).getLast? = ([].reverse ++ (e :: rest)).getLast? := by
          simp [List.getLast?_cons]
        rw [whole]
        apply ih
        intro t last
        apply ended
        rw [← List.singleton_append, List.getLast?_append, Option.mem_def.1 last]
        rfl
    · have moved := ih ended
      rwa [List.reverse_cons, List.append_assoc, List.singleton_append] at moved

/-! ### Tokens -/

/-- The mode that some tokens leave. -/
def Mode.past (mode : Mode) (tokens : List Token) : Mode :=
  ⟨tokens.foldl (fun d t => t.leaves d) mode.delims,
    mode.blocks || decide (Pragma.blocks ∈ pragmasIn tokens)⟩

namespace Mode

variable (mode : Mode)

theorem past_append (first second : List Token) :
    mode.past (first ++ second) = (mode.past first).past second := by
  simp only [past, List.foldl_append, pragmasIn_append, List.mem_append, Bool.decide_or, Bool.or_assoc]

/-- Most tags leave the mode as it is. -/
theorem past_of_steady {tokens : List Token}
    (steady : ∀ t ∈ tokens, t.kind ≠ .delimiters ∧ t.kind ≠ .pragma) : mode.past tokens = mode := by
  induction tokens generalizing mode with
  | nil => simp [past, pragmasIn]
  | cons t rest ih =>
    obtain ⟨⟨notChange, notPragma⟩, later⟩ := List.forall_mem_cons.1 steady
    have first : mode.past [t] = mode := by
      simp [past, Token.leaves_of_ne notChange, Token.switched?_of_ne notPragma, pragmasIn]
    rw [← List.singleton_append, past_append, first]
    exact ih mode later

theorem past_textTokens (delims : Delimiters) (start : Nat) (text : List Char) :
    mode.past (textTokens delims start text) = mode := by
  refine mode.past_of_steady fun t member => ?_
  rw [(textTokens_text member).1]
  decide

theorem past_of_scanTag {mode : Mode} {start : Nat} {after : List Char} {t : ScannedTag}
    (scanned : scanTag mode start after = .ok t) : t.mode = mode.past [t.token] := by
  obtain ⟨read, tag⟩ := tagRead_scanTag scanned
  obtain ⟨kind, content, read', rest, later, form, made⟩ := scanTag_eq_ok_iff.1 scanned
  have delims : t.token.leaves mode.delims = t.mode.delims := by
    subst made
    exact form.leaves _
  have blocks := tag.blocks
  have switched : decide (Pragma.blocks ∈ pragmasIn [t.token]) =
      decide (t.token.switched? = some .blocks) := by
    simp [pragmasIn]
  have whole : t.mode = ⟨t.mode.delims, t.mode.blocks⟩ := rfl
  rw [whole, blocks, ← switched, ← delims]
  rfl

end Mode

/-- After complete lines a source is read in the mode that they leave. -/
theorem Scanned.append {mode : Mode} {start : Nat} {first second : List Char}
    {tokens others : List Token} (scanned : Scanned mode start first tokens)
    (ended : ∀ t ∈ tokens.getLast?, t.endsLine = true)
    (more : Scanned (mode.past tokens) (start + Text.byteSize first) second others) :
    Scanned mode start (first ++ second) (tokens ++ others) := by
  induction scanned with
  | text mode start source missed =>
    -- No delimiter reaches over the line feed, so that the first tag after it is the second source's own.
    have newline : ∀ c ∈ source.getLast?, c = '\n' := ended_of_linesFrom ended
    have cut : Text.cut? mode.delims.opening (source ++ second) = _ :=
      Text.cut?_append_of_missed missed (fun c last => by
        rw [newline c last]
        exact newline_not_mem_opening mode.delims) second
    rw [mode.past_textTokens] at more
    generalize place : start + Text.byteSize source = start' at more
    cases more with
    | text _ _ _ missed' =>
      rw [← place, ← textTokens_append _ _ _ _ newline]
      exact .text mode start _ (by rw [cut, missed']; rfl)
    | tag _ _ _ before after t tokens' cut' scanned' more =>
      rw [cut', Option.map_some] at cut
      rw [← place, ← List.append_assoc, ← textTokens_append _ _ _ _ newline]
      refine .tag mode start _ _ after t tokens' cut ?_ more
      rwa [Text.byteSize_append, ← Nat.add_assoc, place]
  | tag mode start source before after t tokens cut scanned rest ih =>
    obtain ⟨read, tag⟩ := tagRead_scanTag scanned
    have stop : t.token.span.stop + Text.byteSize t.rest = start + Text.byteSize source := by
      rw [tag.span, Text.eq_append_of_cut? cut, tag.whole]
      simp only [Text.byteSize_append]
      omega
    have later := ih
      (fun u last => ended u (by
        rw [List.append_cons, List.getLast?_append, Option.mem_def.1 last]
        rfl))
      (by
        rw [← List.singleton_append, mode.past_append, mode.past_textTokens, Mode.past_append,
          ← Mode.past_of_scanTag scanned] at more
        rwa [stop])
    have again := tag.anywhere (start + Text.byteSize before) (t.rest ++ second)
    rw [← tag.span, ← List.append_assoc, ← tag.whole] at again
    have cut' := Text.cut?_append_of_cut? cut (after ++ second)
    rw [← List.append_assoc, ← Text.eq_append_of_cut? cut] at cut'
    rw [List.append_assoc]
    exact .tag mode start _ before (after ++ second) ⟨t.token, t.rest ++ second, t.mode⟩ _ cut' again later

/-- Lines that are complete are grouped by themselves. -/
theorem exists_lines_append {tokens : List Token} (ended : ∀ t ∈ tokens.getLast?, t.endsLine = true) :
    ∃ groups, lines tokens = groups ++ [[]] ∧ ∀ more, lines (tokens ++ more) = groups ++ lines more := by
  induction tokens with
  | nil => exact ⟨[], rfl, fun more => rfl⟩
  | cons t rest ih =>
    have ended' : ∀ u ∈ rest.getLast?, u.endsLine = true := by
      intro u last
      apply ended
      rw [← List.singleton_append, List.getLast?_append, Option.mem_def.1 last]
      rfl
    obtain ⟨groups, whole, append⟩ := ih ended'
    cases ends : t.endsLine with
    | true =>
      refine ⟨[t] :: groups, by rw [lines, if_pos ends, whole]; rfl, ?_⟩
      intro more
      rw [List.cons_append, lines, if_pos ends, append]
      rfl
    | false =>
      have open' : ¬ t.endsLine = true := by simp [ends]
      cases groups with
      | nil =>
        have empty : rest = [] := by
          rw [← flatten_lines rest, whole]
          rfl
        rw [empty] at ended
        exact absurd (ended t rfl) open'
      | cons line groups =>
        refine ⟨(t :: line) :: groups, by rw [lines, if_neg open', whole]; rfl, ?_⟩
        intro more
        rw [List.cons_append, lines, if_neg open', append]
        rfl

theorem tidy_append {tokens : List Token} (ended : ∀ t ∈ tokens.getLast?, t.endsLine = true)
    (more : List Token) : tidy (tokens ++ more) = tidy tokens ++ tidy more := by
  obtain ⟨groups, whole, append⟩ := exists_lines_append ended
  have empty : tidyLine [] = [] := rfl
  simp only [tidy, whole, append, List.flatMap_append, List.flatMap_cons, List.flatMap_nil, empty,
    List.append_nil]

/-! ### Sources -/

/-- A source of whole lines: it is empty, or it ends with a line feed outside all tags. In it no tag
changes how those after it are read. -/
def Sealed (set : Pragmas) (source : String) : Prop :=
  ∀ tokens, scan set source = .ok tokens →
    (∀ t ∈ tokens, t.kind ≠ .delimiters ∧ t.kind ≠ .pragma) ∧
      ∀ t ∈ tokens.getLast?, t.endsLine = true

/-- A source in which no partial or parent is indented. -/
def Flush (set : Pragmas) (source : String) : Prop :=
  ∀ tokens, tokenize set source = .ok tokens →
    ∀ t ∈ tokens, t.kind.isIndented = true → t.indent = ""

instance (set : Pragmas) (source : String) : Decidable (Sealed set source) :=
  match same : scan set source with
  | .ok tokens => decidable_of_iff ((∀ t ∈ tokens, t.kind ≠ .delimiters ∧ t.kind ≠ .pragma) ∧
      ∀ t ∈ tokens.getLast?, t.endsLine = true) (by simp [Sealed, same])
  | .error _ => isTrue (by simp [Sealed, same])

instance (set : Pragmas) (source : String) : Decidable (Flush set source) :=
  match same : tokenize set source with
  | .ok tokens => decidable_of_iff (∀ t ∈ tokens, t.kind.isIndented = true → t.indent = "")
      (by simp [Flush, same])
  | .error _ => isTrue (by simp [Flush, same])

theorem indent_of_not_isIndented {tokens : List Token} (raw : ∀ t ∈ tokens, t.Raw) {t : Token}
    (member : t ∈ tidy tokens) (other : t.kind.isIndented = false) : t.indent = "" := by
  obtain ⟨line, among, within⟩ := List.mem_flatMap.1 member
  rcases tidyLine_cases line with kept | ⟨before, tag, after, -, -, -, removed⟩
  · rw [kept] at within
    apply (raw t _).indent
    rw [← flatten_lines tokens]
    exact List.mem_flatten.2 ⟨line, among, within⟩
  · rw [removed, List.mem_singleton] at within
    subst within
    exact if_neg (by rw [← Bool.not_eq_true] at other; exact other)

/-- Nodes of which none is indented. -/
def Node.Flush (nodes : List Node) : Prop := ∀ t ∈ Node.tokensOf nodes, t.indent = ""

variable {set : Pragmas} {first second : String} {tree more : List Node}

theorem Flush.nodes (flush : Flush set first) (parsed : parse set first = .ok tree) :
    Node.Flush tree := by
  obtain ⟨raw, scanned, nests⟩ := read_of_parse parsed
  intro t there
  have member := nests.tokensOf_sublist.subset there
  cases indented : t.kind.isIndented with
  | true => exact flush _ scanned.tokenize_eq t member indented
  | false => exact indent_of_not_isIndented (fun _ => scanned.raw) member indented

theorem parse_append («sealed» : Sealed set first) (parsed : parse set first = .ok tree)
    (parsed' : parse set second = .ok more) :
    parse set (first ++ second) =
        .ok (tree ++ Node.shiftAll (Text.byteSize first.toList) more) ∧
      Node.pragmasOf tree = [] := by
  obtain ⟨tokens, scanned, nests⟩ := read_of_parse parsed
  obtain ⟨others, scanned', nests'⟩ := read_of_parse parsed'
  obtain ⟨steady, ended⟩ := «sealed» tokens scanned.scanFrom_eq
  have whole := scanned.append ended (by
    rw [Mode.past_of_steady _ steady]
    exact scanned'.shift (Text.byteSize first.toList))
  have silent : pragmasIn (tidy tokens) = [] := by
    rw [tidy, pragmasIn_flatMap_tidyLine, flatten_lines, pragmasIn, List.filterMap_eq_nil_iff]
    exact fun t member => Token.switched?_of_ne (steady t member).2
  have nested : Nests false set (tidy tokens ++ _) (tree ++ _) := nests.append (by
    rw [silent]
    exact nests'.shift (Text.byteSize first.toList))
  refine ⟨?_, by rw [nests.pragmasOf_eq, silent]⟩
  rw [← tidy_shift, ← tidy_append ended] at nested
  rw [← String.toList_append] at whole
  rw [parse, whole.tokenize_eq]
  exact nested.nest_eq

end Mustache.Markup
