import Mustache.Proofs.Markup.Reading
import Mustache.Proofs.Text.Covered

/-! Scanning as a relation, one rule for the text at the end and one for a tag and the text before
it. What stands after a tag is scanned as a text of its own, and so is what stands before one. -/
namespace Mustache.Markup

/-! ### Tiles -/

/-- The spans of the tokens lie end to end over the text, none of them empty. -/
inductive Tiled : Nat → List Char → List Token → Prop
  | nil (start : Nat) : Tiled start [] []
  | cons (start : Nat) (part rest : List Char) (t : Token) (tokens : List Token)
      (nonempty : part ≠ []) (span : t.span = ⟨start, start + Text.byteSize part⟩)
      (tail : Tiled (start + Text.byteSize part) rest tokens) :
      Tiled start (part ++ rest) (t :: tokens)

namespace Tiled

variable {start : Nat} {text : List Char} {tokens : List Token}

theorem append {more : List Char} {others : List Token} (first : Tiled start text tokens)
    (second : Tiled (start + Text.byteSize text) more others) :
    Tiled start (text ++ more) (tokens ++ others) := by
  induction first with
  | nil => simpa using second
  | cons start part rest t tokens nonempty span _ ih =>
    rw [List.append_assoc, List.cons_append]
    refine .cons start part (rest ++ more) t (tokens ++ others) nonempty span (ih ?_)
    rwa [Text.byteSize_append, ← Nat.add_assoc] at second

theorem covers (tiled : Tiled start text tokens) {t : Token} (member : t ∈ tokens) :
    ∃ (span : Span) (part : List Char), part ≠ [] ∧ t.span = span.shift start ∧
      span.Covers text part := by
  induction tiled with
  | nil => cases member
  | cons start part rest first tokens nonempty span tail ih =>
    rcases List.mem_cons.1 member with rfl | later
    · refine ⟨⟨0, Text.byteSize part⟩, part, nonempty, ?_, [], rest, rfl, rfl, by simp⟩
      rw [span, Span.shift, Nat.zero_add, Nat.add_comm]
    · obtain ⟨span', part', nonempty', same, covered⟩ := ih later
      refine ⟨span'.shift (Text.byteSize part), part', nonempty', ?_, ?_⟩
      · rw [same]
        simp only [Span.shift, Span.mk.injEq]
        omega
      · simpa using covered.within part []

theorem start_le (tiled : Tiled start text tokens) {t : Token} (member : t ∈ tokens) :
    start ≤ t.span.start := by
  obtain ⟨span, part, -, same, -⟩ := tiled.covers member
  rw [same]
  exact Nat.le_add_left _ _

theorem ordered (tiled : Tiled start text tokens) :
    tokens.Pairwise fun s t => s.span.stop ≤ t.span.start := by
  induction tiled with
  | nil => exact .nil
  | cons start part rest t tokens nonempty span tail ih =>
    refine .cons ?_ ih
    intro later member
    rw [span]
    exact tail.start_le member

end Tiled

/-! ### Text -/

theorem tiled_linesFrom (delims : Delimiters) (start : Nat) (line rest : List Char) :
    Tiled start (line.reverse ++ rest) (linesFrom delims start line rest) := by
  induction rest generalizing start line with
  | nil =>
    rw [linesFrom, List.append_nil]
    cases line with
    | nil => exact .nil start
    | cons c line =>
      have size : Text.byteSize (c :: line).reverse = Text.byteSize (c :: line) := by
        rw [Text.byteSize_reverse]
      have last := Tiled.cons start (c :: line).reverse [] ⟨.text,
        ⟨start, start + Text.byteSize (c :: line)⟩, .ofList (c :: line).reverse, delims, "", false⟩
        [] (by simp) (by rw [size]) (.nil _)
      rwa [List.append_nil] at last
  | cons c rest ih =>
    rw [linesFrom]
    split
    · have size : Text.byteSize (c :: line).reverse = Text.byteSize (c :: line) := by
        rw [Text.byteSize_reverse]
      have more := ih (start + Text.byteSize (c :: line)) []
      rw [List.reverse_nil, List.nil_append] at more
      have first := Tiled.cons start (c :: line).reverse rest ⟨.text,
        ⟨start, start + Text.byteSize (c :: line)⟩, .ofList (c :: line).reverse, delims, "", false⟩
        (linesFrom delims (start + Text.byteSize (c :: line)) [] rest) (by simp) (by rw [size])
        (by rw [size]; exact more)
      have whole : (c :: line).reverse ++ rest = line.reverse ++ c :: rest := by simp
      rwa [whole] at first
    · have more := ih start (c :: line)
      rwa [List.reverse_cons, List.append_assoc, List.singleton_append] at more

theorem tiled_textTokens (delims : Delimiters) (start : Nat) (text : List Char) :
    Tiled start text (textTokens delims start text) :=
  tiled_linesFrom delims start [] text

theorem linesFrom_text {delims : Delimiters} {start : Nat} {line rest : List Char} {t : Token}
    (member : t ∈ linesFrom delims start line rest) : t.kind = .text ∧ t.Raw := by
  induction rest generalizing start line with
  | nil =>
    rw [linesFrom] at member
    split at member
    · cases member
    · rw [List.mem_singleton] at member
      subst member
      exact ⟨rfl, rfl, rfl⟩
  | cons c rest ih =>
    rw [linesFrom] at member
    split at member
    · rcases List.mem_cons.1 member with rfl | later
      · exact ⟨rfl, rfl, rfl⟩
      · exact ih later
    · exact ih member

theorem textTokens_text {delims : Delimiters} {start : Nat} {text : List Char} {t : Token}
    (member : t ∈ textTokens delims start text) : t.kind = .text ∧ t.Raw :=
  linesFrom_text member

theorem linesFrom_add (delims : Delimiters) (start offset : Nat) (line rest : List Char) :
    linesFrom delims (start + offset) line rest =
      (linesFrom delims start line rest).map (Token.shift offset) := by
  induction rest generalizing start line with
  | nil =>
    rw [linesFrom, linesFrom]
    split
    · rfl
    · simp [Token.shift, Span.shift, Nat.add_right_comm]
  | cons c rest ih =>
    rw [linesFrom, linesFrom]
    split
    · rw [Nat.add_right_comm, ih]
      simp [Token.shift, Span.shift]
    · exact ih start (c :: line)

theorem textTokens_add (delims : Delimiters) (start offset : Nat) (text : List Char) :
    textTokens delims (start + offset) text =
      (textTokens delims start text).map (Token.shift offset) :=
  linesFrom_add delims start offset [] text

theorem pragmasIn_textTokens (delims : Delimiters) (start : Nat) (text : List Char) :
    pragmasIn (textTokens delims start text) = [] := by
  rw [pragmasIn, List.filterMap_eq_nil_iff]
  intro t member
  rw [Token.switched?, (textTokens_text member).1]
  rfl

/-! ### The relation -/

inductive Scanned : Mode → Nat → List Char → List Token → Prop
  | text (mode : Mode) (start : Nat) (source : List Char)
      (missed : Text.cut? mode.delims.opening source = none) :
      Scanned mode start source (textTokens mode.delims start source)
  | tag (mode : Mode) (start : Nat) (source before after : List Char) (t : ScannedTag)
      (tokens : List Token) (cut : Text.cut? mode.delims.opening source = some (before, after))
      (scanned : scanTag mode (start + Text.byteSize before) after = .ok t)
      (more : Scanned t.mode t.token.span.stop t.rest tokens) :
      Scanned mode start source (textTokens mode.delims start before ++ t.token :: tokens)

theorem scanned_of_scanFrom {mode : Mode} {start : Nat} {source : List Char} {tokens : List Token}
    (scanned : scanFrom mode start source = .ok tokens) : Scanned mode start source tokens := by
  fun_induction scanFrom mode start source generalizing tokens with
  | case1 mode start source missed =>
    simp only [Except.ok.injEq] at scanned
    subst scanned
    exact .text mode start source missed
  | case2 => cases scanned
  | case3 => cases scanned
  | case4 mode start source before after cut tagStart t tag more rest =>
    rename_i ih
    simp only [Except.ok.injEq] at scanned
    subst scanned
    exact .tag mode start source before after t more cut tag (ih rest)

theorem Scanned.scanFrom_eq {mode : Mode} {start : Nat} {source : List Char} {tokens : List Token}
    (scanned : Scanned mode start source tokens) : scanFrom mode start source = .ok tokens := by
  induction scanned with
  | text mode start source missed =>
    rw [scanFrom]
    split
    · rfl
    · rename_i found
      rw [missed] at found
      cases found
  | tag mode start source before after t tokens cut scanned more ih =>
    rw [scanFrom]
    split
    · rename_i missed
      rw [cut] at missed
      cases missed
    · rename_i before' after' found
      rw [cut, Option.some.injEq, Prod.mk.injEq] at found
      obtain ⟨rfl, rfl⟩ := found
      dsimp only
      split
      · rename_i flaw failed
        rw [scanned] at failed
        cases failed
      · rename_i t' again
        rw [scanned, Except.ok.injEq] at again
        subst again
        rw [ih]

namespace Scanned

variable {mode : Mode} {start : Nat} {source : List Char} {tokens : List Token}

theorem tiled (scanned : Scanned mode start source tokens) : Tiled start source tokens := by
  induction scanned with
  | text mode start source missed => exact tiled_textTokens mode.delims start source
  | tag mode start source before after t tokens cut scanned more ih =>
    obtain ⟨read, tag⟩ := tagRead_scanTag scanned
    have whole : source = before ++ (mode.delims.opening ++ read ++ t.rest) := by
      rw [Text.eq_append_of_cut? cut, tag.whole]
      simp
    have stop : t.token.span.stop =
        start + Text.byteSize before + Text.byteSize (mode.delims.opening ++ read) := by
      rw [tag.span]
    rw [whole]
    refine (tiled_textTokens mode.delims start before).append (.cons _ _ _ _ _ ?_ tag.span ?_)
    · simp [mode.delims.opening_ne_nil]
    · rwa [← stop]

theorem raw (scanned : Scanned mode start source tokens) {t : Token} (member : t ∈ tokens) :
    t.Raw := by
  induction scanned with
  | text mode start source missed => exact (textTokens_text member).2
  | tag mode start source before after t' tokens cut scanned more ih =>
    obtain ⟨read, tag⟩ := tagRead_scanTag scanned
    rcases List.mem_append.1 member with text | rest
    · exact (textTokens_text text).2
    · rcases List.mem_cons.1 rest with rfl | later
      · exact tag.raw
      · exact ih later

theorem split_at_tag {texts rest before after : List Token} {t u : Token}
    (texts_kind : ∀ s ∈ texts, s.kind = .text) (notText : u.kind ≠ .text)
    (same : texts ++ t :: rest = before ++ u :: after) :
    (before = texts ∧ u = t ∧ after = rest) ∨
      ∃ middle, before = texts ++ t :: middle ∧ rest = middle ++ u :: after := by
  rcases List.append_eq_append_iff.1 same with ⟨middle, front, back⟩ | ⟨middle, front, back⟩
  · cases middle with
    | nil =>
      simp only [List.nil_append, List.cons.injEq] at back
      exact .inl ⟨by simpa using front, back.1.symm, back.2.symm⟩
    | cons m middle =>
      simp only [List.cons_append, List.cons.injEq] at back
      refine .inr ⟨middle, ?_, back.2⟩
      rw [front, ← back.1]
  · cases middle with
    | nil =>
      simp only [List.nil_append, List.cons.injEq] at back
      exact .inl ⟨by simpa using front.symm, back.1, back.2⟩
    | cons m middle =>
      simp only [List.cons_append, List.cons.injEq] at back
      exfalso
      apply notText
      rw [back.1]
      exact texts_kind m (by simp [front])

/-- What follows a tag is scanned as a text of its own, in the mode that the tags so far leave. -/
theorem after_tag (scanned : Scanned mode start source tokens) {set : Pragmas}
    (blocks : mode.blocks = set.blocks) {before after : List Token} {t : Token}
    (notText : t.kind ≠ .text) (same : tokens = before ++ t :: after) :
    ∃ (later : Mode) (front rest : List Char), source = front ++ rest ∧
      t.span.stop = start + Text.byteSize front ∧ Scanned later t.span.stop rest after ∧
      (t.kind ≠ .delimiters → later.delims = t.delims) ∧
      later.blocks = (set.insertAll (pragmasIn (before ++ [t]))).blocks := by
  induction scanned generalizing set before with
  | text mode start source missed =>
    exfalso
    apply notText
    exact (textTokens_text (by rw [same]; simp)).1
  | tag mode start source text rest t' tokens cut scanned more ih =>
    obtain ⟨read, tag⟩ := tagRead_scanTag scanned
    have whole : source = (text ++ mode.delims.opening ++ read) ++ t'.rest := by
      rw [Text.eq_append_of_cut? cut, tag.whole]
      simp
    have stop : t'.token.span.stop =
        start + Text.byteSize (text ++ mode.delims.opening ++ read) := by
      rw [tag.span]
      simp only [Text.byteSize_append]
      omega
    have kinds : ∀ s ∈ textTokens mode.delims start text, s.kind = .text :=
      fun s member => (textTokens_text member).1
    have next := tag.blocks_eq blocks
    rcases split_at_tag kinds notText same with ⟨rfl, rfl, rfl⟩ | ⟨middle, rfl, inner⟩
    · refine ⟨t'.mode, _, _, whole, stop, more, ?_, ?_⟩
      · intro other
        rw [tag.keeps other, tag.delims]
      · rw [pragmasIn_append, pragmasIn_textTokens, List.nil_append]
        exact next
    · obtain ⟨later, front, rest', whole', stop', scanned', delims, blocks'⟩ := ih next inner
      refine ⟨later, text ++ mode.delims.opening ++ read ++ front, rest', ?_, ?_, scanned', delims,
        ?_⟩
      · rw [whole, whole']
        simp
      · rw [stop', stop, Text.byteSize_append (text ++ mode.delims.opening ++ read), Nat.add_assoc]
      · have switched : pragmasIn (textTokens mode.delims start text ++ t'.token :: middle ++ [t]) =
            pragmasIn [t'.token] ++ pragmasIn (middle ++ [t]) := by
          rw [List.append_assoc, pragmasIn_append, pragmasIn_textTokens, List.nil_append,
            List.cons_append, ← List.singleton_append, pragmasIn_append]
        rw [blocks', switched, Pragmas.insertAll_append]

theorem before_tag (scanned : Scanned mode start source tokens) {before after : List Token}
    {t : Token} (notText : t.kind ≠ .text) (same : tokens = before ++ t :: after) :
    ∃ front rest : List Char, source = front ++ rest ∧
      t.span.start = start + Text.byteSize front ∧ Scanned mode start front before := by
  induction scanned generalizing before with
  | text mode start source missed =>
    exfalso
    apply notText
    exact (textTokens_text (by rw [same]; simp)).1
  | tag mode start source text rest t' tokens cut scanned more ih =>
    obtain ⟨read, tag⟩ := tagRead_scanTag scanned
    have kinds : ∀ s ∈ textTokens mode.delims start text, s.kind = .text :=
      fun s member => (textTokens_text member).1
    rcases split_at_tag kinds notText same with ⟨rfl, rfl, rfl⟩ | ⟨middle, rfl, inner⟩
    · refine ⟨text, mode.delims.opening ++ rest, ?_, by rw [tag.span], ?_⟩
      · rw [Text.eq_append_of_cut? cut, List.append_assoc]
      · exact .text mode start text (Text.cut?_before mode.delims.opening_ne_nil cut)
    · obtain ⟨front, rest', whole, place, scanned'⟩ := ih inner
      refine ⟨text ++ mode.delims.opening ++ (read ++ front), rest', ?_, ?_, ?_⟩
      · rw [Text.eq_append_of_cut? cut, tag.whole, whole]
        simp
      · rw [place, tag.span]
        simp only [Text.byteSize_append]
        omega
      · have again := tag.anywhere (start + Text.byteSize text) front
        rw [← tag.span] at again
        exact .tag mode start _ text (read ++ front) ⟨t'.token, front, t'.mode⟩ middle
          (Text.cut?_append_of_cut? cut _) again scanned'

theorem shift (offset : Nat) (scanned : Scanned mode start source tokens) :
    Scanned mode (start + offset) source (tokens.map (Token.shift offset)) := by
  induction scanned with
  | text mode start source missed =>
    rw [← textTokens_add]
    exact .text mode (start + offset) source missed
  | tag mode start source before after t tokens cut scanned more ih =>
    obtain ⟨read, tag⟩ := tagRead_scanTag scanned
    have again := tag.anywhere (start + offset + Text.byteSize before) t.rest
    rw [← tag.whole] at again
    have moved : (t.token.shift offset).span = ⟨start + offset + Text.byteSize before,
        start + offset + Text.byteSize before + Text.byteSize (mode.delims.opening ++ read)⟩ := by
      simp only [Token.shift, tag.span, Span.shift, Span.mk.injEq]
      omega
    have token : t.token.shift offset = { t.token with span := (t.token.shift offset).span } := rfl
    rw [← moved, ← token] at again
    rw [List.map_append, ← textTokens_add, List.map_cons]
    exact .tag mode (start + offset) source before after _ _ cut again ih

theorem unshift (offset : Nat) (scanned : Scanned mode (start + offset) source tokens) :
    ∃ tokens', tokens = tokens'.map (Token.shift offset) ∧ Scanned mode start source tokens' := by
  generalize place : start + offset = start' at scanned
  induction scanned generalizing start with
  | text mode start' source missed =>
    subst place
    exact ⟨_, textTokens_add mode.delims start offset source, .text mode start source missed⟩
  | tag mode start' source text rest t tokens cut scanned more ih =>
    subst place
    obtain ⟨read, tag⟩ := tagRead_scanTag scanned
    have again := tag.anywhere (start + Text.byteSize text) t.rest
    rw [← tag.whole] at again
    have place : start + Text.byteSize text + Text.byteSize (mode.delims.opening ++ read) + offset =
        t.token.span.stop := by
      rw [tag.span]
      dsimp only
      omega
    obtain ⟨tokens', same, scanned'⟩ := ih place
    refine ⟨_, ?_, .tag mode start source text rest _ tokens' cut again scanned'⟩
    rw [List.map_append, ← textTokens_add, List.map_cons, ← same]
    congr 2
    have span := tag.span
    simp only [Token.shift, Span.shift]
    rw [show t.token = { t.token with span := t.token.span } from rfl, span]
    simp only [Token.mk.injEq, Span.mk.injEq, true_and, and_true]
    omega

end Scanned

end Mustache.Markup
