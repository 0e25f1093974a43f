import Mustache.Proofs.Markup.Appended
import Mustache.Proofs.Markup.Standalone

/-! A comment on a line of its own, put between two lines of a source. The lines before it and after it
are read as they were, so that the tree stays the same apart from where the tags after the comment
stand. -/
namespace Mustache

/-- Where a span stands after a text of some length has been put in at a place. -/
def Span.past (place length : Nat) (span : Span) : Span :=
  if span.start < place then span else span.shift length

/-- A text that ends with a character which a pattern does not have is before the first occurrence of it. -/
theorem Text.cut?_of_append {pattern first second middle after : List Char} (nonempty : pattern ≠ [])
    (apart : ∀ c ∈ first.getLast?, c ∉ pattern)
    (found : cut? pattern (first ++ second) = some (first ++ middle, after)) :
    cut? pattern first = none ∧ cut? pattern second = some (middle, after) := by
  have missed : cut? pattern first = none := by
    refine cut?_eq_none_iff.2 fun within => cut?_eq_none_iff.1 (cut?_before nonempty found) ?_
    exact within.trans (List.prefix_append first middle).isInfix
  refine ⟨missed, ?_⟩
  rw [cut?_append_of_missed missed apart second] at found
  obtain ⟨⟨middle', after'⟩, cut, same⟩ := Option.map_eq_some_iff.1 found
  rw [Prod.mk.injEq] at same
  rw [cut, List.append_cancel_left same.1, same.2]

namespace Markup

/-! ### Between two lines -/

theorem endsLine_of_linesFrom {delims : Delimiters} {start : Nat} {line rest : List Char}
    (ended : ∀ c ∈ rest.getLast?, c = '\n') (empty : rest = [] → line = []) :
    ∀ t ∈ (linesFrom delims start line rest).getLast?, t.endsLine = true := by
  induction rest generalizing start line with
  | nil =>
    rw [empty rfl]
    nofun
  | cons c rest ih =>
    have later : ∀ d ∈ rest.getLast?, d = '\n' := by
      intro d last
      apply ended
      rw [List.getLast?_cons, Option.mem_def.1 last]
      rfl
    intro t last
    rw [linesFrom] at last
    split at last
    · rename_i newline
      rw [List.getLast?_cons] at last
      have more := @ih (start + Text.byteSize (c :: line)) [] later fun _ => rfl
      cases found : (linesFrom delims (start + Text.byteSize (c :: line)) [] rest).getLast? with
      | some u =>
        rw [found] at last
        cases last
        exact more u found
      | none =>
        rw [found] at last
        cases last
        simp [Token.endsLine, Token.isText, newline]
    · rename_i other
      refine ih later ?_ t last
      rintro rfl
      exact absurd (ended c rfl) other

theorem endsLine_of_textTokens {delims : Delimiters} {start : Nat} {text : List Char}
    (ended : ∀ c ∈ text.getLast?, c = '\n') :
    ∀ t ∈ (textTokens delims start text).getLast?, t.endsLine = true :=
  endsLine_of_linesFrom ended fun _ => rfl

theorem TagRead.last {mode : Mode} {start : Nat} {after read : List Char} {t : ScannedTag}
    (tag : TagRead mode start after t read) (scanned : scanTag mode start after = .ok t) :
    ∃ front c, read = front ++ [c] ∧ c ≠ '\n' := by
  obtain ⟨kind, content, read', rest, later, form, rfl⟩ := scanTag_eq_ok_iff.1 scanned
  obtain ⟨front, c, ends, notMargin⟩ := form.last
  have same : read = read' := List.append_cancel_right (tag.whole.symm.trans form.whole)
  refine ⟨front, c, same.trans ends, ?_⟩
  rintro rfl
  cases notMargin

/-- Between a tag that ends before a line and that line, there is the end of the line before. -/
theorem TagRead.exists_before_line {mode : Mode} {start : Nat} {first second before after read : List Char}
    {t : ScannedTag} (tag : TagRead mode start after t read) (scanned : scanTag mode start after = .ok t)
    (cut : Text.cut? mode.delims.opening (first ++ second) = some (before, after))
    (starts : ∀ c ∈ first.getLast?, c = '\n')
    (earlier : Text.byteSize (before ++ (mode.delims.opening ++ read)) ≤ Text.byteSize first) :
    ∃ middle, first = before ++ (mode.delims.opening ++ read) ++ middle ∧ t.rest = middle ++ second ∧
      middle ≠ [] ∧ ∀ c ∈ middle.getLast?, c = '\n' := by
  have parts : before ++ (mode.delims.opening ++ read) ++ t.rest = first ++ second := by
    rw [Text.eq_append_of_cut? cut, tag.whole]
    simp
  obtain ⟨middle, rfl, rest⟩ := Text.append_eq_append_of_byteSize_le parts earlier
  refine ⟨middle, rfl, rest, ?_, ?_⟩
  · obtain ⟨body, c, ends, notNewline⟩ := tag.last scanned
    rintro rfl
    exact notNewline (starts c (by simp [ends]))
  · intro c last
    apply starts
    rw [List.getLast?_append, Option.mem_def.1 last]
    rfl

/-- A source is scanned line by line: what stands before a line and what stands from there on are scanned
by themselves, if the line does not start within a tag. -/
theorem Scanned.split_at_line {mode : Mode} {start : Nat} {first second : List Char} {tokens : List Token}
    (scanned : Scanned mode start (first ++ second) tokens) (starts : ∀ c ∈ first.getLast?, c = '\n')
    (outside : ∀ t ∈ tokens, t.kind ≠ .text →
      t.span.stop ≤ start + Text.byteSize first ∨ start + Text.byteSize first ≤ t.span.start) :
    ∃ front back, tokens = front ++ back ∧ Scanned mode start first front ∧
      (∀ t ∈ front.getLast?, t.endsLine = true) ∧
      Scanned (mode.past front) (start + Text.byteSize first) second back := by
  generalize whole : first ++ second = source at scanned
  induction scanned generalizing first with
  | text mode start source missed =>
    subst whole
    have apart := Text.cut?_eq_none_iff.1 missed
    refine ⟨_, _, textTokens_append _ _ _ second starts, ?_, endsLine_of_textTokens starts, ?_⟩
    · refine .text mode start first (Text.cut?_eq_none_iff.2 fun within => apart ?_)
      exact within.trans (List.prefix_append first second).isInfix
    · rw [mode.past_textTokens]
      refine .text mode _ second (Text.cut?_eq_none_iff.2 fun within => apart ?_)
      exact within.trans (List.suffix_append first second).isInfix
  | tag mode start source before after t tokens cut scanned more ih =>
    obtain ⟨read, tag⟩ := tagRead_scanTag scanned
    rcases outside t.token (by simp) tag.kind with earlier | later
    · -- The tag is on a line before, and it is not the last that stands there.
      rw [tag.span] at earlier
      obtain ⟨middle, rfl, rest, nonempty, starts'⟩ := tag.exists_before_line scanned (whole ▸ cut) starts (by
        dsimp only at earlier
        rw [Text.byteSize_append]
        omega)
      have place : t.token.span.stop + Text.byteSize middle =
          start + Text.byteSize (before ++ (mode.delims.opening ++ read) ++ middle) := by
        rw [tag.span]
        simp only [Text.byteSize_append]
        omega
      obtain ⟨front, back, rfl, scanned', ended, more'⟩ := ih starts' (by
        intro u member notText
        rw [place]
        exact outside u (by simp [member]) notText) rest.symm
      have again := tag.anywhere (start + Text.byteSize before) middle
      rw [← tag.span] at again
      have cut' := Text.cut?_append_of_cut? cut (read ++ middle)
      have same : before ++ (mode.delims.opening ++ read) ++ middle =
          before ++ mode.delims.opening ++ (read ++ middle) := by simp
      refine ⟨textTokens mode.delims start before ++ t.token :: front, back, by simp, ?_, ?_, ?_⟩
      · rw [same]
        exact .tag mode start _ before (read ++ middle) ⟨t.token, middle, t.mode⟩ front cut' again scanned'
      · cases front with
        | nil =>
          cases scanned'.tiled
          exact absurd rfl nonempty
        | cons u front =>
          intro v last
          apply ended
          rw [List.append_cons, List.getLast?_append] at last
          rw [List.getLast?_cons] at last ⊢
          exact last
      · rw [← List.singleton_append, mode.past_append, mode.past_textTokens, Mode.past_append,
          ← Mode.past_of_scanTag scanned, ← place]
        exact more'
    · -- The tag is the first after the place.
      rw [tag.span] at later
      have parts : first ++ second = before ++ (mode.delims.opening ++ after) := by
        rw [whole, Text.eq_append_of_cut? cut, List.append_assoc]
      obtain ⟨middle, rfl, rest⟩ := Text.append_eq_append_of_byteSize_le parts (by
        dsimp only at later
        omega)
      rw [← whole] at cut
      obtain ⟨missed, found⟩ := Text.cut?_of_append mode.delims.opening_ne_nil (fun c last => by
        rw [starts c last]
        exact newline_not_mem_opening mode.delims) cut
      rw [textTokens_append _ _ _ _ starts, List.append_assoc]
      refine ⟨_, _, rfl, .text mode start first missed, endsLine_of_textTokens starts, ?_⟩
      rw [mode.past_textTokens]
      rw [Text.byteSize_append, ← Nat.add_assoc] at scanned
      exact .tag mode _ second middle after t tokens found scanned more

/-! ### The line of a comment -/

/-- A comment on a line of its own, with nothing around its tag but blanks. -/
structure CommentLine (d : Delimiters) where
  before : List Char
  text : List Char
  after : List Char
  before_blank : ∀ c ∈ before, c = ' ' ∨ c = '\t'
  after_blank : ∀ c ∈ after, c = ' ' ∨ c = '\t'
  /-- The text of the comment does not close its tag early. -/
  closes : Text.First d.closing (text ++ d.closing) text []

theorem linesFrom_of_unbroken {text : List Char} (unbroken : '\n' ∉ text) (delims : Delimiters)
    (start : Nat) (line rest : List Char) :
    linesFrom delims start line (text ++ rest) = linesFrom delims start (text.reverse ++ line) rest := by
  induction text generalizing line with
  | nil => rfl
  | cons c text ih =>
    have other : c ≠ '\n' := fun same => unbroken (by simp [same])
    rw [List.cons_append, linesFrom, if_neg other, ih (fun member => unbroken (List.mem_cons_of_mem c member))]
    simp

/-- A text of one line is one token, if it is not empty. -/
theorem textTokens_of_unbroken {text : List Char} (unbroken : '\n' ∉ text) (delims : Delimiters)
    (start : Nat) :
    textTokens delims start text = if text = [] then [] else
      [⟨.text, ⟨start, start + Text.byteSize text⟩, .ofList text, delims, "", false⟩] := by
  have whole := linesFrom_of_unbroken unbroken delims start [] []
  rw [List.append_nil, List.append_nil, linesFrom] at whole
  rw [textTokens, whole, Text.byteSize_reverse, List.reverse_reverse]
  cases text <;> simp

theorem textTokens_of_line {text : List Char} (unbroken : '\n' ∉ text) (delims : Delimiters)
    (start : Nat) :
    textTokens delims start (text ++ ['\n']) =
      [⟨.text, ⟨start, start + Text.byteSize (text ++ ['\n'])⟩, .ofList (text ++ ['\n']), delims, "",
        false⟩] := by
  rw [textTokens, linesFrom_of_unbroken unbroken, List.append_nil, linesFrom, if_pos rfl]
  have size : Text.byteSize ('\n' :: text.reverse) = Text.byteSize (text ++ ['\n']) := by
    rw [Text.byteSize_append, Text.byteSize_cons, Text.byteSize_reverse, Text.byteSize_cons]
    simp only [Text.byteSize_nil]
    omega
  rw [size, List.reverse_cons, List.reverse_reverse]
  rfl

/-- Blanks are no part of a delimiter. -/
theorem not_opening_infix_of_isMargin {text : List Char} (margin : ∀ c ∈ text, isMargin c = true)
    (d : Delimiters) : ¬ d.opening <:+: text := by
  intro within
  cases opening : d.opening with
  | nil => exact d.opening_ne_nil opening
  | cons c others =>
    rw [opening] at within
    have notMargin := isMargin_of_delimiter d.opening_valid (c := c) (by simp [opening])
    rw [margin c (within.subset List.mem_cons_self)] at notMargin
    cases notMargin

namespace CommentLine

variable {d : Delimiters} (line : CommentLine d)

def tag : List Char := d.opening ++ '!' :: (line.text ++ d.closing)

def chars : List Char := line.before ++ (line.tag ++ (line.after ++ ['\n']))

def source : String := .ofList line.chars

/-- The comment as it is scanned. -/
def token (start : Nat) : Token :=
  ⟨.comment, ⟨start, start + Text.byteSize line.tag⟩, .ofList (Text.trim line.text), d, "", false⟩

/-- The blanks after the comment, with the line feed. -/
def ending (start : Nat) : Token :=
  ⟨.text, ⟨start, start + Text.byteSize (line.after ++ ['\n'])⟩, .ofList (line.after ++ ['\n']), d, "", false⟩

def tokens (start : Nat) : List Token :=
  textTokens d start line.before ++ [line.token (start + Text.byteSize line.before),
    line.ending (start + Text.byteSize line.before + Text.byteSize line.tag)]

theorem isMargin_before : ∀ c ∈ line.before, isMargin c = true := by
  intro c member
  rcases line.before_blank c member with rfl | rfl <;> rfl

theorem isMargin_ended : ∀ c ∈ line.after ++ ['\n'], isMargin c = true := by
  intro c member
  rcases List.mem_append.1 member with blank | newline
  · rcases line.after_blank c blank with rfl | rfl <;> rfl
  · rw [List.mem_singleton.1 newline]
    rfl

theorem unbroken_before : '\n' ∉ line.before := fun member =>
  (line.before_blank _ member).elim nofun nofun

theorem unbroken_after : '\n' ∉ line.after := fun member =>
  (line.after_blank _ member).elim nofun nofun

theorem textTokens_ending (start : Nat) : textTokens d start (line.after ++ ['\n']) = [line.ending start] :=
  textTokens_of_line line.unbroken_after d start

theorem endsLine_ending (start : Nat) : (line.ending start).endsLine = true := by
  simp [ending, Token.endsLine, Token.isText]

theorem scanTag_eq {mode : Mode} (same : mode.delims = d) (start : Nat) (rest : List Char) :
    scanTag mode start ('!' :: (line.text ++ d.closing ++ rest)) = .ok ⟨line.token start, rest, mode⟩ := by
  subst same
  have closes := Text.cut?_append_of_cut? (Text.cut?_eq_some_iff.2 line.closes) rest
  have form : TagForm EndsInBrace mode ('!' :: (line.text ++ mode.delims.closing ++ rest)) .comment _ _ rest _ :=
    .sigil '!' .comment _ line.text rest rfl (Text.cut?_eq_some_iff.1 closes) (.inr rfl)
  rw [Mode.after_of_ne mode (by decide)] at form
  exact scanTag_eq_ok_iff.2 ⟨_, _, _, _, _, form, rfl⟩

theorem scanned {mode : Mode} (same : mode.delims = d) (start : Nat) :
    Scanned mode start line.chars (line.tokens start) := by
  subst same
  have first : Text.First mode.delims.opening line.chars line.before
      ('!' :: (line.text ++ mode.delims.closing ++ (line.after ++ ['\n']))) := by
    cases opening : mode.delims.opening with
    | nil => exact absurd opening mode.delims.opening_ne_nil
    | cons c others =>
      have absent : c ∉ line.before := by
        intro member
        have notMargin := isMargin_of_delimiter mode.delims.opening_valid (c := c) (by simp [opening])
        rw [line.isMargin_before c member] at notMargin
        cases notMargin
      have found := @Text.First.of_not_mem c others line.before absent
        ('!' :: (line.text ++ mode.delims.closing ++ (line.after ++ ['\n'])))
      have whole : line.chars = line.before ++ c :: others ++
          '!' :: (line.text ++ mode.delims.closing ++ (line.after ++ ['\n'])) := by
        simp [chars, tag, opening]
      rwa [whole]
  have missed : Text.cut? mode.delims.opening (line.after ++ ['\n']) = none :=
    Text.cut?_eq_none_iff.2 (not_opening_infix_of_isMargin line.isMargin_ended _)
  have last := Scanned.text mode (start + Text.byteSize line.before + Text.byteSize line.tag) _ missed
  rw [line.textTokens_ending] at last
  exact .tag mode start _ line.before _ ⟨line.token _, _, mode⟩ _ (Text.cut?_eq_some_iff.2 first)
    (line.scanTag_eq rfl _ _) last

theorem ended (start : Nat) : ∀ t ∈ (line.tokens start).getLast?, t.endsLine = true := by
  intro t last
  simp only [tokens, List.getLast?_append, List.getLast?_cons_cons, List.getLast?_singleton,
    Option.some_or, Option.mem_some_iff] at last
  rw [← last]
  exact line.endsLine_ending _

/-- Nothing in the line changes how what follows is read. -/
theorem past_tokens (mode : Mode) (start : Nat) : mode.past (line.tokens start) = mode := by
  have steady : ∀ t ∈ [line.token (start + Text.byteSize line.before),
      line.ending (start + Text.byteSize line.before + Text.byteSize line.tag)],
      t.kind ≠ .delimiters ∧ t.kind ≠ .pragma := by
    simp [token, ending]
  rw [tokens, mode.past_append, mode.past_textTokens, mode.past_of_steady steady]

/-- Nothing is left of the line but the comment. -/
theorem tidy_tokens (start : Nat) :
    tidy (line.tokens start) =
      [(line.token (start + Text.byteSize line.before)).alone (textTokens d start line.before)] := by
  let comment := line.token (start + Text.byteSize line.before)
  let last := line.ending (start + Text.byteSize line.before + Text.byteSize line.tag)
  have margin : ∀ t ∈ textTokens d start line.before, t.content.toList = line.before := by
    rw [textTokens_of_unbroken line.unbroken_before]
    intro t member
    split at member
    · cases member
    · rw [List.mem_singleton.1 member]
      exact String.toList_ofList
  have opens : ∀ t ∈ textTokens d start line.before ++ [comment], t.endsLine = false := by
    intro t member
    rcases List.mem_append.1 member with here | other
    · have notLast : line.before.getLast? ≠ some '\n' := fun last =>
        line.unbroken_before (List.mem_of_getLast? last)
      simp [Token.endsLine, margin t here, notLast]
    · rw [List.mem_singleton.1 other]
      exact Token.endsLine_of_tag (by rintro ⟨⟩)
  have lone : Lone (textTokens d start line.before) comment [last] := by
    refine ⟨by rintro ⟨⟩, rfl, ?_⟩
    intro t member
    rw [List.all_eq_true]
    rcases List.mem_append.1 member with here | there
    · rw [margin t here]
      exact ⟨(textTokens_text here).1, line.isMargin_before⟩
    · have content : last.content.toList = line.after ++ ['\n'] := String.toList_ofList
      rw [List.mem_singleton.1 there, content]
      exact ⟨rfl, line.isMargin_ended⟩
  have grouped := (Grouped.cons _ last [[]] opens (line.endsLine_ending _) (.last [] (by simp))).lines_flatten
  have whole : line.tokens start = [textTokens d start line.before ++ [comment] ++ [last], []].flatten := by
    simp [tokens, comment, last]
  have empty : tidyLine [] = [] := rfl
  rw [tidy, whole, grouped, List.flatMap_cons, List.flatMap_singleton, empty, List.append_nil,
    List.append_assoc]
  exact lone.tidyLine_eq

end CommentLine

/-! ### Sources with one more line -/

/-- The delimiters in force at a place of a source: the default ones, until a tag that starts before it
changes them. -/
def delimsAt (tokens : List Token) (place : Nat) : Delimiters :=
  (tokens.filter fun t => t.span.start < place).foldl (fun d t => t.leaves d) .default

/-- A line starts between the two parts of a source, outside all tags, where some delimiters are in
force. -/
structure LineStart (set : Pragmas) (first second : String) (d : Delimiters) : Prop where
  starts : ∀ c ∈ first.toList.getLast?, c = '\n'
  outside : ∀ tokens, scan set (first ++ second) = .ok tokens → ∀ t ∈ tokens, t.kind ≠ .text →
    t.span.stop ≤ Text.byteSize first.toList ∨ Text.byteSize first.toList ≤ t.span.start
  delims : ∀ tokens, scan set (first ++ second) = .ok tokens →
    delimsAt tokens (Text.byteSize first.toList) = d

instance (set : Pragmas) (first second : String) (d : Delimiters) :
    Decidable (LineStart set first second d) :=
  have starts : first.toList.getLast?.all (· == '\n') = true ↔ ∀ c ∈ first.toList.getLast?, c = '\n' := by
    cases first.toList.getLast? <;> simp
  match same : scan set (first ++ second) with
  | .ok tokens => decidable_of_iff (first.toList.getLast?.all (· == '\n') = true ∧
      (∀ t ∈ tokens, t.kind ≠ .text →
        t.span.stop ≤ Text.byteSize first.toList ∨ Text.byteSize first.toList ≤ t.span.start) ∧
      delimsAt tokens (Text.byteSize first.toList) = d)
      ⟨fun ⟨last, outside, delims⟩ =>
          ⟨starts.1 last, by simpa [same] using outside, by simpa [same] using delims⟩,
        fun between =>
          ⟨starts.2 between.starts, between.outside tokens same, between.delims tokens same⟩⟩
  | .error _ => decidable_of_iff (first.toList.getLast?.all (· == '\n') = true)
      ⟨fun last => ⟨starts.1 last, by simp [same], by simp [same]⟩, fun between => starts.2 between.starts⟩

/-- Tokens that lie over a text start before its end. -/
theorem Tiled.start_lt {start : Nat} {text : List Char} {tokens : List Token}
    (tiled : Tiled start text tokens) {t : Token} (member : t ∈ tokens) :
    t.span.start < start + Text.byteSize text := by
  obtain ⟨span, part, nonempty, place, first, last, rfl, begins, -⟩ := tiled.covers member
  have := mt Text.byteSize_eq_zero.1 nonempty
  rw [place, Span.shift_start, begins]
  simp only [Text.byteSize_append]
  omega

theorem delimsAt_append {mode : Mode} {text more : List Char} {front back : List Token}
    (initial : mode.delims = .default) (before : Tiled 0 text front)
    (after : Tiled (Text.byteSize text) more back) :
    delimsAt (front ++ back) (Text.byteSize text) = (mode.past front).delims := by
  have kept : front.filter (fun t => decide (t.span.start < Text.byteSize text)) = front := by
    rw [List.filter_eq_self]
    intro t member
    have within := before.start_lt member
    rw [Nat.zero_add] at within
    exact decide_eq_true within
  have dropped : back.filter (fun t => decide (t.span.start < Text.byteSize text)) = [] := by
    rw [List.filter_eq_nil_iff]
    intro t member
    rw [decide_eq_true_eq, Nat.not_lt]
    exact after.start_le member
  rw [delimsAt, List.filter_append, kept, dropped, List.append_nil, Mode.past, initial]

/-- Comments leave no trace in the tree. -/
theorem nest_of_comment (set : Pragmas) (before after : List Token) {t : Token} (kind : t.kind = .comment) :
    nest set (before ++ t :: after) = nest set (before ++ after) := by
  have silent (p : Parsing) : p.step t = .ok p := by
    unfold Parsing.step
    rw [kind]
  unfold nest
  rw [List.foldlM_append, List.foldlM_append]
  congr 1
  refine bind_congr fun p => ?_
  rw [List.foldlM_cons, silent]
  rfl

section

variable {place length : Nat} {text : List Char} {tokens : List Token}

theorem map_respan_of_before (before : Tiled 0 text tokens) (length : Nat) :
    (tidy tokens).map (Token.respan (Span.past (Text.byteSize text) length)) = tidy tokens := by
  refine (List.map_congr_left fun t member => ?_).trans (List.map_id _)
  obtain ⟨u, there, like⟩ := (thinned_tidy tokens).mem member
  have within := before.start_lt there
  rw [Nat.zero_add, ← like.span] at within
  rw [Token.respan, Span.past, if_pos within]
  rfl

theorem map_respan_of_after (after : Tiled place text tokens) (length : Nat) :
    (tidy tokens).map (Token.respan (Span.past place length)) = (tidy tokens).map (Token.shift length) := by
  refine List.map_congr_left fun t member => ?_
  obtain ⟨u, there, like⟩ := (thinned_tidy tokens).mem member
  have beyond := after.start_le there
  rw [← like.span] at beyond
  rw [Token.respan, Span.past, if_neg (Nat.not_lt.2 beyond)]
  rfl

end

variable {set : Pragmas} {first second : String} {d : Delimiters} {tree : List Node}

/-- A comment on a line of its own only moves what stands after it. -/
theorem LineStart.parse_insert (between : LineStart set first second d) (line : CommentLine d)
    (parsed : parse set (first ++ second) = .ok tree) :
    parse set (first ++ line.source ++ second) =
      .ok (Node.respanAll (Span.past (Text.byteSize first.toList) (Text.byteSize line.chars)) tree) := by
  obtain ⟨tokens, scanned, nests⟩ := read_of_parse parsed
  have outside := between.outside tokens scanned.scanFrom_eq
  have delims := between.delims tokens scanned.scanFrom_eq
  rw [String.toList_append] at scanned
  obtain ⟨front, back, rfl, before, ended, after⟩ :=
    scanned.split_at_line between.starts (by simpa using outside)
  rw [Nat.zero_add] at after
  have initial : (Mode.initial set).delims = .default := rfl
  have same : ((Mode.initial set).past front).delims = d := by
    rw [← delims, delimsAt_append initial before.tiled after.tiled]
  -- What stands after the comment is scanned as before, further on.
  have later := after.shift (Text.byteSize line.chars)
  rw [← line.past_tokens ((Mode.initial set).past front) (Text.byteSize first.toList)] at later
  have inserted := before.append ended (by
    rw [Nat.zero_add]
    exact (line.scanned same (Text.byteSize first.toList)).append (line.ended _) later)
  have chars : (first ++ line.source ++ second).toList =
      first.toList ++ (line.chars ++ second.toList) := by
    simp [CommentLine.source]
  rw [← chars] at inserted
  have tidied := (nests.respan (Span.past (Text.byteSize first.toList) (Text.byteSize line.chars))).nest_eq
  rw [tidy_append ended, List.map_append, map_respan_of_before before.tiled,
    map_respan_of_after after.tiled] at tidied
  rw [parse, inserted.tokenize_eq, tidy_append ended, tidy_append (line.ended _), line.tidy_tokens, tidy_shift]
  exact (nest_of_comment set _ _ rfl).trans tidied

end Markup
end Mustache
