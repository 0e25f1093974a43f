import Mustache.Proofs.Markup.Force

/-! The grammar of templates as a relation between a source and its tokens, told by where delimiters
occur first. A source can be scanned if and only if it is of this grammar, and its tokens are those
that the grammar gives. -/
namespace Mustache

namespace Text

theorem words_trimStart (text : List Char) : words (trimStart text) = words text := by
  induction text with
  | nil => rfl
  | cons c rest ih =>
    rw [trimStart, List.dropWhile_cons]
    split
    · rename_i blank
      have skipped : words (c :: rest) = words rest := words_append_cons blank [] rest
      rw [skipped]
      exact ih
    · rfl

theorem words_trimEnd (text : List Char) : words (trimEnd text) = words text := by
  rw [trimEnd]
  generalize same : text.reverse = back
  have whole : text = back.reverse := by rw [← same, List.reverse_reverse]
  subst whole
  clear same
  induction back with
  | nil => rfl
  | cons c rest ih =>
    rw [List.dropWhile_cons, List.reverse_cons]
    split
    · rename_i blank
      have skipped : words (rest.reverse ++ [c]) = words rest.reverse := by
        rw [words_append_cons blank]
        exact List.append_nil _
      rw [skipped]
      exact ih
    · rw [List.reverse_cons]

theorem words_trim (text : List Char) : words (trim text) = words text := by
  rw [trim, words_trimEnd, words_trimStart]

end Text

namespace Markup

/-- The mode after a tag. The pragma for blocks changes how the tags after it are read. -/
def Mode.after (mode : Mode) (kind : Kind) (content : List Char) : Mode :=
  { mode with blocks :=
    mode.blocks || decide (kind = .pragma ∧ (Text.words content).head? = some "BLOCKS".toList) }

/-- What may follow the opening delimiter of a tag. The indices are the text there, the kind and the
content of the tag, the part of the text that belongs to it, the text after it, and the mode that it
leaves. Where the sigil is a brace and the closing delimiter is not two of them, `ends` tells which
bodies there are. -/
inductive TagForm (ends : List Char → Prop) (mode : Mode) :
    List Char → Kind → List Char → List Char → List Char → Mode → Prop
  | change (text body rest : List Char) (changed : Delimiters)
      (closes : Text.First ('=' :: mode.delims.closing) text body rest)
      (words : Text.words body = [changed.opening, changed.closing]) :
      TagForm ends mode ('=' :: text) .delimiters (Text.trim body)
        ('=' :: (body ++ '=' :: mode.delims.closing)) rest { mode with delims := changed }
  | triple (text body rest : List Char) (standard : mode.delims.closing = ['\x7d', '\x7d'])
      (closes : Text.First mode.delims.closing text body ('\x7d' :: rest))
      (named : Text.trim body ≠ []) :
      TagForm ends mode ('\x7b' :: text) .unescaped (Text.trim body)
        ('\x7b' :: (body ++ mode.delims.closing ++ ['\x7d'])) rest mode
  | braced (text body rest : List Char) (custom : mode.delims.closing ≠ ['\x7d', '\x7d'])
      (closes : Text.First mode.delims.closing text body rest) (ending : ends body)
      (named : Text.trimEnd (Text.trim body).dropLast ≠ []) :
      TagForm ends mode ('\x7b' :: text) .unescaped (Text.trimEnd (Text.trim body).dropLast)
        ('\x7b' :: (body ++ mode.delims.closing)) rest mode
  | sigil (c : Char) (kind : Kind) (text body rest : List Char)
      (sign : Kind.ofSigil? mode.blocks c = some kind)
      (closes : Text.First mode.delims.closing text body rest)
      (named : Text.trim body ≠ [] ∨ kind = .comment) :
      TagForm ends mode (c :: text) kind (Text.trim body) (c :: (body ++ mode.delims.closing)) rest
        (mode.after kind (Text.trim body))
  | plain (text body rest : List Char)
      (unsigned : ∀ c ∈ text.head?, c ≠ '=' ∧ c ≠ '\x7b' ∧ Kind.ofSigil? mode.blocks c = none)
      (closes : Text.First mode.delims.closing text body rest) (named : Text.trim body ≠ []) :
      TagForm ends mode text .escaped (Text.trim body) (body ++ mode.delims.closing) rest mode

/-- A source from an offset on, as runs of text and tags between them. A run ends where the opening
delimiter occurs first. -/
inductive Template (ends : List Char → Prop) : Mode → Nat → List Char → List Token → Prop
  | text (mode : Mode) (start : Nat) (run : List Char) (untagged : ¬ mode.delims.opening <:+: run) :
      Template ends mode start run (textTokens mode.delims start run)
  | tag (mode later : Mode) (start : Nat) (source run text content read rest : List Char)
      (kind : Kind) (tokens : List Token)
      (opens : Text.First mode.delims.opening source run text)
      (form : TagForm ends mode text kind content read rest later)
      (more : Template ends later
        (start + Text.byteSize run + Text.byteSize (mode.delims.opening ++ read)) rest tokens) :
      Template ends mode start source (textTokens mode.delims start run ++
        ⟨kind, ⟨start + Text.byteSize run,
            start + Text.byteSize run + Text.byteSize (mode.delims.opening ++ read)⟩,
          .ofList content, mode.delims, "", false⟩ :: tokens)

/-- The body ends in a brace, apart from blanks after it. -/
def EndsInBrace (body : List Char) : Prop := (Text.trim body).getLast? = some '\x7d'

/-! ### Tags are read by their forms -/

theorem plainExtent_eq_ok_iff {d : Delimiters} {start bodyStart : Nat} {after : List Char} {e : Extent} :
    plainExtent d start bodyStart after = .ok e ↔ ∃ body rest, Text.First d.closing after body rest ∧
      e = ⟨Text.trim body, bodyStart + Text.byteSize body + Text.byteSize d.closing, rest⟩ := by
  unfold plainExtent
  cases cut : Text.cut? d.closing after with
  | none =>
    refine ⟨nofun, ?_⟩
    rintro ⟨body, rest, first, -⟩
    rw [Text.cut?_eq_some_iff.2 first] at cut
    cases cut
  | some parts =>
    obtain ⟨body, rest⟩ := parts
    constructor
    · intro found
      exact ⟨body, rest, .of_cut? cut, (Except.ok.inj found).symm⟩
    · rintro ⟨body', rest', first, rfl⟩
      rw [Text.cut?_eq_some_iff.2 first] at cut
      cases cut
      rfl

theorem braceExtent_eq_ok_iff {d : Delimiters} {start bodyStart : Nat} {after : List Char} {e : Extent} :
    braceExtent d start bodyStart after = .ok e ↔
      (d.closing = ['\x7d', '\x7d'] ∧ ∃ body rest, Text.First d.closing after body ('\x7d' :: rest) ∧
        e = ⟨Text.trim body, bodyStart + Text.byteSize body + Text.byteSize d.closing + 1, rest⟩) ∨
      (d.closing ≠ ['\x7d', '\x7d'] ∧ ∃ body rest, Text.First d.closing after body rest ∧
        EndsInBrace body ∧ e = ⟨Text.trimEnd (Text.trim body).dropLast,
          bodyStart + Text.byteSize body + Text.byteSize d.closing, rest⟩) := by
  unfold braceExtent
  cases cut : Text.cut? d.closing after with
  | none =>
    have missed (body rest : List Char) : ¬ Text.First d.closing after body rest := by
      intro first
      rw [Text.cut?_eq_some_iff.2 first] at cut
      cases cut
    simp [missed]
  | some parts =>
    obtain ⟨body, rest⟩ := parts
    have first := Text.First.of_cut? cut
    by_cases standard : d.closing = ['\x7d', '\x7d']
    · simp only [if_pos standard]
      constructor
      · intro found
        split at found
        · exact .inl ⟨standard, body, _, first, (Except.ok.inj found).symm⟩
        · cases found
      · rintro (⟨-, body', rest', first', rfl⟩ | ⟨custom, -⟩)
        · obtain ⟨rfl, rfl⟩ := first'.eq_of_cut? cut
          rfl
        · exact absurd standard custom
    · simp only [if_neg standard]
      constructor
      · intro found
        split at found
        · rename_i ending
          exact .inr ⟨standard, body, rest, first, ending, (Except.ok.inj found).symm⟩
        · cases found
      · rintro (⟨custom, -⟩ | ⟨-, body', rest', first', ending, rfl⟩)
        · exact absurd custom standard
        · obtain ⟨rfl, rfl⟩ := first'.eq_of_cut? cut
          exact if_pos ending

theorem finishTag_eq_ok_iff {mode : Mode} {start : Nat} {kind : Kind} {e : Extent} {t : ScannedTag} :
    finishTag mode start kind e = .ok t ↔ (e.content ≠ [] ∨ kind = .comment) ∧
      t = ⟨⟨kind, ⟨start, e.stop⟩, .ofList e.content, mode.delims, "", false⟩, e.rest,
        mode.after kind e.content⟩ := by
  have switched : (Token.pragma? ⟨kind, ⟨start, e.stop⟩, .ofList e.content, mode.delims, "", false⟩ =
      some .blocks) ↔ (Text.words e.content).head? = some "BLOCKS".toList := by
    unfold Token.pragma? Token.words
    rw [String.toList_ofList, List.head?_map, Option.bind_map]
    cases (Text.words e.content).head? with
    | none => simp
    | some word =>
      rw [Option.bind_some, Function.comp_apply, Pragma.ofName?_eq_some_iff, Option.some.injEq,
        ← String.toList_inj, String.toList_ofList]
      rfl
  unfold finishTag
  by_cases empty : e.content = [] ∧ kind ≠ .comment
  · rw [if_pos empty]
    refine ⟨nofun, ?_⟩
    rintro ⟨named | comment, -⟩
    · exact absurd empty.1 named
    · exact absurd comment empty.2
  · rw [if_neg empty]
    have allowed : e.content ≠ [] ∨ kind = .comment := by
      by_cases comment : kind = .comment
      · exact .inr comment
      · exact .inl fun none => empty ⟨none, comment⟩
    have same : (mode.blocks || (decide (kind = .pragma) && decide
        (Token.pragma? ⟨kind, ⟨start, e.stop⟩, .ofList e.content, mode.delims, "", false⟩ =
          some .blocks))) = (mode.after kind e.content).blocks := by
      unfold Mode.after
      simp only [switched, Bool.decide_and]
    constructor
    · intro finished
      refine ⟨allowed, ?_⟩
      rw [← Except.ok.inj finished]
      simp only [same]
      rfl
    · rintro ⟨-, rfl⟩
      simp only [same]
      rfl

theorem Mode.after_of_ne (mode : Mode) {kind : Kind} (other : kind ≠ .pragma) (content : List Char) :
    mode.after kind content = mode := by
  simp [Mode.after, other]

theorem finishTag_bind_eq_ok_iff {found : Except Flaw Extent} {mode : Mode} {start : Nat} {kind : Kind}
    {t : ScannedTag} :
    found.bind (finishTag mode start kind) = .ok t ↔ ∃ e, found = .ok e ∧
      (e.content ≠ [] ∨ kind = .comment) ∧
      t = ⟨⟨kind, ⟨start, e.stop⟩, .ofList e.content, mode.delims, "", false⟩, e.rest,
        mode.after kind e.content⟩ := by
  cases found with
  | error flaw => simp [Except.bind]
  | ok e => simp [Except.bind, finishTag_eq_ok_iff]

theorem scanChange_eq_ok_iff {mode : Mode} {start : Nat} {after : List Char} {t : ScannedTag} :
    scanChange mode start after = .ok t ↔ ∃ body rest changed,
      Text.First ('=' :: mode.delims.closing) after body rest ∧
      Text.words body = [changed.opening, changed.closing] ∧
      t = ⟨⟨.delimiters, ⟨start, start + Text.byteSize mode.delims.opening + 1 + Text.byteSize body + 1 +
          Text.byteSize mode.delims.closing⟩, .ofList (Text.trim body), mode.delims, "", false⟩, rest,
        { mode with delims := changed }⟩ := by
  simp only [scanChange]
  cases cut : Text.cut? ('=' :: mode.delims.closing) after with
  | none =>
    constructor
    · intro scanned
      cases scanned
    · rintro ⟨body, rest, changed, first, -⟩
      rw [Text.cut?_eq_some_iff.2 first] at cut
      cases cut
  | some parts =>
    obtain ⟨body, rest⟩ := parts
    constructor
    · intro scanned
      dsimp only at scanned
      split at scanned
      · rename_i opening closing words
        split at scanned
        · rename_i changed valid
          refine ⟨body, rest, changed, .of_cut? cut, ?_, (Except.ok.inj scanned).symm⟩
          rw [words]
          unfold Delimiters.ofWords? at valid
          split at valid
          · cases valid
            rfl
          · cases valid
        · cases scanned
      · cases scanned
    · rintro ⟨body', rest', changed, first, words, rfl⟩
      rw [Text.cut?_eq_some_iff.2 first] at cut
      cases cut
      have valid : Delimiters.ofWords? changed.opening changed.closing = some changed :=
        dif_pos ⟨changed.opening_valid, changed.closing_valid⟩
      dsimp only
      rw [words]
      dsimp only
      rw [valid]

/-- A tag is read if and only if its text has one of the forms. -/
theorem scanTag_eq_ok_iff {mode : Mode} {start : Nat} {after : List Char} {t : ScannedTag} :
    scanTag mode start after = .ok t ↔ ∃ kind content read rest later,
      TagForm EndsInBrace mode after kind content read rest later ∧
      t = ⟨⟨kind, ⟨start, start + Text.byteSize (mode.delims.opening ++ read)⟩, .ofList content,
        mode.delims, "", false⟩, rest, later⟩ := by
  have sign : ('=').utf8Size = 1 := by decide
  have brace : ('\x7b').utf8Size = 1 := by decide
  have brace' : ('\x7d').utf8Size = 1 := by decide
  constructor
  · intro scanned
    unfold scanTag at scanned
    split at scanned
    · obtain ⟨body, rest, changed, first, words, rfl⟩ := scanChange_eq_ok_iff.1 scanned
      refine ⟨_, _, _, _, _, .change _ body rest changed first words, ?_⟩
      simp only [Text.byteSize_append, Text.byteSize_cons, sign, Nat.add_assoc]
    · obtain ⟨e, found, allowed, rfl⟩ := finishTag_bind_eq_ok_iff.1 scanned
      have named : e.content ≠ [] := allowed.resolve_right (by decide)
      rw [Mode.after_of_ne _ (by decide)]
      rcases braceExtent_eq_ok_iff.1 found with
        ⟨standard, body, rest, first, rfl⟩ | ⟨custom, body, rest, first, ending, rfl⟩
      · refine ⟨_, _, _, _, _, .triple _ body rest standard first named, ?_⟩
        simp only [Text.byteSize_append, Text.byteSize_cons, Text.byteSize_nil, brace, brace',
          Nat.add_assoc]
      · refine ⟨_, _, _, _, _, .braced _ body rest custom first ending named, ?_⟩
        simp only [Text.byteSize_append, Text.byteSize_cons, brace, Nat.add_assoc]
    · rename_i c rest notEquals notBrace
      split at scanned
      · rename_i kind isSigil
        obtain ⟨e, found, allowed, rfl⟩ := finishTag_bind_eq_ok_iff.1 scanned
        obtain ⟨body, rest, first, rfl⟩ := plainExtent_eq_ok_iff.1 found
        refine ⟨_, _, _, _, _, .sigil c kind _ body rest isSigil first allowed, ?_⟩
        simp only [Text.byteSize_append, Text.byteSize_cons, Nat.add_assoc]
      · rename_i noSigil
        obtain ⟨e, found, allowed, rfl⟩ := finishTag_bind_eq_ok_iff.1 scanned
        obtain ⟨body, rest', first, rfl⟩ := plainExtent_eq_ok_iff.1 found
        have named : Text.trim body ≠ [] := allowed.resolve_right (by decide)
        rw [Mode.after_of_ne _ (by decide)]
        refine ⟨_, _, _, _, _, .plain _ body rest' ?_ first named, ?_⟩
        · intro d head
          cases head
          exact ⟨notEquals, notBrace, noSigil⟩
        · simp only [Text.byteSize_append, Nat.add_assoc]
    · cases scanned
  · rintro ⟨kind, content, read, rest, later, form, rfl⟩
    cases form with
    | change text body _ changed first words =>
      rw [scanTag]
      refine scanChange_eq_ok_iff.2 ⟨body, rest, changed, first, words, ?_⟩
      simp only [Text.byteSize_append, Text.byteSize_cons, sign, Nat.add_assoc]
    | triple text body _ standard first named =>
      rw [scanTag]
      refine finishTag_bind_eq_ok_iff.2 ⟨_, braceExtent_eq_ok_iff.2 (.inl ⟨standard, body, rest, first,
        rfl⟩), .inl named, ?_⟩
      rw [Mode.after_of_ne _ (by decide)]
      simp only [Text.byteSize_append, Text.byteSize_cons, Text.byteSize_nil, brace, brace',
        Nat.add_assoc]
    | braced text body _ custom first ending named =>
      rw [scanTag]
      refine finishTag_bind_eq_ok_iff.2 ⟨_, braceExtent_eq_ok_iff.2 (.inr ⟨custom, body, rest, first,
        ending, rfl⟩), .inl named, ?_⟩
      rw [Mode.after_of_ne _ (by decide)]
      simp only [Text.byteSize_append, Text.byteSize_cons, brace, Nat.add_assoc]
    | sigil c kind text body _ isSigil first named =>
      rw [scanTag]
      · simp only [isSigil]
        refine finishTag_bind_eq_ok_iff.2 ⟨_, plainExtent_eq_ok_iff.2 ⟨body, rest, first, rfl⟩, named, ?_⟩
        simp only [Text.byteSize_append, Text.byteSize_cons, Nat.add_assoc]
      · rintro rfl
        cases isSigil
      · rintro rfl
        cases isSigil
    | plain _ body _ unsigned first named =>
      cases after with
      | nil =>
        have := congrArg List.length first.whole
        have := List.length_pos_iff.2 mode.delims.closing_ne_nil
        simp only [List.length_nil, List.length_append] at *
        omega
      | cons c text =>
        obtain ⟨notEquals, notBrace, noSigil⟩ := unsigned c rfl
        rw [scanTag]
        · simp only [noSigil]
          refine finishTag_bind_eq_ok_iff.2 ⟨_, plainExtent_eq_ok_iff.2 ⟨body, rest, first, rfl⟩,
            .inl named, ?_⟩
          rw [Mode.after_of_ne _ (by decide)]
          simp only [Text.byteSize_append, Nat.add_assoc]
        · exact notEquals
        · exact notBrace

/-! ### Sources are scanned by the grammar -/

theorem Template.scanned {mode : Mode} {start : Nat} {source : List Char} {tokens : List Token}
    (template : Template EndsInBrace mode start source tokens) : Scanned mode start source tokens := by
  induction template with
  | text mode start run untagged => exact .text mode start run (Text.cut?_eq_none_iff.2 untagged)
  | tag mode later start source run text content read rest kind tokens opens form more ih =>
    have scanned : scanTag mode (start + Text.byteSize run) text = .ok ⟨⟨kind, ⟨start + Text.byteSize run,
        start + Text.byteSize run + Text.byteSize (mode.delims.opening ++ read)⟩, .ofList content,
        mode.delims, "", false⟩, rest, later⟩ :=
      scanTag_eq_ok_iff.2 ⟨kind, content, read, rest, later, form, rfl⟩
    exact .tag mode start source run text _ tokens (Text.cut?_eq_some_iff.2 opens) scanned ih

theorem Scanned.template {mode : Mode} {start : Nat} {source : List Char} {tokens : List Token}
    (scanned : Scanned mode start source tokens) : Template EndsInBrace mode start source tokens := by
  induction scanned with
  | text mode start source missed => exact .text mode start source (Text.cut?_eq_none_iff.1 missed)
  | tag mode start source before after t tokens cut scanned more ih =>
    obtain ⟨kind, content, read, rest, later, form, rfl⟩ := scanTag_eq_ok_iff.1 scanned
    exact .tag mode later start source before after content read rest kind tokens (.of_cut? cut) form ih

theorem scanFrom_eq_ok_iff {mode : Mode} {start : Nat} {source : List Char} {tokens : List Token} :
    scanFrom mode start source = .ok tokens ↔ Template EndsInBrace mode start source tokens :=
  ⟨fun scanned => (scanned_of_scanFrom scanned).template, fun template => template.scanned.scanFrom_eq⟩

/-- The delimiters that a token leaves in force. -/
def Token.leaves (t : Token) (d : Delimiters) : Delimiters :=
  match t.kind, t.words with
  | .delimiters, [opening, closing] => (Delimiters.ofWords? opening.toList closing.toList).getD d
  | _, _ => d

/-- Each token carries the delimiters in force where it starts: the given ones, until a tag changes
them. -/
def Carry (d : Delimiters) : List Token → Prop
  | [] => True
  | t :: rest => t.delims = d ∧ Carry (t.leaves d) rest

theorem Token.leaves_of_ne {t : Token} (other : t.kind ≠ .delimiters) (d : Delimiters) : t.leaves d = d := by
  unfold leaves
  split
  · rename_i kind _
    exact absurd kind other
  · rfl

theorem Carry.append {d : Delimiters} {texts more : List Token}
    (kinds : ∀ t ∈ texts, t.kind = .text ∧ t.delims = d) (later : Carry d more) :
    Carry d (texts ++ more) := by
  induction texts with
  | nil => exact later
  | cons t rest ih =>
    obtain ⟨kind, delims⟩ := kinds t List.mem_cons_self
    refine ⟨delims, ?_⟩
    rw [Token.leaves_of_ne (by rw [kind]; decide)]
    exact ih fun s member => kinds s (List.mem_cons_of_mem t member)

theorem TagForm.whole {ends : List Char → Prop} {mode later : Mode} {text content read rest : List Char}
    {kind : Kind} (form : TagForm ends mode text kind content read rest later) : text = read ++ rest := by
  cases form with
  | change text body _ changed closes words => simp [closes.whole]
  | triple text body _ standard closes named => simp [closes.whole]
  | braced text body _ custom closes ending named => simp [closes.whole]
  | sigil c _ text body _ sign closes named => simp [closes.whole]
  | plain _ body _ unsigned closes named => exact closes.whole

theorem TagForm.kind_ne_text {ends : List Char → Prop} {mode later : Mode}
    {text content read rest : List Char} {kind : Kind}
    (form : TagForm ends mode text kind content read rest later) : kind ≠ .text := by
  cases form with
  | sigil c _ text body _ sign closes named =>
    rintro rfl
    unfold Kind.ofSigil? at sign
    split at sign <;> first
      | cases sign
      | split at sign <;> cases sign
  | change | triple | braced | plain => decide

theorem TagForm.leaves {ends : List Char → Prop} {mode later : Mode} {text content read rest : List Char}
    {kind : Kind} (form : TagForm ends mode text kind content read rest later) (span : Span) :
    (Token.leaves ⟨kind, span, .ofList content, mode.delims, "", false⟩ mode.delims) = later.delims := by
  cases form with
  | change text body _ changed closes words =>
    have valid : Delimiters.ofWords? changed.opening changed.closing = some changed :=
      dif_pos ⟨changed.opening_valid, changed.closing_valid⟩
    unfold Token.leaves Token.words
    simp [Text.words_trim, words, valid]
  | triple | braced | plain => exact Token.leaves_of_ne (by simp) _
  | sigil c _ text body _ sign closes named =>
    refine Token.leaves_of_ne ?_ _
    rintro rfl
    unfold Kind.ofSigil? at sign
    split at sign <;> first
      | cases sign
      | split at sign <;> cases sign

/-- A text token is a line of the text, or the last part of one. -/
theorem line_of_mem_linesFrom {delims : Delimiters} {start : Nat} {line rest : List Char} {t : Token}
    (unbroken : '\n' ∉ line) (member : t ∈ linesFrom delims start line rest) :
    t.delims = delims ∧ t.content.toList ≠ [] ∧ '\n' ∉ t.content.toList.dropLast ∧
      ∃ span : Span, t.span = span.shift start ∧ span.Covers (line.reverse ++ rest) t.content.toList := by
  induction rest generalizing start line with
  | nil =>
    rw [linesFrom] at member
    split at member
    · cases member
    · rename_i nonempty
      rw [List.mem_singleton] at member
      subst member
      have whole : (String.ofList line.reverse).toList = line.reverse := String.toList_ofList
      rw [whole]
      refine ⟨rfl, by simpa using nonempty, ?_, ⟨0, Text.byteSize line⟩, ?_, [], [], by simp, rfl, ?_⟩
      · exact fun inside => unbroken (List.mem_reverse.1 ((List.dropLast_sublist _).subset inside))
      · simp [Span.shift, Nat.add_comm]
      · simp [Text.byteSize_reverse]
  | cons c rest ih =>
    rw [linesFrom] at member
    split at member
    · rename_i newline
      rcases List.mem_cons.1 member with rfl | later
      · have whole : (String.ofList (c :: line).reverse).toList = line.reverse ++ [c] := by simp
        rw [whole]
        refine ⟨rfl, by simp, ?_, ⟨0, Text.byteSize (c :: line)⟩, ?_, [], rest, by simp, rfl, ?_⟩
        · rw [List.dropLast_concat]
          exact fun inside => unbroken (List.mem_reverse.1 inside)
        · simp [Span.shift, Nat.add_comm]
        · simp [Text.byteSize_reverse, Nat.add_comm]
      · obtain ⟨carries, nonempty, single, span, place, covers⟩ := ih (by simp) later
        refine ⟨carries, nonempty, single, span.shift (Text.byteSize (c :: line)), ?_, ?_⟩
        · rw [place]
          simp only [Span.shift, Span.mk.injEq]
          omega
        · have within := covers.within (line.reverse ++ [c]) []
          have size : Text.byteSize (line.reverse ++ [c]) = Text.byteSize (c :: line) := by
            simp [Text.byteSize_reverse, Nat.add_comm]
          rw [size] at within
          simpa using within
    · rename_i other
      have found := ih (by simp [unbroken, Ne.symm other]) member
      simpa using found

theorem line_of_mem_textTokens {delims : Delimiters} {start : Nat} {text : List Char} {t : Token}
    (member : t ∈ textTokens delims start text) :
    t.delims = delims ∧ t.content.toList ≠ [] ∧ '\n' ∉ t.content.toList.dropLast ∧
      ∃ span : Span, t.span = span.shift start ∧ span.Covers text t.content.toList :=
  line_of_mem_linesFrom (List.not_mem_nil) member

namespace Template

variable {ends : List Char → Prop} {mode : Mode} {start : Nat} {source : List Char} {tokens : List Token}

theorem carry (template : Template ends mode start source tokens) : Carry mode.delims tokens := by
  have texts (mode : Mode) (start : Nat) (run : List Char) :
      ∀ t ∈ textTokens mode.delims start run, t.kind = .text ∧ t.delims = mode.delims :=
    fun t member => ⟨(textTokens_text member).1, (line_of_mem_textTokens member).1⟩
  induction template with
  | text mode start run untagged =>
    have whole := Carry.append (texts mode start run) (show Carry mode.delims [] from trivial)
    rwa [List.append_nil] at whole
  | tag mode later start source run text content read rest kind tokens opens form more ih =>
    refine .append (texts mode start run) ⟨rfl, ?_⟩
    rw [form.leaves]
    exact ih

theorem line (template : Template ends mode start source tokens) {t : Token} (member : t ∈ tokens)
    (isText : t.kind = .text) :
    t.content.toList ≠ [] ∧ '\n' ∉ t.content.toList.dropLast ∧
      ∃ span : Span, t.span = span.shift start ∧ span.Covers source t.content.toList := by
  induction template with
  | text mode start run untagged => exact (line_of_mem_textTokens member).2
  | tag mode later start source run text content read rest kind tokens opens form more ih =>
    have whole : source = run ++ (mode.delims.opening ++ read) ++ rest := by
      rw [opens.whole, form.whole]
      simp
    rcases List.mem_append.1 member with here | later
    · obtain ⟨-, nonempty, single, span, place, covers⟩ := line_of_mem_textTokens here
      refine ⟨nonempty, single, span, place, ?_⟩
      have within := covers.within [] (mode.delims.opening ++ read ++ rest)
      rw [whole]
      simpa [Span.shift] using within
    · rcases List.mem_cons.1 later with rfl | later
      · exact absurd isText form.kind_ne_text
      · obtain ⟨nonempty, single, span, place, covers⟩ := ih later
        refine ⟨nonempty, single,
          span.shift (Text.byteSize (run ++ (mode.delims.opening ++ read))), ?_, ?_⟩
        · rw [place]
          simp only [Span.shift, Span.mk.injEq, Text.byteSize_append]
          omega
        · have within := covers.within (run ++ (mode.delims.opening ++ read)) []
          rwa [List.append_nil, ← whole] at within

end Template

/-- A source is accepted if and only if it is of the grammar. Its tokens before lines are tidied are
those of the grammar: they tile the source, each carries the delimiters in force where it starts, and
each text is a line of the source or a part of one. -/
theorem tokenize_iff_template (pragmas : Pragmas) (source : String) :
    ((∃ tokens, tokenize pragmas source = .ok tokens) ↔
      ∃ tokens, Template EndsInBrace (.initial pragmas) 0 source.toList tokens) ∧
    ∀ tokens, scan pragmas source = .ok tokens →
      Template EndsInBrace (.initial pragmas) 0 source.toList tokens ∧
      tokenize pragmas source = .ok (tidy tokens) ∧
      Tiled 0 source.toList tokens ∧ Carry .default tokens ∧
      ∀ t ∈ tokens, t.kind = .text → t.content.toList ≠ [] ∧
        '\n' ∉ t.content.toList.dropLast ∧ t.content = t.span.slice source := by
  refine ⟨⟨?_, ?_⟩, ?_⟩
  · rintro ⟨tokens, accepted⟩
    obtain ⟨raw, scanned, -⟩ := scanned_of_tokenize accepted
    exact ⟨raw, scanned.template⟩
  · rintro ⟨tokens, template⟩
    exact ⟨tidy tokens, template.scanned.tokenize_eq⟩
  · intro tokens scanned
    have template : Template EndsInBrace (.initial pragmas) 0 source.toList tokens :=
      scanFrom_eq_ok_iff.1 scanned
    refine ⟨template, template.scanned.tokenize_eq, template.scanned.tiled, template.carry, ?_⟩
    intro t member isText
    obtain ⟨nonempty, single, span, place, covers⟩ := template.line member isText
    refine ⟨nonempty, single, ?_⟩
    have same : t.span = span := by rw [place, Span.shift]; rfl
    rw [same, covers.slice, String.ofList_toList]

theorem tokenize_iff_template_changed_delimiters :
    ∃ tokens, scan {} "a\n\x7b\x7b=| |=\x7d\x7d|\x7b b\x7d|" = .ok tokens ∧
      Tiled 0 "a\n\x7b\x7b=| |=\x7d\x7d|\x7b b\x7d|".toList tokens ∧ Carry .default tokens := by
  have accepted : (scan {} "a\n\x7b\x7b=| |=\x7d\x7d|\x7b b\x7d|").isOk = true := by
    decide +kernel
  cases scanned : scan {} "a\n\x7b\x7b=| |=\x7d\x7d|\x7b b\x7d|" with
  | error flaw =>
    rw [scanned] at accepted
    cases accepted
  | ok tokens =>
    have form := (tokenize_iff_template {} "a\n\x7b\x7b=| |=\x7d\x7d|\x7b b\x7d|").2 tokens scanned
    exact ⟨tokens, rfl, form.2.2.1, form.2.2.2.1⟩

/-- The body of a tag in braces is trimmed before its end is looked at, so that blanks may follow
the brace there. -/
theorem braced_body_may_end_in_blank :
    (∃ tokens, tokenize {} "\x7b\x7b=| |=\x7d\x7d|\x7b a \x7d |" = .ok tokens) ∧
      ¬ ∃ tokens, Template (fun body => body.getLast? = some '\x7d') (.initial {}) 0
        "\x7b\x7b=| |=\x7d\x7d|\x7b a \x7d |".toList tokens := by
  have opensAt : Text.cut? Delimiters.default.opening "\x7b\x7b=| |=\x7d\x7d|\x7b a \x7d |".toList =
      some ([], "=| |=\x7d\x7d|\x7b a \x7d |".toList) := by decide
  have changeEnds : Text.cut? ('=' :: Delimiters.default.closing) "| |=\x7d\x7d|\x7b a \x7d |".toList =
      some ("| |".toList, "|\x7b a \x7d |".toList) := by decide
  have opensNext : Text.cut? ['|'] "|\x7b a \x7d |".toList = some ([], "\x7b a \x7d |".toList) := by decide
  have closesNext : Text.cut? ['|'] " a \x7d |".toList = some (" a \x7d ".toList, []) := by decide
  constructor
  · have accepted : (tokenize {} "\x7b\x7b=| |=\x7d\x7d|\x7b a \x7d |").isOk = true := by
      decide +kernel
    cases found : tokenize {} "\x7b\x7b=| |=\x7d\x7d|\x7b a \x7d |" with
    | error flaw =>
      rw [found] at accepted
      cases accepted
    | ok tokens => exact ⟨tokens, rfl⟩
  rintro ⟨tokens, template⟩
  cases template with
  | text _ _ _ untagged => exact untagged (by decide)
  | tag _ later _ _ run text content read rest kind tokens opens form more =>
    obtain ⟨rfl, rfl⟩ := opens.eq_of_cut? opensAt
    cases form with
    | sigil _ _ _ _ _ sign => cases sign
    | plain _ _ _ unsigned => exact (unsigned '=' rfl).1 rfl
    | change _ body _ changed closes words =>
      obtain ⟨rfl, rfl⟩ := closes.eq_of_cut? changeEnds
      have delims : [changed.opening, changed.closing] = [['|'], ['|']] := words.symm.trans (by decide)
      simp only [List.cons.injEq, and_true] at delims
      cases more with
      | text _ _ _ untagged => exact untagged (by rw [delims.1]; decide)
      | tag _ _ _ _ run text _ _ _ _ _ opens form =>
        have custom := delims.2
        rw [delims.1] at opens
        obtain ⟨rfl, rfl⟩ := opens.eq_of_cut? opensNext
        cases form with
        | sigil _ _ _ _ _ sign => cases sign
        | plain _ _ _ unsigned => exact (unsigned '\x7b' rfl).2.1 rfl
        | triple _ _ _ standard =>
          rw [custom] at standard
          cases standard
        | braced _ _ _ _ closes ending =>
          rw [custom] at closes
          obtain ⟨rfl, rfl⟩ := closes.eq_of_cut? closesNext
          cases ending

end Markup
end Mustache
