import Mustache.Proofs.Markup.Appended
import Mustache.Proofs.Markup.Grammar
import Mustache.Proofs.Markup.Moved

/-! Sources that set the delimiters in a first line of their own. The tag in it stands alone, and what
comes after that line is read as by itself with those delimiters in force, flaws included. -/
namespace Mustache

namespace Text

theorem words_of_unbroken {text : List Char} (nonempty : text ≠ [])
    (unbroken : ∀ c ∈ text, isBlank c = false) : words text = [text] := by
  rw [words, pieces_of_unbroken unbroken]
  simp [nonempty]

theorem trim_between {before after : Char} (blank : isBlank before = true) (blank' : isBlank after = true)
    {text : List Char} (first : ∀ c ∈ text.head?, isBlank c = false)
    (last : ∀ c ∈ text.getLast?, isBlank c = false) : trim (before :: (text ++ [after])) = text := by
  have kept {text : List Char} (first : ∀ c ∈ text.head?, isBlank c = false) :
      text.dropWhile isBlank = text := by
    cases text with
    | nil => rfl
    | cons c rest => rw [List.dropWhile_cons, first c rfl, if_neg Bool.false_ne_true]
  have starts : trimStart (before :: (text ++ [after])) = (text ++ [after]).dropWhile isBlank := by
    rw [trimStart, List.dropWhile_cons, if_pos blank]
  cases text with
  | nil => simp [trim, trimEnd, trimStart, blank, blank']
  | cons c rest =>
    have first' : ∀ d ∈ (c :: rest ++ [after]).head?, isBlank d = false := fun d same => first d same
    have last' : ∀ d ∈ (c :: rest).reverse.head?, isBlank d = false := by
      rw [List.head?_reverse]
      exact last
    rw [trim, starts, kept first', trimEnd, List.reverse_append, List.reverse_singleton,
      List.singleton_append, List.dropWhile_cons, if_pos blank', kept last', List.reverse_reverse]

end Text

namespace Delimiters

/-- A first line that sets the delimiters. -/
def changeLine (d : Delimiters) : List Char := d.changeTag ++ ['\n']

/-- Where the text after that line starts. -/
def offset (d : Delimiters) : Nat := Text.byteSize d.changeLine

theorem offset_eq (d : Delimiters) : d.offset = Text.byteSize d.changeTag + 1 := by
  have newline : ('\n').utf8Size = 1 := by decide
  rw [offset, changeLine, Text.byteSize_append, Text.byteSize_cons, Text.byteSize_nil, newline]

end Delimiters

namespace Markup

/-! ### Flaws elsewhere -/

def Flaw.shift (offset : Nat) (flaw : Flaw) : Flaw := { flaw with span := flaw.span.shift offset }

/-- What is read from a text that stands further on. -/
def moved {α β : Type} (offset : Nat) (move : α → β) (read : Except Flaw α) : Except Flaw β :=
  (read.map move).mapError (Flaw.shift offset)

@[simp] theorem moved_error {α β : Type} (offset : Nat) (move : α → β) (flaw : Flaw) :
    moved offset move (.error flaw) = .error (flaw.shift offset) := rfl

@[simp] theorem moved_ok {α β : Type} (offset : Nat) (move : α → β) (a : α) :
    moved offset move (.ok a) = .ok (move a) := rfl

def Extent.shift (offset : Nat) (e : Extent) : Extent := { e with stop := e.stop + offset }

def ScannedTag.shift (offset : Nat) (t : ScannedTag) : ScannedTag :=
  { t with token := t.token.shift offset }

section

variable (d : Delimiters) (mode : Mode) (start bodyStart offset : Nat) (kind : Kind) (after : List Char)

theorem plainExtent_add : plainExtent d (start + offset) (bodyStart + offset) after =
    moved offset (Extent.shift offset) (plainExtent d start bodyStart after) := by
  unfold plainExtent
  cases Text.cut? d.closing after with
  | none => simp [Flaw.shift, Span.shift, Nat.add_right_comm]
  | some parts => simp [Extent.shift, Nat.add_right_comm]

theorem braceExtent_add : braceExtent d (start + offset) (bodyStart + offset) after =
    moved offset (Extent.shift offset) (braceExtent d start bodyStart after) := by
  have flawed (cause : Cause) (stop : Nat) :
      (Except.error ⟨cause, ⟨start + offset, stop + offset⟩⟩ : Except Flaw Extent) =
        moved offset (Extent.shift offset) (.error ⟨cause, ⟨start, stop⟩⟩) := rfl
  have found (content rest : List Char) (stop : Nat) :
      (Except.ok ⟨content, stop + offset, rest⟩ : Except Flaw Extent) =
        moved offset (Extent.shift offset) (.ok ⟨content, stop, rest⟩) := rfl
  unfold braceExtent
  cases Text.cut? d.closing after with
  | none =>
    dsimp only
    rw [Nat.add_right_comm, flawed]
  | some parts =>
    obtain ⟨body, rest⟩ := parts
    dsimp only
    rw [Nat.add_right_comm bodyStart, Nat.add_right_comm (bodyStart + _)]
    split
    · split
      · rw [Nat.add_right_comm, found]
      · rw [flawed]
    · split
      · rw [found]
      · rw [flawed]

theorem finishTag_add (e : Extent) : finishTag mode (start + offset) kind (e.shift offset) =
    moved offset (ScannedTag.shift offset) (finishTag mode start kind e) := by
  obtain ⟨content, stop, rest⟩ := e
  show finishTag mode (start + offset) kind ⟨content, stop + offset, rest⟩ = _
  unfold finishTag
  dsimp only
  by_cases nameless : content = [] ∧ kind ≠ .comment
  · rw [if_pos nameless, if_pos nameless]
    rfl
  · rw [if_neg nameless, if_neg nameless]
    rfl

theorem finishTag_bind_add {found found' : Except Flaw Extent}
    (same : found' = moved offset (Extent.shift offset) found) :
    found'.bind (finishTag mode (start + offset) kind) =
      moved offset (ScannedTag.shift offset) (found.bind (finishTag mode start kind)) := by
  subst same
  cases found with
  | error flaw => rfl
  | ok e => exact finishTag_add mode start offset kind e

theorem scanChange_add : scanChange mode (start + offset) after =
    moved offset (ScannedTag.shift offset) (scanChange mode start after) := by
  unfold scanChange
  dsimp only
  cases Text.cut? ('=' :: mode.delims.closing) after with
  | none => simp [Flaw.shift, Span.shift, Nat.add_right_comm]
  | some parts =>
    obtain ⟨body, rest⟩ := parts
    have stop : start + offset + Text.byteSize mode.delims.opening + 1 + Text.byteSize body + 1 +
        Text.byteSize mode.delims.closing = start + Text.byteSize mode.delims.opening + 1 +
        Text.byteSize body + 1 + Text.byteSize mode.delims.closing + offset := by omega
    dsimp only
    rw [stop]
    split
    · split <;> rfl
    · rfl

theorem scanTag_add : scanTag mode (start + offset) after =
    moved offset (ScannedTag.shift offset) (scanTag mode start after) := by
  unfold scanTag
  dsimp only
  rw [Nat.add_right_comm start]
  split
  · exact scanChange_add mode start offset _
  · refine finishTag_bind_add mode start offset .unescaped ?_
    rw [Nat.add_right_comm]
    exact braceExtent_add _ start _ offset _
  · split
    · refine finishTag_bind_add mode start offset _ ?_
      rw [Nat.add_right_comm]
      exact plainExtent_add _ start _ offset _
    · exact finishTag_bind_add mode start offset .escaped (plainExtent_add _ start _ offset _)
  · rfl

theorem scanFrom_of_tag {before rest : List Char}
    (cut : Text.cut? mode.delims.opening after = some (before, rest)) :
    scanFrom mode start after = (do
      let t ← scanTag mode (start + Text.byteSize before) rest
      let tokens ← scanFrom t.mode t.token.span.stop t.rest
      pure (textTokens mode.delims start before ++ t.token :: tokens)) := by
  rw [scanFrom]
  split
  · rename_i missed
    rw [cut] at missed
    cases missed
  · rename_i before' rest' found
    rw [cut] at found
    cases found
    dsimp only
    split
    · rename_i flaw failed
      rw [failed]
      rfl
    · rename_i t read
      rw [read]
      show _ = Except.bind (scanFrom t.mode t.token.span.stop t.rest) _
      split
      · rename_i flaw failed
        rw [failed]
        rfl
      · rename_i tokens scanned
        rw [scanned]
        rfl

theorem scanFrom_of_missed (missed : Text.cut? mode.delims.opening after = none) :
    scanFrom mode start after = .ok (textTokens mode.delims start after) :=
  (Scanned.text mode start after missed).scanFrom_eq

theorem scanFrom_add : scanFrom mode (start + offset) after =
    moved offset (List.map (Token.shift offset)) (scanFrom mode start after) := by
  fun_induction scanFrom mode start after with
  | case1 mode start source missed =>
    rw [scanFrom_of_missed _ _ _ missed, textTokens_add]
    rfl
  | case2 mode start source before after cut tagStart flaw failed =>
    rw [scanFrom_of_tag _ _ _ cut, Nat.add_right_comm, scanTag_add, failed]
    rfl
  | case3 mode start source before after cut tagStart t tag flaw failed ih =>
    rw [scanFrom_of_tag _ _ _ cut, Nat.add_right_comm, scanTag_add, tag]
    show Except.bind (scanFrom t.mode (t.token.span.stop + offset) t.rest) _ = _
    rw [ih, failed]
    rfl
  | case4 mode start source before after cut tagStart t tag tokens scanned ih =>
    rw [scanFrom_of_tag _ _ _ cut, Nat.add_right_comm, scanTag_add, tag]
    show Except.bind (scanFrom t.mode (t.token.span.stop + offset) t.rest) _ = _
    rw [ih, scanned, textTokens_add]
    show Except.ok _ = Except.ok _
    rw [List.map_append, List.map_cons]
    rfl

end

/-! ### The line that sets the delimiters -/

theorem cut?_newline (d : Delimiters) (text : List Char) :
    Text.cut? d.opening ('\n' :: text) =
      (Text.cut? d.opening text).map fun (before, after) => ('\n' :: before, after) := by
  have absent := newline_not_mem_opening d
  have missed : Text.cut? d.opening ['\n'] = none := by
    rw [Text.cut?_eq_none_iff]
    intro within
    obtain ⟨c, there⟩ := List.exists_mem_of_ne_nil _ d.opening_ne_nil
    have same := List.mem_singleton.1 (within.subset there)
    exact absent (same ▸ there)
  have apart : ∀ c ∈ ['\n'].getLast?, c ∉ d.opening := by
    intro c last
    cases last
    exact absent
  exact Text.cut?_append_of_missed missed apart text

theorem textTokens_newline (delims : Delimiters) (start : Nat) (text : List Char) :
    textTokens delims start ('\n' :: text) =
      ⟨.text, ⟨start, start + 1⟩, "\n", delims, "", false⟩ :: textTokens delims (start + 1) text := by
  have ended : ∀ c ∈ ['\n'].getLast?, c = '\n' := by
    intro c last
    cases last
    rfl
  exact textTokens_append delims start ['\n'] text ended

theorem scanFrom_newline (mode : Mode) (start : Nat) (text : List Char) :
    scanFrom mode start ('\n' :: text) = (scanFrom mode (start + 1) text).map
      (⟨.text, ⟨start, start + 1⟩, "\n", mode.delims, "", false⟩ :: ·) := by
  have cut := cut?_newline mode.delims text
  cases found : Text.cut? mode.delims.opening text with
  | none =>
    rw [found] at cut
    rw [scanFrom_of_missed _ _ _ cut, scanFrom_of_missed _ _ _ found, textTokens_newline]
    rfl
  | some parts =>
    obtain ⟨before, rest⟩ := parts
    rw [found] at cut
    have size : start + Text.byteSize ('\n' :: before) = start + 1 + Text.byteSize before := by
      have newline : ('\n').utf8Size = 1 := by decide
      rw [Text.byteSize_cons, newline, Nat.add_assoc]
    rw [scanFrom_of_tag _ _ _ cut, scanFrom_of_tag _ _ _ found, size, textTokens_newline]
    cases scanTag mode (start + 1 + Text.byteSize before) rest with
    | error flaw => rfl
    | ok t =>
      show Except.bind (scanFrom t.mode t.token.span.stop t.rest) _ =
        Except.map _ (Except.bind (scanFrom t.mode t.token.span.stop t.rest) _)
      cases scanFrom t.mode t.token.span.stop t.rest <;> rfl

/-- The token of the tag that sets these delimiters, at the start of a source. -/
def changeToken (d : Delimiters) : Token :=
  ⟨.delimiters, ⟨0, Text.byteSize d.changeTag⟩, .ofList (d.opening ++ ' ' :: d.closing), .default, "", true⟩

theorem words_pair (d : Delimiters) :
    Text.words (' ' :: (d.opening ++ ' ' :: d.closing ++ [' '])) = [d.opening, d.closing] := by
  have space : Text.isBlank ' ' = true := by decide
  have opening := Text.words_of_unbroken d.opening_ne_nil fun c => Delimiters.isBlank_of_mem d.opening_valid
  have closing := Text.words_of_unbroken d.closing_ne_nil fun c => Delimiters.isBlank_of_mem d.closing_valid
  have none : Text.words [] = [] := rfl
  have start := Text.words_append_cons space [] (d.opening ++ ' ' :: d.closing ++ [' '])
  rw [List.nil_append, none, List.nil_append] at start
  rw [start, Text.words_append_cons space, Text.words_append_cons space, opening, closing, none]
  rfl

/-- The tag that sets the delimiters is read as such, whatever they are. -/
theorem scanTag_changeTag (d : Delimiters) (blocks : Bool) (rest : List Char) :
    scanTag ⟨.default, blocks⟩ 0 (d.changeTag.drop 2 ++ rest) =
      .ok ⟨{ changeToken d with standalone := false }, rest, ⟨d, blocks⟩⟩ := by
  let body := ' ' :: (d.opening ++ ' ' :: d.closing ++ [' '])
  have tail : d.changeTag.drop 2 ++ rest = '=' :: (body ++ '=' :: Delimiters.default.closing ++ rest) := by
    simp [Delimiters.changeTag, Delimiters.default, body]
  have equals (text : List Char) (valid : isDelimiter text = true) : '=' ∉ text := by
    intro member
    unfold isDelimiter at valid
    rw [Bool.and_eq_true, List.all_eq_true] at valid
    exact absurd (valid.2 _ member) (by decide)
  have absent : '=' ∉ body := by
    simp [body, equals _ d.opening_valid, equals _ d.closing_valid]
  have space : Text.isBlank ' ' = true := by decide
  have trimmed : Text.trim body = d.opening ++ ' ' :: d.closing := by
    refine Text.trim_between space space ?_ ?_
    · intro c first
      obtain ⟨o, opening, whole⟩ := List.exists_cons_of_ne_nil d.opening_ne_nil
      rw [whole] at first
      cases first
      exact Delimiters.isBlank_of_mem d.opening_valid (whole ▸ List.mem_cons_self)
    · intro c last
      rw [List.getLast?_append, List.getLast?_cons] at last
      cases closing : d.closing.getLast? with
      | none => exact absurd (List.getLast?_eq_none_iff.1 closing) d.closing_ne_nil
      | some o =>
        rw [closing] at last
        cases last
        exact Delimiters.isBlank_of_mem d.closing_valid (List.mem_of_getLast? closing)
  have size : 0 + Text.byteSize Delimiters.default.opening + 1 + Text.byteSize body + 1 +
      Text.byteSize Delimiters.default.closing = Text.byteSize d.changeTag := by
    have sign : ('=').utf8Size = 1 := by decide
    simp only [body, Delimiters.changeTag, Delimiters.default, Text.byteSize_append, Text.byteSize_cons,
      Text.byteSize_nil, sign]
    omega
  rw [tail]
  show scanChange ⟨.default, blocks⟩ 0 (body ++ '=' :: Delimiters.default.closing ++ rest) = _
  rw [scanChange_eq_ok_iff.2 ⟨body, rest, d, .of_not_mem absent rest, words_pair d, rfl⟩]
  dsimp only
  rw [trimmed, size]
  rfl

theorem tidy_of_first_line {tag newline : Token} (alone : tag.kind.mayStandAlone = true)
    (text : newline.kind = .text) (blank : newline.content = "\n") (rest : List Token) :
    tidy (tag :: newline :: rest) = tag.alone [] :: tidy rest := by
  have tags : tag.isText = false := by
    rw [← Bool.not_eq_true, Token.isText_iff]
    intro same
    rw [same] at alone
    cases alone
  have texts : newline.isText = true := (Token.isText_iff newline).2 text
  have ends : newline.endsLine = true := by
    unfold Token.endsLine
    rw [texts, blank]
    rfl
  have opens : tag.endsLine = false := by
    unfold Token.endsLine
    rw [tags]
    rfl
  have grouped : lines (tag :: newline :: rest) = [tag, newline] :: lines rest := by
    simp [lines, opens, ends, consFirst]
  have lone : tidyLine [tag, newline] = [tag.alone []] := by
    have margin : ("\n".toList.all isMargin) = true := by decide
    have only : [tag, newline].filter (!·.isText) = [tag] := by simp [tags, texts]
    have others : [tag, newline].filter Token.isText = [newline] := by simp [tags, texts]
    have before : [tag, newline].takeWhile Token.isText = [] := by simp [tags]
    rw [tidyLine, only]
    dsimp only
    rw [others, before, alone, List.all_cons, blank, margin]
    rfl
  rw [tidy, grouped, List.flatMap_cons, lone]
  rfl

/-! ### Trees elsewhere -/

section

variable (offset : Nat)

def OpenRegion.shift (r : OpenRegion) : OpenRegion :=
  { r with tag := r.tag.shift offset, before := Node.shiftAll offset r.before }

def Parsing.shift (p : Parsing) : Parsing :=
  { p with enclosing := p.enclosing.map (OpenRegion.shift offset), nodes := Node.shiftAll offset p.nodes }

namespace Parsing

theorem role_shift (kind : Kind) (enclosing : List OpenRegion) :
    role kind (enclosing.map (OpenRegion.shift offset)) = role kind enclosing := by
  cases enclosing <;> cases kind <;> rfl

theorem close_cons (set : Pragmas) (inner : OpenRegion) (outer : List OpenRegion) (nodes : List Node) (tag : Token) :
    close ⟨set, inner :: outer, nodes⟩ tag =
      if inner.name.path = (tag.name set).path then
        .ok ⟨set, outer, .region (role inner.kind outer) inner.tag inner.name nodes.reverse tag :: inner.before⟩
      else .error ⟨.mismatchedClose inner.name.path (tag.name set).path, tag.span⟩ := rfl

theorem close_shift (p : Parsing) (tag : Token) :
    (p.shift offset).close (tag.shift offset) = moved offset (Parsing.shift offset) (p.close tag) := by
  obtain ⟨set, enclosing, nodes⟩ := p
  cases enclosing with
  | nil => rfl
  | cons inner outer =>
    show close ⟨set, inner.shift offset :: outer.map (OpenRegion.shift offset), Node.shiftAll offset nodes⟩ _ = _
    rw [close_cons, close_cons, ← Node.shiftAll_reverse]
    by_cases same : inner.name.path = (tag.name set).path
    · have moved : (inner.shift offset).name.path = ((tag.shift offset).name set).path := same
      have role : role (inner.shift offset).kind (outer.map (OpenRegion.shift offset)) = role inner.kind outer :=
        role_shift offset inner.kind outer
      rw [if_pos moved, if_pos same, role]
      rfl
    · have moved : (inner.shift offset).name.path ≠ ((tag.shift offset).name set).path := same
      rw [if_neg moved, if_neg same]
      rfl

theorem step_shift (p : Parsing) (tag : Token) :
    (p.shift offset).step (tag.shift offset) = moved offset (Parsing.shift offset) (p.step tag) := by
  have kind : (tag.shift offset).kind = tag.kind := rfl
  have pragma : (tag.shift offset).pragma? = tag.pragma? := rfl
  unfold step
  rw [kind, pragma]
  cases tag.kind with
  | close => exact close_shift offset p tag
  | pragma => cases tag.pragma? <;> rfl
  | text | escaped | unescaped | sectionOpen | invertedOpen | partialTag | parentOpen | blockOpen
  | comment | delimiters => rfl

theorem foldlM_shift (p : Parsing) (tokens : List Token) :
    (tokens.map (Token.shift offset)).foldlM step (p.shift offset) =
      moved offset (Parsing.shift offset) (tokens.foldlM step p) := by
  induction tokens generalizing p with
  | nil => rfl
  | cons t rest ih =>
    rw [List.map_cons, List.foldlM_cons, List.foldlM_cons, step_shift]
    cases p.step t with
    | error flaw => rfl
    | ok q => exact ih q

theorem finish_shift (p : Parsing) :
    (p.shift offset).finish = moved offset (Node.shiftAll offset) p.finish := by
  obtain ⟨set, enclosing, nodes⟩ := p
  cases enclosing with
  | nil =>
    show Except.ok (Node.shiftAll offset nodes).reverse = Except.ok (Node.shiftAll offset nodes.reverse)
    rw [Node.shiftAll_reverse]
  | cons inner outer => rfl

end Parsing

theorem nest_shift (set : Pragmas) (tokens : List Token) :
    nest set (tokens.map (Token.shift offset)) = moved offset (Node.shiftAll offset) (nest set tokens) := by
  have folded : (tokens.map (Token.shift offset)).foldlM Parsing.step (.initial set) = _ :=
    Parsing.foldlM_shift offset (.initial set) tokens
  unfold nest
  rw [folded]
  cases tokens.foldlM Parsing.step (.initial set) with
  | error flaw => rfl
  | ok p => exact Parsing.finish_shift offset p

theorem nest_cons_delimiters (set : Pragmas) {t : Token} (kind : t.kind = .delimiters) (tokens : List Token) :
    nest set (t :: tokens) = nest set tokens := by
  have step : (Parsing.initial set).step t = .ok (.initial set) := by rw [Parsing.step, kind]
  unfold nest
  rw [List.foldlM_cons, step]
  rfl

end

/-! ### What comes after the first line -/

/-- The tokens of a source at whose start these delimiters are in force. -/
def tokenizeIn (d : Delimiters) (set : Pragmas) (source : String) : Except Flaw (List Token) :=
  (scanFrom ⟨d, set.blocks⟩ 0 source.toList).map tidy

def parseIn (d : Delimiters) (set : Pragmas) (source : String) : Except Flaw (List Node) := do
  nest set (← tokenizeIn d set source)

/-- A line that sets the delimiters is read as a tag that stands alone and nothing else, and the text
after it as by itself with those delimiters in force. -/
theorem tokenize_changeLine (d : Delimiters) (set : Pragmas) (text : String) :
    tokenize set (.ofList d.changeLine ++ text) =
      moved d.offset (fun tokens => changeToken d :: tokens.map (Token.shift d.offset))
        (tokenizeIn d set text) := by
  have source : (String.ofList d.changeLine ++ text).toList =
      [] ++ Delimiters.default.opening ++ (d.changeTag.drop 2 ++ '\n' :: text.toList) := by
    simp [Delimiters.changeLine, Delimiters.changeTag, Delimiters.default]
  have cut := Text.cut?_eq_some_iff.2 ⟨source, fun _ _ _ => Nat.zero_le _⟩
  have scanned : scan set (.ofList d.changeLine ++ text) =
      ((scanFrom ⟨d, set.blocks⟩ d.offset text.toList).map
        (⟨.text, ⟨Text.byteSize d.changeTag, d.offset⟩, "\n", d, "", false⟩ :: ·)).map
          ({ changeToken d with standalone := false } :: ·) := by
    have newline := scanFrom_newline ⟨d, set.blocks⟩ (Text.byteSize d.changeTag) text.toList
    rw [← d.offset_eq] at newline
    rw [← newline, scan, scanFrom_of_tag (.initial set) 0 _ cut]
    have tag := scanTag_changeTag d set.blocks ('\n' :: text.toList)
    have start : 0 + Text.byteSize [] = 0 := rfl
    rw [start, Mode.initial, tag]
    change Except.bind (scanFrom ⟨d, set.blocks⟩ (Text.byteSize d.changeTag) ('\n' :: text.toList)) _ = _
    cases scanFrom ⟨d, set.blocks⟩ (Text.byteSize d.changeTag) ('\n' :: text.toList) <;> rfl
  have elsewhere := scanFrom_add ⟨d, set.blocks⟩ 0 d.offset text.toList
  rw [Nat.zero_add] at elsewhere
  rw [tokenize, scanned, elsewhere, tokenizeIn]
  cases scanFrom ⟨d, set.blocks⟩ 0 text.toList with
  | error flaw => rfl
  | ok tokens =>
    have tidied : tidy ({ changeToken d with standalone := false } ::
        ⟨.text, ⟨Text.byteSize d.changeTag, d.offset⟩, "\n", d, "", false⟩ ::
          tokens.map (Token.shift d.offset)) = _ := tidy_of_first_line rfl rfl rfl _
    rw [tidy_shift] at tidied
    exact congrArg Except.ok tidied

theorem parse_changeLine (d : Delimiters) (set : Pragmas) (text : String) :
    parse set (.ofList d.changeLine ++ text) = moved d.offset (Node.shiftAll d.offset) (parseIn d set text) := by
  rw [parse, parseIn, tokenize_changeLine]
  cases tokenizeIn d set text with
  | error flaw => rfl
  | ok tokens => exact (nest_cons_delimiters set rfl _).trans (nest_shift d.offset set tokens)

end Markup
end Mustache
