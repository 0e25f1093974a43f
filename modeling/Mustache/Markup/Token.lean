import Mustache.Delimiters
import Mustache.Error
import Mustache.Pragma
import Mustache.Text.Cut

/-! Template source as text and tags. A text ends at a line feed or where the delimiter that opens
a tag is found first; a tag ends where the delimiter that closes one is found first. -/
namespace Mustache.Markup

inductive Kind
  | text
  | escaped
  | unescaped
  | sectionOpen
  | invertedOpen
  | close
  | partialTag
  | parentOpen
  | blockOpen
  | comment
  | pragma
  | delimiters
  deriving DecidableEq, Repr

/-- The character after the opening delimiter tells the kind of most tags. -/
def Kind.ofSigil? (blocks : Bool) : Char → Option Kind
  | '#' => some sectionOpen
  | '^' => some invertedOpen
  | '/' => some close
  | '>' => some partialTag
  | '<' => some parentOpen
  | '$' => if blocks then some blockOpen else none
  | '!' => some comment
  | '%' => some pragma
  | '&' => some unescaped
  | _ => none

structure Token where
  kind : Kind
  /-- The whole tag with its delimiters, or the text. -/
  span : Span
  /-- The trimmed content of a tag after its sigil, or the text itself. -/
  content : String
  /-- The delimiters in force where the token starts. -/
  delims : Delimiters
  /-- The blanks before a partial or parent that stands alone on its line. -/
  indent : String := ""
  /-- Whether the tag's line was removed around it. -/
  standalone : Bool := false
  deriving DecidableEq

namespace Token

def words (t : Token) : List String :=
  (Text.words t.content.toList).map String.ofList

def pragma? (t : Token) : Option Pragma :=
  t.words.head?.bind Pragma.ofName?

end Token

structure Flaw where
  cause : Cause
  span : Span
  deriving DecidableEq

/-- What decides how the next tag is read. -/
structure Mode where
  delims : Delimiters
  blocks : Bool
  deriving DecidableEq

def Mode.initial (pragmas : Pragmas) : Mode := ⟨.default, pragmas.blocks⟩

structure ScannedTag where
  token : Token
  rest : List Char
  mode : Mode

/-- One text token for each line, the line feed included. -/
def linesFrom (delims : Delimiters) (start : Nat) (line : List Char) : List Char → List Token
  | [] =>
    if line.isEmpty then []
    else [⟨.text, ⟨start, start + Text.byteSize line⟩, .ofList line.reverse, delims, "", false⟩]
  | c :: rest =>
    if c = '\n' then
      ⟨.text, ⟨start, start + Text.byteSize (c :: line)⟩, .ofList (c :: line).reverse, delims, "",
        false⟩ :: linesFrom delims (start + Text.byteSize (c :: line)) [] rest
    else linesFrom delims start (c :: line) rest

def textTokens (delims : Delimiters) (start : Nat) (text : List Char) : List Token :=
  linesFrom delims start [] text

/-- Reads `after`, the characters after the equals sign of a delimiter change at `start`. -/
def scanChange (mode : Mode) (start : Nat) (after : List Char) : Except Flaw ScannedTag :=
  let d := mode.delims
  let bodyStart := start + Text.byteSize d.opening + 1
  match Text.cut? ('=' :: d.closing) after with
  | none => .error ⟨.unclosedTag, ⟨start, start + Text.byteSize d.opening⟩⟩
  | some (body, rest) =>
    let span : Span := ⟨start, bodyStart + Text.byteSize body + 1 + Text.byteSize d.closing⟩
    match Text.words body with
    | [opening, closing] =>
      match Delimiters.ofWords? opening closing with
      | some changed =>
        .ok ⟨⟨.delimiters, span, .ofList (Text.trim body), d, "", false⟩, rest,
          { mode with delims := changed }⟩
      | none => .error ⟨.invalidDelimiters, span⟩
    | _ => .error ⟨.invalidDelimiters, span⟩

structure Extent where
  content : List Char
  stop : Nat
  rest : List Char

/-- Finds the end of an unescaped tag in braces, from the place after its brace. -/
def braceExtent (d : Delimiters) (start bodyStart : Nat) (after : List Char) :
    Except Flaw Extent :=
  match Text.cut? d.closing after with
  | none => .error ⟨.unclosedTag, ⟨start, start + Text.byteSize d.opening⟩⟩
  | some (body, rest) =>
    let stop := bodyStart + Text.byteSize body + Text.byteSize d.closing
    if d.closing = ['\x7d', '\x7d'] then
      match rest with
      | '\x7d' :: rest => .ok ⟨Text.trim body, stop + 1, rest⟩
      | _ => .error ⟨.unclosedTriple, ⟨start, stop⟩⟩
    else
      let content := Text.trim body
      if content.getLast? = some '\x7d' then .ok ⟨Text.trimEnd content.dropLast, stop, rest⟩
      else .error ⟨.unclosedBrace, ⟨start, stop⟩⟩

def plainExtent (d : Delimiters) (start bodyStart : Nat) (after : List Char) :
    Except Flaw Extent :=
  match Text.cut? d.closing after with
  | none => .error ⟨.unclosedTag, ⟨start, start + Text.byteSize d.opening⟩⟩
  | some (body, rest) =>
    .ok ⟨Text.trim body, bodyStart + Text.byteSize body + Text.byteSize d.closing, rest⟩

/-- Only a comment may be empty, and the pragma for blocks changes how tags are read. -/
def finishTag (mode : Mode) (start : Nat) (kind : Kind) (e : Extent) : Except Flaw ScannedTag :=
  let span : Span := ⟨start, e.stop⟩
  if e.content = [] ∧ kind ≠ .comment then .error ⟨.emptyTag, span⟩
  else
    let token : Token := ⟨kind, span, .ofList e.content, mode.delims, "", false⟩
    let blocks := mode.blocks || (kind = .pragma && token.pragma? = some .blocks)
    .ok ⟨token, e.rest, { mode with blocks }⟩

/-- Reads the tag whose opening delimiter is at `start`, from the characters after that. -/
def scanTag (mode : Mode) (start : Nat) (after : List Char) : Except Flaw ScannedTag :=
  let bodyStart := start + Text.byteSize mode.delims.opening
  match after with
  | '=' :: rest => scanChange mode start rest
  | '\x7b' :: rest =>
    (braceExtent mode.delims start (bodyStart + 1) rest).bind (finishTag mode start .unescaped)
  | c :: rest =>
    match Kind.ofSigil? mode.blocks c with
    | some kind =>
      (plainExtent mode.delims start (bodyStart + c.utf8Size) rest).bind (finishTag mode start kind)
    | none => (plainExtent mode.delims start bodyStart after).bind (finishTag mode start .escaped)
  | [] => .error ⟨.unclosedTag, ⟨start, bodyStart⟩⟩

theorem length_rest_scanChange {mode : Mode} {start : Nat} {after : List Char} {t : ScannedTag}
    (scanned : scanChange mode start after = .ok t) : t.rest.length < after.length := by
  simp only [scanChange] at scanned
  split at scanned
  · simp at scanned
  · rename_i body rest found
    have shorter := Text.length_lt_of_cut? (by simp) found
    split at scanned
    · split at scanned
      · simp only [Except.ok.injEq] at scanned
        subst scanned
        exact shorter
      · simp at scanned
    · simp at scanned

theorem length_rest_braceExtent {d : Delimiters} {start bodyStart : Nat} {after : List Char}
    {e : Extent} (found : braceExtent d start bodyStart after = .ok e) :
    e.rest.length < after.length := by
  simp only [braceExtent] at found
  split at found
  · simp at found
  · rename_i body rest cut
    have shorter := Text.length_lt_of_cut? d.closing_ne_nil cut
    split at found
    · split at found
      · simp only [Except.ok.injEq] at found
        subst found
        simp only [List.length_cons] at shorter
        simp only
        omega
      · simp at found
    · split at found
      · simp only [Except.ok.injEq] at found
        subst found
        exact shorter
      · simp at found

theorem length_rest_plainExtent {d : Delimiters} {start bodyStart : Nat} {after : List Char}
    {e : Extent} (found : plainExtent d start bodyStart after = .ok e) :
    e.rest.length < after.length := by
  simp only [plainExtent] at found
  split at found
  · simp at found
  · rename_i body rest cut
    simp only [Except.ok.injEq] at found
    subst found
    exact Text.length_lt_of_cut? d.closing_ne_nil cut

theorem rest_finishTag {mode : Mode} {start : Nat} {kind : Kind} {e : Extent} {t : ScannedTag}
    (finished : finishTag mode start kind e = .ok t) : t.rest = e.rest := by
  simp only [finishTag] at finished
  split at finished
  · simp at finished
  · simp only [Except.ok.injEq] at finished
    subst finished
    rfl

theorem length_rest_bind {found : Except Flaw Extent} {mode : Mode} {start n : Nat} {kind : Kind}
    {t : ScannedTag} (bound : ∀ e, found = .ok e → e.rest.length < n)
    (scanned : found.bind (finishTag mode start kind) = .ok t) : t.rest.length < n := by
  cases found with
  | error flaw => simp [Except.bind] at scanned
  | ok e =>
    rw [rest_finishTag scanned]
    exact bound e rfl

/-- A tag takes at least its closing delimiter. -/
theorem length_rest_scanTag {mode : Mode} {start : Nat} {after : List Char} {t : ScannedTag}
    (scanned : scanTag mode start after = .ok t) : t.rest.length < after.length := by
  simp only [scanTag] at scanned
  split at scanned
  · have := length_rest_scanChange scanned
    simp only [List.length_cons]
    omega
  · have := length_rest_bind (fun _ h => length_rest_braceExtent h) scanned
    simp only [List.length_cons]
    omega
  · split at scanned
    · have := length_rest_bind (fun _ h => length_rest_plainExtent h) scanned
      simp only [List.length_cons]
      omega
    · exact length_rest_bind (fun _ h => length_rest_plainExtent h) scanned
  · simp at scanned

/-- The tokens of the characters from offset `start` on, before lines are tidied. -/
def scanFrom (mode : Mode) (start : Nat) (source : List Char) : Except Flaw (List Token) :=
  match _cut : Text.cut? mode.delims.opening source with
  | none => .ok (textTokens mode.delims start source)
  | some (before, after) =>
    let tagStart := start + Text.byteSize before
    match _tag : scanTag mode tagStart after with
    | .error flaw => .error flaw
    | .ok t =>
      match scanFrom t.mode t.token.span.stop t.rest with
      | .error flaw => .error flaw
      | .ok tokens => .ok (textTokens mode.delims start before ++ t.token :: tokens)
  termination_by source.length
  decreasing_by
    have := Text.length_lt_of_cut? mode.delims.opening_ne_nil _cut
    have := length_rest_scanTag _tag
    omega

def scan (pragmas : Pragmas) (source : String) : Except Flaw (List Token) :=
  scanFrom (.initial pragmas) 0 source.toList

end Mustache.Markup
