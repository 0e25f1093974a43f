import Mustache.Markup.Token
import Mustache.Proofs.Text.Covered
import Mustache.Proofs.Text.Search

/-! A tag is read from its own characters: what stands after it does not matter, nor does the place
where it starts, except to its span. -/
namespace Mustache

def Pragmas.insertAll (pragmas : List Pragma) (set : Pragmas) : Pragmas :=
  pragmas.foldl (fun set p => set.insert p) set

namespace Pragmas

@[simp] theorem insertAll_nil (set : Pragmas) : set.insertAll [] = set := rfl

@[simp] theorem insertAll_cons (p : Pragma) (pragmas : List Pragma) (set : Pragmas) :
    set.insertAll (p :: pragmas) = (set.insert p).insertAll pragmas := rfl

theorem insertAll_append (first second : List Pragma) (set : Pragmas) :
    set.insertAll (first ++ second) = (set.insertAll first).insertAll second :=
  List.foldl_append

theorem contains_insertAll (pragmas : List Pragma) (q : Pragma) (set : Pragmas) :
    (set.insertAll pragmas).contains q = (decide (q ∈ pragmas) || set.contains q) := by
  induction pragmas generalizing set with
  | nil => simp
  | cons p rest ih =>
    rw [insertAll_cons, ih, contains_insert]
    simp only [List.mem_cons, Bool.decide_or]
    rw [← Bool.or_assoc, Bool.or_comm (decide (q ∈ rest))]

@[ext] theorem ext_contains {a b : Pragmas} (same : ∀ p, a.contains p = b.contains p) : a = b := by
  obtain ⟨blocks, filters, anchored⟩ := a
  obtain ⟨blocks', filters', anchored'⟩ := b
  have first := same .blocks
  have second := same .filters
  have third := same .anchoredDot
  simp only [contains] at first second third
  rw [first, second, third]

theorem insertAll_eq_self {pragmas : List Pragma} {set : Pragmas}
    (present : ∀ p ∈ pragmas, set.contains p = true) : set.insertAll pragmas = set := by
  ext p
  rw [contains_insertAll]
  by_cases member : p ∈ pragmas
  · simp [member, present p member]
  · simp [member]

theorem anchoredDot_insertAll {pragmas : List Pragma} (set : Pragmas)
    (absent : Pragma.anchoredDot ∉ pragmas) :
    (set.insertAll pragmas).anchoredDot = set.anchoredDot := by
  have contained := contains_insertAll pragmas .anchoredDot set
  rwa [decide_eq_false absent, Bool.false_or] at contained

end Pragmas

namespace Markup

namespace Token

def shift (offset : Nat) (t : Token) : Token := { t with span := t.span.shift offset }

def switched? (t : Token) : Option Pragma := if t.kind = .pragma then t.pragma? else none

/-- A token as it is read, before its line is tidied. -/
structure Raw (t : Token) : Prop where
  standalone : t.standalone = false
  indent : t.indent = ""

end Token

def pragmasIn (tokens : List Token) : List Pragma := tokens.filterMap Token.switched?

theorem pragmasIn_append (first second : List Token) :
    pragmasIn (first ++ second) = pragmasIn first ++ pragmasIn second :=
  List.filterMap_append

theorem plainExtent_local {d : Delimiters} {start bodyStart : Nat} {after : List Char} {e : Extent}
    (found : plainExtent d start bodyStart after = .ok e) :
    ∃ read, after = read ++ e.rest ∧ e.stop = bodyStart + Text.byteSize read ∧
      ∀ start' bodyStart' rest, plainExtent d start' bodyStart' (read ++ rest) =
        .ok ⟨e.content, bodyStart' + Text.byteSize read, rest⟩ := by
  simp only [plainExtent] at found
  split at found
  · simp at found
  · rename_i body rest cut
    simp only [Except.ok.injEq] at found
    subst found
    refine ⟨body ++ d.closing, Text.eq_append_of_cut? cut, ?_, ?_⟩
    · simp only [Text.byteSize_append, Nat.add_assoc]
    · intro start' bodyStart' rest'
      simp only [plainExtent, Text.cut?_append_of_cut? cut rest', Text.byteSize_append,
        Nat.add_assoc]

theorem braceExtent_local {d : Delimiters} {start bodyStart : Nat} {after : List Char} {e : Extent}
    (found : braceExtent d start bodyStart after = .ok e) :
    ∃ read, after = read ++ e.rest ∧ e.stop = bodyStart + Text.byteSize read ∧
      ∀ start' bodyStart' rest, braceExtent d start' bodyStart' (read ++ rest) =
        .ok ⟨e.content, bodyStart' + Text.byteSize read, rest⟩ := by
  simp only [braceExtent] at found
  split at found
  · simp at found
  · rename_i body rest cut
    have whole := Text.eq_append_of_cut? cut
    split at found
    · rename_i closing
      split at found
      · rename_i rest
        simp only [Except.ok.injEq] at found
        subst found
        refine ⟨body ++ d.closing ++ ['\x7d'], by simp [whole], ?_, ?_⟩
        · simp only [Text.byteSize_append, Text.byteSize_cons, Text.byteSize_nil]
          have : ('\x7d').utf8Size = 1 := by decide
          omega
        · intro start' bodyStart' rest'
          have again := Text.cut?_append_of_cut? cut ('\x7d' :: rest')
          rw [List.append_assoc, List.singleton_append]
          simp only [braceExtent, again, if_pos closing, Text.byteSize_append, Text.byteSize_cons,
            Text.byteSize_nil]
          have : ('\x7d').utf8Size = 1 := by decide
          simp only [this, Nat.add_assoc]
      · simp at found
    · rename_i closing
      split at found
      · rename_i ends
        simp only [Except.ok.injEq] at found
        subst found
        refine ⟨body ++ d.closing, whole, ?_, ?_⟩
        · simp only [Text.byteSize_append, Nat.add_assoc]
        · intro start' bodyStart' rest'
          simp only [braceExtent, Text.cut?_append_of_cut? cut rest', if_neg closing, if_pos ends,
            Text.byteSize_append, Nat.add_assoc]
      · simp at found

theorem finishTag_eq {mode : Mode} {start : Nat} {kind : Kind} {e : Extent} {t : ScannedTag}
    (finished : finishTag mode start kind e = .ok t) :
    t = ⟨⟨kind, ⟨start, e.stop⟩, .ofList e.content, mode.delims, "", false⟩, e.rest, t.mode⟩ ∧
      t.mode.delims = mode.delims ∧
      t.mode.blocks = (mode.blocks || decide (t.token.switched? = some .blocks)) ∧
      ∀ start' stop' rest', finishTag mode start' kind ⟨e.content, stop', rest'⟩ =
        .ok ⟨⟨kind, ⟨start', stop'⟩, .ofList e.content, mode.delims, "", false⟩, rest', t.mode⟩ := by
  simp only [finishTag] at finished
  split at finished
  · simp at finished
  · rename_i allowed
    simp only [Except.ok.injEq] at finished
    subst finished
    refine ⟨rfl, rfl, ?_, ?_⟩
    · simp only [Token.switched?]
      by_cases isPragma : kind = .pragma
      · simp [isPragma]
      · simp [isPragma]
    · intro start' stop' rest'
      simp only [finishTag, if_neg allowed]
      rfl

/-- What reading a tag depends on and what it leaves: its characters after the opening delimiter,
and the mode that it changes. -/
structure TagRead (mode : Mode) (start : Nat) (after : List Char) (t : ScannedTag)
    (read : List Char) : Prop where
  whole : after = read ++ t.rest
  span : t.token.span = ⟨start, start + Text.byteSize (mode.delims.opening ++ read)⟩
  delims : t.token.delims = mode.delims
  kind : t.token.kind ≠ .text
  raw : t.token.Raw
  blocks : t.mode.blocks = (mode.blocks || decide (t.token.switched? = some .blocks))
  keeps : t.token.kind ≠ .delimiters → t.mode.delims = mode.delims
  anywhere : ∀ start' rest, scanTag mode start' (read ++ rest) = .ok
    ⟨{ t.token with span := ⟨start', start' + Text.byteSize (mode.delims.opening ++ read)⟩ },
      rest, t.mode⟩

theorem TagRead.blocks_eq {mode : Mode} {start : Nat} {after : List Char} {t : ScannedTag}
    {read : List Char} (tag : TagRead mode start after t read) {set : Pragmas}
    (blocks : mode.blocks = set.blocks) :
    t.mode.blocks = (set.insertAll (pragmasIn [t.token])).blocks := by
  rw [tag.blocks, blocks]
  simp only [pragmasIn, List.filterMap_cons, List.filterMap_nil]
  cases t.token.switched? with
  | none => simp
  | some p => cases p <;> simp [Pragmas.insert]

theorem tagRead_scanChange {mode : Mode} {start : Nat} {after : List Char} {t : ScannedTag}
    (scanned : scanChange mode start after = .ok t) :
    ∃ read, TagRead mode start ('=' :: after) t ('=' :: read) := by
  simp only [scanChange] at scanned
  split at scanned
  · simp at scanned
  · rename_i body rest cut
    have whole := Text.eq_append_of_cut? cut
    have sign : ('=').utf8Size = 1 := by decide
    split at scanned
    · rename_i opening closing words
      split at scanned
      · rename_i changed valid
        simp only [Except.ok.injEq] at scanned
        subst scanned
        refine ⟨body ++ '=' :: mode.delims.closing, ?_⟩
        exact {
          whole := by simp [whole]
          span := by
            simp only [Text.byteSize_append, Text.byteSize_cons, sign]
            congr 1
            omega
          delims := rfl
          kind := by simp
          raw := ⟨rfl, rfl⟩
          blocks := by simp [Token.switched?]
          keeps := fun other => absurd rfl other
          anywhere := by
            intro start' rest'
            have again := Text.cut?_append_of_cut? cut rest'
            rw [List.cons_append, scanTag, scanChange]
            simp only [again, words, valid, Text.byteSize_append, Text.byteSize_cons, sign]
            congr 4
            omega }
      · simp at scanned
    · simp at scanned

/-- A tag whose extent was found after a sigil, `front`, that has one or no character. -/
theorem tagRead_finishTag (front : List Char) {mode : Mode} {start : Nat} {kind : Kind}
    {after read : List Char} {e : Extent} {t : ScannedTag} (notText : kind ≠ .text)
    (whole : after = read ++ e.rest)
    (stop : e.stop =
      start + Text.byteSize mode.delims.opening + Text.byteSize front + Text.byteSize read)
    (again : ∀ start' rest', scanTag mode start' (front ++ read ++ rest') =
      finishTag mode start' kind ⟨e.content,
        start' + Text.byteSize mode.delims.opening + Text.byteSize front + Text.byteSize read,
        rest'⟩)
    (finished : finishTag mode start kind e = .ok t) :
    TagRead mode start (front ++ after) t (front ++ read) := by
  obtain ⟨same, delims, blocks, anywhere⟩ := finishTag_eq finished
  have rest : t.rest = e.rest := by rw [same]
  have token : t.token = ⟨kind, ⟨start, e.stop⟩, .ofList e.content, mode.delims, "", false⟩ := by
    rw [same]
  have far (start' : Nat) :
      start' + Text.byteSize mode.delims.opening + Text.byteSize front + Text.byteSize read =
        start' + Text.byteSize (mode.delims.opening ++ (front ++ read)) := by
    simp only [Text.byteSize_append]
    omega
  exact {
    whole := by rw [rest, whole, List.append_assoc]
    span := by rw [token, stop, far]
    delims := by rw [token]
    kind := by rw [token]; exact notText
    raw := by rw [token]; exact ⟨rfl, rfl⟩
    blocks := blocks
    keeps := fun _ => delims
    anywhere := by
      intro start' rest'
      rw [again, anywhere, token, far] }

theorem Kind.ofSigil?_ne_text {blocks : Bool} {c : Char} {kind : Kind}
    (found : Kind.ofSigil? blocks c = some kind) : kind ≠ .text := by
  unfold Kind.ofSigil? at found
  split at found
  case h_6 =>
    split at found
    · simp only [Option.some.injEq] at found
      subst found
      decide
    · cases found
  case h_10 => cases found
  all_goals
    simp only [Option.some.injEq] at found
    subst found
    decide

theorem tagRead_scanTag {mode : Mode} {start : Nat} {after : List Char} {t : ScannedTag}
    (scanned : scanTag mode start after = .ok t) : ∃ read, TagRead mode start after t read := by
  unfold scanTag at scanned
  split at scanned
  · obtain ⟨read, done⟩ := tagRead_scanChange scanned
    exact ⟨_, done⟩
  · rename_i rest
    cases found : braceExtent mode.delims start
        (start + Text.byteSize mode.delims.opening + 1) rest with
    | error flaw => simp [found, Except.bind] at scanned
    | ok e =>
      simp only [found, Except.bind] at scanned
      obtain ⟨read, whole, stop, again⟩ := braceExtent_local found
      refine ⟨_, tagRead_finishTag ['\x7b'] (by decide) whole stop ?_ scanned⟩
      intro start' rest'
      simp only [List.cons_append, List.nil_append, scanTag, again, Except.bind]
      rfl
  · rename_i c rest notEquals notBrace
    split at scanned
    · rename_i kind sigil
      cases found : plainExtent mode.delims start
          (start + Text.byteSize mode.delims.opening + c.utf8Size) rest with
      | error flaw => simp [found, Except.bind] at scanned
      | ok e =>
        simp only [found, Except.bind] at scanned
        obtain ⟨read, whole, stop, again⟩ := plainExtent_local found
        refine ⟨_, tagRead_finishTag [c] (Kind.ofSigil?_ne_text sigil) whole stop ?_ scanned⟩
        intro start' rest'
        rw [List.cons_append, List.cons_append, List.nil_append, scanTag]
        · simp only [sigil, again, Except.bind, Text.byteSize_cons, Text.byteSize_nil, Nat.add_zero]
        · exact notEquals
        · exact notBrace
    · rename_i plain
      cases found : plainExtent mode.delims start
          (start + Text.byteSize mode.delims.opening) (c :: rest) with
      | error flaw => simp [found, Except.bind] at scanned
      | ok e =>
        simp only [found, Except.bind] at scanned
        obtain ⟨read, whole, stop, again⟩ := plainExtent_local found
        -- The closing delimiter is part of what is read, so there is a first character.
        cases read with
        | nil =>
          exfalso
          have := length_rest_plainExtent found
          rw [whole, List.nil_append] at this
          omega
        | cons d read =>
          have first : c = d := by
            rw [List.cons_append, List.cons.injEq] at whole
            exact whole.1
          subst first
          refine ⟨_, tagRead_finishTag [] (by decide) whole stop ?_ scanned⟩
          intro start' rest'
          have here := again start' (start' + Text.byteSize mode.delims.opening) rest'
          rw [List.cons_append] at here
          rw [List.nil_append, List.cons_append, scanTag]
          · simp only [plain, here, Except.bind, Text.byteSize_nil, Nat.add_zero]
          · exact notEquals
          · exact notBrace
  · simp at scanned

end Markup
end Mustache
