import Mustache.Proofs.Error.Framed
import Mustache.Proofs.Markup.Tidied

/-! Where the flaws of a source are. A tag that cannot be read is pointed at from its opening delimiter
on, and one that is not nested by its own span. All of them are of its syntax. -/
namespace Mustache.Markup

/-- A flaw of a tag that starts at an offset, with the characters after its opening delimiter that are
part of what is pointed at. -/
def Flaw.Reads (d : Delimiters) (start : Nat) (after : List Char) (flaw : Flaw) : Prop :=
  ∃ read rest, after = read ++ rest ∧ flaw.span = ⟨start, start + Text.byteSize (d.opening ++ read)⟩

namespace Flaw.Reads

variable {d : Delimiters} {start : Nat} {after : List Char} {flaw : Flaw}

theorem opening (cause : Cause) (d : Delimiters) (start : Nat) (after : List Char) :
    Reads d start after ⟨cause, ⟨start, start + Text.byteSize d.opening⟩⟩ :=
  ⟨[], after, rfl, by rw [List.append_nil]⟩

theorem front (front : List Char) {read rest : List Char} (whole : after = read ++ rest)
    (span : flaw.span = ⟨start, start + Text.byteSize d.opening + Text.byteSize front + Text.byteSize read⟩) :
    Reads d start (front ++ after) flaw := by
  refine ⟨front ++ read, rest, by rw [whole, List.append_assoc], ?_⟩
  rw [span]
  simp only [Text.byteSize_append, Nat.add_assoc]

end Flaw.Reads

theorem reads_of_scanChange {mode : Mode} {start : Nat} {after : List Char} {flaw : Flaw}
    (failed : scanChange mode start after = .error flaw) :
    flaw.Reads mode.delims start ('=' :: after) := by
  have sign : ('=').utf8Size = 1 := by decide
  simp only [scanChange] at failed
  split at failed
  · cases failed
    exact .opening _ _ _ _
  · rename_i body rest cut
    have whole := Text.eq_append_of_cut? cut
    have invalid (cause : Cause) : Flaw.Reads mode.delims start ('=' :: after) ⟨cause, ⟨start,
        start + Text.byteSize mode.delims.opening + 1 + Text.byteSize body + 1 +
          Text.byteSize mode.delims.closing⟩⟩ := by
      refine .front ['='] whole ?_
      simp only [Text.byteSize_append, Text.byteSize_cons, Text.byteSize_nil, sign, Span.mk.injEq,
        true_and]
      omega
    split at failed
    · split at failed
      · cases failed
      · cases failed
        exact invalid _
    · cases failed
      exact invalid _

theorem reads_of_braceExtent {d : Delimiters} {start : Nat} {after : List Char} {flaw : Flaw}
    (failed : braceExtent d start (start + Text.byteSize d.opening + 1) after = .error flaw) :
    flaw.Reads d start ('\x7b' :: after) := by
  have brace : ('\x7b').utf8Size = 1 := by decide
  simp only [braceExtent] at failed
  split at failed
  · cases failed
    exact .opening _ _ _ _
  · rename_i body rest cut
    have whole := Text.eq_append_of_cut? cut
    have unclosed (cause : Cause) : Flaw.Reads d start ('\x7b' :: after) ⟨cause, ⟨start,
        start + Text.byteSize d.opening + 1 + Text.byteSize body + Text.byteSize d.closing⟩⟩ := by
      refine .front ['\x7b'] whole ?_
      simp only [Text.byteSize_append, Text.byteSize_cons, Text.byteSize_nil, brace, Span.mk.injEq,
        true_and]
      omega
    split at failed
    · split at failed
      · cases failed
      · cases failed
        exact unclosed _
    · split at failed
      · cases failed
      · cases failed
        exact unclosed _

theorem reads_of_plainExtent {d : Delimiters} {start bodyStart : Nat} {after whole : List Char}
    {flaw : Flaw} (failed : plainExtent d start bodyStart after = .error flaw) :
    flaw.Reads d start whole := by
  simp only [plainExtent] at failed
  split at failed
  · cases failed
    exact .opening _ _ _ _
  · cases failed

/-- A tag fails to be read by its extent or, if it is empty, as a whole. -/
theorem of_finishTag {found : Except Flaw Extent} {mode : Mode} {start : Nat} {kind : Kind} {flaw : Flaw}
    (failed : found.bind (finishTag mode start kind) = .error flaw) :
    found = .error flaw ∨ ∃ e, found = .ok e ∧ flaw.span = ⟨start, e.stop⟩ := by
  cases found with
  | error other => exact .inl (by cases failed; rfl)
  | ok e =>
    right
    refine ⟨e, rfl, ?_⟩
    have failed : finishTag mode start kind e = .error flaw := failed
    simp only [finishTag] at failed
    split at failed
    · cases failed
      rfl
    · cases failed

theorem reads_of_scanTag {mode : Mode} {start : Nat} {after : List Char} {flaw : Flaw}
    (failed : scanTag mode start after = .error flaw) : flaw.Reads mode.delims start after := by
  unfold scanTag at failed
  split at failed
  · exact reads_of_scanChange failed
  · rename_i rest
    rcases of_finishTag failed with unread | ⟨e, found, span⟩
    · exact reads_of_braceExtent unread
    · obtain ⟨read, whole, stop, -⟩ := braceExtent_local found
      exact .front ['\x7b'] whole (by rw [span, stop]; rfl)
  · rename_i c rest _ _
    split at failed
    · rcases of_finishTag failed with unread | ⟨e, found, span⟩
      · exact reads_of_plainExtent unread
      · obtain ⟨read, whole, stop, -⟩ := plainExtent_local found
        exact .front [c] whole (by rw [span, stop]; rfl)
    · rcases of_finishTag failed with unread | ⟨e, found, span⟩
      · exact reads_of_plainExtent unread
      · obtain ⟨read, whole, stop, -⟩ := plainExtent_local found
        exact .front [] whole (by rw [span, stop]; rfl)
  · cases failed
    exact .opening _ _ _ _

/-- What is wrong with a text is wrong with a part of it. -/
theorem covers_of_scanFrom {mode : Mode} {start : Nat} {source : List Char} {flaw : Flaw}
    (failed : scanFrom mode start source = .error flaw) :
    ∃ before part after, source = before ++ part ++ after ∧ part ≠ [] ∧
      flaw.span = ⟨start + Text.byteSize before, start + Text.byteSize (before ++ part)⟩ := by
  fun_induction scanFrom mode start source with
  | case1 mode start source missed => cases failed
  | case2 mode start source before after cut tagStart other unread =>
    cases failed
    obtain ⟨read, rest, rfl, span⟩ := reads_of_scanTag unread
    refine ⟨before, mode.delims.opening ++ read, rest, ?_, ?_, ?_⟩
    · rw [Text.eq_append_of_cut? cut]
      simp
    · simp [mode.delims.opening_ne_nil]
    · rw [span, Text.byteSize_append before, Nat.add_assoc]
  | case3 mode start source before after cut tagStart t tag other later ih =>
    cases failed
    obtain ⟨read, read'⟩ := tagRead_scanTag tag
    obtain ⟨front, part, rest, whole, some, span⟩ := ih later
    have stop : t.token.span.stop =
        start + Text.byteSize (before ++ mode.delims.opening ++ read) := by
      rw [read'.span]
      simp only [Text.byteSize_append]
      omega
    refine ⟨before ++ mode.delims.opening ++ read ++ front, part, rest, ?_, some, ?_⟩
    · rw [Text.eq_append_of_cut? cut, read'.whole, whole]
      simp
    · rw [span, stop]
      simp only [Text.byteSize_append, Nat.add_assoc]
  | case4 => cases failed

/-! ### Nesting -/

namespace Parsing

variable {spans : Span → Prop} {p : Parsing} {t : Token} {flaw : Flaw}

/-- The tags that wait for their closing tags are among some. -/
def Among (spans : Span → Prop) (p : Parsing) : Prop := ∀ region ∈ p.enclosing, spans region.tag.span

theorem Among.step (among : p.Among spans) (here : spans t.span) :
    (∀ p', p.step t = .ok p' → p'.Among spans) ∧ ∀ flaw, p.step t = .error flaw → spans flaw.span := by
  unfold Parsing.step
  cases t.kind with
  | close =>
    dsimp only
    unfold close
    cases enclosing : p.enclosing with
    | nil =>
      refine ⟨?_, ?_⟩
      · rintro p' ⟨⟩
      · rintro flaw ⟨⟩
        exact here
    | cons inner outer =>
      dsimp only
      split
      · refine ⟨?_, ?_⟩
        · rintro p' ⟨⟩ region member
          exact among region (by rw [enclosing]; exact List.mem_cons_of_mem inner member)
        · rintro flaw ⟨⟩
      · refine ⟨?_, ?_⟩
        · rintro p' ⟨⟩
        · rintro flaw ⟨⟩
          exact here
  | sectionOpen | invertedOpen | parentOpen | blockOpen =>
    refine ⟨?_, ?_⟩
    · rintro p' ⟨⟩
      exact List.forall_mem_cons.2 ⟨here, among⟩
    · rintro flaw ⟨⟩
  | pragma =>
    dsimp only
    refine ⟨?_, ?_⟩
    · intro p' stepped
      split at stepped <;> cases stepped <;> exact among
    · intro flaw failed
      split at failed <;> cases failed
  | _ =>
    refine ⟨?_, ?_⟩
    · rintro p' ⟨⟩
      exact among
    · rintro flaw ⟨⟩

theorem Among.finish (among : p.Among spans) (failed : p.finish = .error flaw) : spans flaw.span := by
  unfold Parsing.finish at failed
  split at failed
  · cases failed
  · rename_i inner outer enclosing
    cases failed
    exact among inner (by rw [enclosing]; exact List.mem_cons_self)

/-- What is wrong with a list of tokens is wrong at one of them, or at the end. -/
theorem flaw_of_run (kept : Parsing → Prop) (wrong : Flaw → Prop) {tokens : List Token}
    (steps : ∀ t ∈ tokens, ∀ p, kept p →
      (∀ p', p.step t = .ok p' → kept p') ∧ ∀ flaw, p.step t = .error flaw → wrong flaw)
    (ends : ∀ p, kept p → ∀ flaw, p.finish = .error flaw → wrong flaw) (start : kept p)
    (failed : (do (← tokens.foldlM Parsing.step p).finish) = .error flaw) : wrong flaw := by
  induction tokens generalizing p with
  | nil => exact ends p start flaw failed
  | cons t rest ih =>
    obtain ⟨first, later⟩ := List.forall_mem_cons.1 steps
    obtain ⟨goes, fails⟩ := first p start
    rw [List.foldlM_cons] at failed
    cases stepped : p.step t with
    | error other =>
      rw [stepped] at failed
      cases failed
      exact fails _ stepped
    | ok p' =>
      rw [stepped] at failed
      exact ih later (goes p' stepped) failed

theorem Among.run {tokens : List Token} (among : p.Among spans) (here : ∀ t ∈ tokens, spans t.span)
    (failed : (do (← tokens.foldlM Parsing.step p).finish) = .error flaw) : spans flaw.span :=
  flaw_of_run (Among spans) (spans ·.span) (fun t member _ among => among.step (here t member))
    (fun _ among _ => among.finish) among failed

theorem syntactic_of_step (failed : p.step t = .error flaw) : flaw.cause.kind = .syntactic := by
  unfold Parsing.step at failed
  cases kind : t.kind with
  | close =>
    rw [kind] at failed
    dsimp only at failed
    unfold close at failed
    split at failed
    · cases failed
      rfl
    · dsimp only at failed
      split at failed <;> cases failed
      rfl
  | pragma =>
    rw [kind] at failed
    dsimp only at failed
    split at failed <;> cases failed
  | _ =>
    rw [kind] at failed
    cases failed

theorem syntactic_of_finish (failed : p.finish = .error flaw) : flaw.cause.kind = .syntactic := by
  unfold Parsing.finish at failed
  split at failed <;> cases failed
  rfl

end Parsing

theorem Scanned.marks {mode : Mode} {source : String} {tokens : List Token}
    (scanned : Scanned mode 0 source.toList tokens) {t : Token} (member : t ∈ tidy tokens) :
    t.span.Marks source := by
  obtain ⟨u, there, like⟩ := (thinned_tidy tokens).mem member
  obtain ⟨span, part, nonempty, place, covers⟩ := scanned.tiled.covers there
  rw [like.span, place]
  exact Span.Covers.marks covers nonempty

/-- A source that cannot be read is pointed at, and not only at its end. -/
theorem marks_of_parse {set : Pragmas} {source : String} {flaw : Flaw}
    (failed : parse set source = .error flaw) : flaw.span.Marks source := by
  cases scanned : scan set source with
  | error other =>
    have same : parse set source = .error other := by
      unfold parse tokenize
      rw [scanned]
      rfl
    cases same.symm.trans failed
    obtain ⟨before, part, after, whole, some, span⟩ := covers_of_scanFrom scanned
    rw [Nat.zero_add, Nat.zero_add] at span
    exact Span.Covers.marks ⟨before, after, whole, by rw [span], by rw [span, Text.byteSize_append]⟩ some
  | ok tokens =>
    have nested : nest set (tidy tokens) = .error flaw := by
      rw [← failed]
      unfold parse tokenize
      rw [scanned]
      rfl
    have start : (Parsing.initial set).Among fun span => span.Marks source := by
      rintro region ⟨⟩
    exact start.run (fun t member => (scanned_of_scanFrom scanned).marks member) nested

/-! ### Kinds -/

theorem syntactic_of_finishTag {found : Except Flaw Extent} {mode : Mode} {start : Nat} {kind : Kind} {flaw : Flaw}
    (unread : ∀ other, found = .error other → other.cause.kind = .syntactic)
    (failed : found.bind (finishTag mode start kind) = .error flaw) : flaw.cause.kind = .syntactic := by
  cases found with
  | error other =>
    cases failed
    exact unread _ rfl
  | ok e =>
    have failed : finishTag mode start kind e = .error flaw := failed
    simp only [finishTag] at failed
    split at failed <;> cases failed
    rfl

theorem syntactic_of_scanTag {mode : Mode} {start : Nat} {after : List Char} {flaw : Flaw}
    (failed : scanTag mode start after = .error flaw) : flaw.cause.kind = .syntactic := by
  have plain {bodyStart : Nat} {text : List Char} {other : Flaw}
      (unread : plainExtent mode.delims start bodyStart text = .error other) : other.cause.kind = .syntactic := by
    simp only [plainExtent] at unread
    split at unread <;> cases unread
    rfl
  unfold scanTag at failed
  split at failed
  · simp only [scanChange] at failed
    split at failed
    · cases failed
      rfl
    · split at failed
      · split at failed <;> cases failed
        rfl
      · cases failed
        rfl
  · refine syntactic_of_finishTag (fun other unread => ?_) failed
    simp only [braceExtent] at unread
    split at unread
    · cases unread
      rfl
    · split at unread <;> split at unread <;> cases unread <;> rfl
  · split at failed
    · exact syntactic_of_finishTag (fun _ => plain) failed
    · exact syntactic_of_finishTag (fun _ => plain) failed
  · cases failed
    rfl

theorem syntactic_of_scanFrom {mode : Mode} {start : Nat} {source : List Char} {flaw : Flaw}
    (failed : scanFrom mode start source = .error flaw) : flaw.cause.kind = .syntactic := by
  fun_induction scanFrom mode start source with
  | case1 mode start source missed => cases failed
  | case2 mode start source before after cut tagStart other unread =>
    cases failed
    exact syntactic_of_scanTag unread
  | case3 mode start source before after cut tagStart t tag other later ih =>
    cases failed
    exact ih later
  | case4 => cases failed

/-- All that can be wrong with a source is its syntax. -/
theorem syntactic_of_parse {set : Pragmas} {source : String} {flaw : Flaw}
    (failed : parse set source = .error flaw) : flaw.cause.kind = .syntactic := by
  unfold parse tokenize at failed
  cases scanned : scan set source with
  | error other =>
    rw [scanned] at failed
    cases failed
    exact syntactic_of_scanFrom scanned
  | ok tokens =>
    rw [scanned] at failed
    have nested : nest set (tidy tokens) = .error flaw := failed
    refine Parsing.flaw_of_run (fun _ => True) (·.cause.kind = .syntactic) ?_ ?_ trivial nested
    · exact fun t _ p _ => ⟨fun _ _ => trivial, fun _ => Parsing.syntactic_of_step⟩
    · exact fun p _ _ => Parsing.syntactic_of_finish

end Mustache.Markup
