import Mustache.Proofs.Markup.Moved

/-! The pragmas in force at a place of a source: those of the engine, and those of the known pragma
tags that start before that place. They decide which tags open blocks and how names are read. -/
namespace Mustache.Markup

def inForce (set : Pragmas) (tokens : List Token) (start : Nat) : Pragmas :=
  set.insertAll (pragmasIn (tokens.filter fun t => t.span.start < start))

/-- A function of places that tells the pragmas switched on before each of the tokens. -/
def Decides (force : Nat → Pragmas) (set : Pragmas) (tokens : List Token) : Prop :=
  ∀ before t after, tokens = before ++ t :: after →
    force t.span.start = set.insertAll (pragmasIn before)

namespace Decides

variable {force : Nat → Pragmas} {set : Pragmas} {tokens : List Token}

theorem head {t : Token} (decides : Decides force set (t :: tokens)) : force t.span.start = set :=
  decides [] t tokens rfl

theorem tail {t : Token} (decides : Decides force set (t :: tokens)) :
    Decides force (set.insertAll (pragmasIn [t])) tokens := by
  intro before u after same
  have whole := decides (t :: before) u after (by rw [same]; rfl)
  rwa [← List.singleton_append, pragmasIn_append, Pragmas.insertAll_append] at whole

theorem tail_of_none {t : Token} (decides : Decides force set (t :: tokens))
    (silent : t.switched? = none) : Decides force set tokens := by
  have after := decides.tail
  rwa [pragmasIn_cons_of_none [] silent] at after

theorem inside {before after : List Token} (decides : Decides force set (before ++ tokens ++ after)) :
    Decides force (set.insertAll (pragmasIn before)) tokens := by
  intro front t back same
  have whole := decides (before ++ front) t (back ++ after) (by rw [same]; simp)
  rwa [pragmasIn_append, Pragmas.insertAll_append] at whole

end Decides

theorem decides_inForce (set : Pragmas) {tokens : List Token}
    (ordered : tokens.Pairwise fun s t => s.span.stop ≤ t.span.start)
    (nonempty : ∀ t ∈ tokens, t.span.start < t.span.stop) :
    Decides (inForce set tokens) set tokens := by
  rintro before t after rfl
  obtain ⟨-, later, earlier⟩ := List.pairwise_append.1 ordered
  have first : before.filter (fun u => decide (u.span.start < t.span.start)) = before := by
    rw [List.filter_eq_self]
    intro u member
    have := earlier u member t List.mem_cons_self
    have := nonempty u (List.mem_append_left _ member)
    exact decide_eq_true (by omega)
  have last : (t :: after).filter (fun u => decide (u.span.start < t.span.start)) = [] := by
    rw [List.filter_eq_nil_iff]
    intro u member
    rcases List.mem_cons.1 member with rfl | after
    · simp
    · have := (List.pairwise_cons.1 later).1 u after
      have := nonempty t (by simp)
      simp only [decide_eq_true_eq]
      omega
  unfold inForce
  rw [List.filter_append, first, last, List.append_nil]

theorem scanned_of_tokenize {set : Pragmas} {source : String} {tokens : List Token}
    (tokenized : tokenize set source = .ok tokens) :
    ∃ raw, Scanned (.initial set) 0 source.toList raw ∧ tidy raw = tokens := by
  unfold tokenize scan at tokenized
  cases scanned : scanFrom (.initial set) 0 source.toList with
  | error flaw => simp [scanned, Except.map] at tokenized
  | ok raw =>
    simp only [scanned, Except.map, Except.ok.injEq] at tokenized
    exact ⟨raw, scanned_of_scanFrom scanned, tokenized⟩

theorem ordered_of_tokenize {set : Pragmas} {source : String} {tokens : List Token}
    (tokenized : tokenize set source = .ok tokens) :
    tokens.Pairwise fun s t => s.span.stop ≤ t.span.start := by
  obtain ⟨raw, scanned, rfl⟩ := scanned_of_tokenize tokenized
  exact (thinned_tidy raw).ordered scanned.tiled.ordered

theorem Scanned.tokenize_eq {set : Pragmas} {source : String} {raw : List Token}
    (scanned : Scanned (.initial set) 0 source.toList raw) : tokenize set source = .ok (tidy raw) := by
  unfold tokenize scan
  rw [scanned.scanFrom_eq]
  rfl

theorem Scanned.decides_tidy {mode : Mode} {start : Nat} {source : List Char} {raw : List Token}
    (set : Pragmas) (scanned : Scanned mode start source raw) :
    Decides (inForce set (tidy raw)) set (tidy raw) := by
  have thinned := thinned_tidy raw
  refine decides_inForce set (thinned.ordered scanned.tiled.ordered) fun t member => ?_
  obtain ⟨u, there, like⟩ := thinned.mem member
  obtain ⟨span, part, nonempty, place, before, after, -, start, stop⟩ := scanned.tiled.covers there
  have := mt Text.byteSize_eq_zero.1 nonempty
  rw [like.span, place, Span.shift_start, Span.shift_stop]
  omega

/-! ### Tags that open blocks -/

theorem kind_of_scanTag {mode : Mode} {start : Nat} {after : List Char} {t : ScannedTag}
    (scanned : scanTag mode start after = .ok t) :
    t.token.kind = .blockOpen ↔ mode.blocks = true ∧ after.head? = some '$' := by
  have finished {found : Except Flaw Extent} {kind : Kind}
      (done : found.bind (finishTag mode start kind) = .ok t) : t.token.kind = kind := by
    cases found with
    | error flaw => simp [Except.bind] at done
    | ok e => rw [(finishTag_eq done).1]
  unfold scanTag at scanned
  split at scanned
  · have kind : t.token.kind = .delimiters := by
      simp only [scanChange] at scanned
      split at scanned
      · cases scanned
      · split at scanned
        · split at scanned
          · simp only [Except.ok.injEq] at scanned
            rw [← scanned]
          · cases scanned
        · cases scanned
    simp [kind]
  · simp [finished scanned]
  · rename_i c rest notEquals notBrace
    split at scanned
    · rename_i kind sigil
      rw [finished scanned]
      unfold Kind.ofSigil? at sigil
      split at sigil
      case h_6 =>
        split at sigil
        · rename_i blocks
          simp only [Option.some.injEq] at sigil
          simp [← sigil, blocks]
        · cases sigil
      case h_10 => cases sigil
      all_goals
        simp only [Option.some.injEq] at sigil
        simp [← sigil]
    · rename_i plain
      rw [finished scanned]
      constructor
      · intro kind
        cases kind
      · rintro ⟨blocks, sign⟩
        simp only [List.head?_cons, Option.some.injEq] at sign
        rw [sign, blocks] at plain
        cases plain
  · cases scanned

theorem Scanned.blockOpen_iff {mode : Mode} {start : Nat} {source : List Char} {tokens : List Token}
    (scanned : Scanned mode start source tokens) {set : Pragmas} (blocks : mode.blocks = set.blocks)
    {before after : List Token} {t : Token} (notText : t.kind ≠ .text)
    (same : tokens = before ++ t :: after) :
    ∃ (span : Span) (read : List Char), t.span = span.shift start ∧
      span.Covers source (t.delims.opening ++ read) ∧
      (t.kind = .blockOpen ↔
        (set.insertAll (pragmasIn before)).blocks = true ∧ read.head? = some '$') := by
  induction scanned generalizing set before with
  | text mode start source missed =>
    exfalso
    apply notText
    exact (textTokens_text (by rw [same]; simp)).1
  | tag mode start source text rest t' tokens cut scanned more ih =>
    obtain ⟨read, tag⟩ := tagRead_scanTag scanned
    have whole : source = text ++ (mode.delims.opening ++ read) ++ t'.rest := by
      rw [Text.eq_append_of_cut? cut, tag.whole]
      simp
    have kinds : ∀ s ∈ textTokens mode.delims start text, s.kind = .text :=
      fun s member => (textTokens_text member).1
    rcases split_at_tag kinds notText same with ⟨rfl, rfl, rfl⟩ | ⟨middle, rfl, inner⟩
    · refine ⟨⟨Text.byteSize text, Text.byteSize text + Text.byteSize (mode.delims.opening ++ read)⟩,
        read, ?_, ⟨text, t'.rest, ?_, rfl, ?_⟩, ?_⟩
      · rw [tag.span]
        simp only [Span.shift, Span.mk.injEq]
        omega
      · rw [tag.delims]
        exact whole
      · rw [tag.delims]
      · rw [kind_of_scanTag scanned, pragmasIn_textTokens, Pragmas.insertAll_nil, blocks]
        -- At least the closing delimiter is read.
        cases read with
        | nil =>
          exfalso
          have shorter := length_rest_scanTag scanned
          rw [tag.whole, List.nil_append] at shorter
          exact Nat.lt_irrefl _ shorter
        | cons c read => rw [tag.whole, List.cons_append, List.head?_cons, List.head?_cons]
    · obtain ⟨span, read', place, covers, opens⟩ := ih (tag.blocks_eq blocks) inner
      refine ⟨span.shift (Text.byteSize (text ++ (mode.delims.opening ++ read))), read', ?_, ?_, ?_⟩
      · rw [place, tag.span]
        simp only [Span.shift, Span.mk.injEq, Text.byteSize_append]
        omega
      · have within := covers.within (text ++ (mode.delims.opening ++ read)) []
        rwa [List.append_nil, ← whole] at within
      · have switched : pragmasIn (textTokens mode.delims start text ++ t'.token :: middle) =
            pragmasIn [t'.token] ++ pragmasIn middle := by
          rw [pragmasIn_append, pragmasIn_textTokens, List.nil_append, ← List.singleton_append,
            pragmasIn_append]
        rw [opens, switched, Pragmas.insertAll_append]

end Mustache.Markup
