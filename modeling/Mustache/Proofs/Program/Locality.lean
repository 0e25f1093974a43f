import Mustache.Proofs.Markup.Force
import Mustache.Proofs.Program.Bodies
import Mustache.Proofs.Program.Identity

/-! Bodies with one identity have the same nodes, apart from the place where they stand. -/
namespace Mustache

open Markup

/-- The tags of a tree stand in a text one after another, none of them empty. -/
structure Markup.Fits (text : List Char) (nodes : List Node) : Prop where
  covers : ∀ t ∈ Node.tokensOf nodes, ∃ part, part ≠ [] ∧ t.span.Covers text part
  ordered : (Node.tokensOf nodes).Pairwise fun s t => s.span.stop ≤ t.span.start

namespace Markup.Fits

variable {text : List Char} {nodes : List Node}

theorem of_scanned {mode : Mode} {tokens tidied : List Token} {inParent : Bool} {set : Pragmas}
    (scanned : Scanned mode 0 text tokens) (thinned : Thinned tidied tokens)
    (nests : Nests inParent set tidied nodes) : Fits text nodes := by
  constructor
  · intro t member
    obtain ⟨u, there, like⟩ := thinned.mem (nests.tokensOf_sublist.subset member)
    obtain ⟨span, part, nonempty, place, covers⟩ := scanned.tiled.covers there
    refine ⟨part, nonempty, ?_⟩
    rw [like.span, place]
    exact covers
  · exact (thinned.ordered scanned.tiled.ordered).sublist nests.tokensOf_sublist

theorem of_sublist (fits : Fits text nodes) {some : List Node}
    (within : (Node.tokensOf some).Sublist (Node.tokensOf nodes)) : Fits text some :=
  ⟨fun t there => fits.covers t (within.subset there), fits.ordered.sublist within⟩

theorem tail {node : Node} (fits : Fits text (node :: nodes)) : Fits text nodes :=
  fits.of_sublist (List.sublist_append_right _ _)

theorem inside {role : Role} {opening closing : Token} {name : Name} {rest : List Node}
    (fits : Fits text (.region role opening name nodes closing :: rest)) : Fits text nodes :=
  fits.of_sublist ((((List.Sublist.refl _).cons opening).trans (List.sublist_append_left _ _)).trans
    (List.sublist_append_left _ _))

theorem body (fits : Fits text nodes) {o : Occurrence} {inParent : Bool} {set : Pragmas}
    (member : o ∈ Node.bodiesOf inParent set nodes) :
    ∃ part, o.body.span.Covers text part ∧ part.length < text.length := by
  have tags := Node.tokensOf_sublist_of_mem member
  obtain ⟨first, nonempty, opening⟩ := fits.covers o.opening (tags.subset (by simp))
  obtain ⟨last, -, closing⟩ := fits.covers o.closing (tags.subset (by simp))
  have order : o.opening.span.stop ≤ o.closing.span.start :=
    (List.pairwise_cons.1 (fits.ordered.sublist tags)).1 o.closing (by simp)
  obtain ⟨part, before, after, rfl, start, stop⟩ := opening.between closing order
  refine ⟨part, ⟨before, after, rfl, start, stop⟩, ?_⟩
  -- The opening tag stands before the body.
  have positive : 0 < Text.byteSize before := by
    obtain ⟨front, back, -, -, ends⟩ := opening
    have := mt Text.byteSize_eq_zero.1 nonempty
    dsimp only at start
    omega
  have : before ≠ [] := by
    rintro rfl
    exact Nat.lt_irrefl 0 positive
  have := List.length_pos_iff.2 this
  simp only [List.length_append]
  omega

end Markup.Fits

namespace Markup

variable {set : Pragmas} {source : String} {tree : List Node}

theorem read_of_parse (parsed : parse set source = .ok tree) :
    ∃ tokens, Scanned (.initial set) 0 source.toList tokens ∧ Nests false set (tidy tokens) tree := by
  unfold parse at parsed
  cases tokenized : tokenize set source with
  | error flaw =>
    rw [tokenized] at parsed
    cases parsed
  | ok tokens =>
    rw [tokenized] at parsed
    obtain ⟨raw, scanned, rfl⟩ := scanned_of_tokenize tokenized
    exact ⟨raw, scanned, nests_of_nest parsed⟩

theorem fits_of_parse (parsed : parse set source = .ok tree) : Fits source.toList tree := by
  obtain ⟨tokens, scanned, nests⟩ := read_of_parse parsed
  exact .of_scanned scanned (thinned_tidy tokens) nests

end Markup

/-- The nodes of a body are those of its text by itself, moved to where it stands. -/
structure Occurrence.Reads (source : String) (o : Occurrence) (text : List Char)
    (nodes : List Node) : Prop where
  covers : o.body.span.Covers source.toList text
  fits : Fits text nodes
  moved : o.nodes = Node.shiftAll o.body.span.start nodes
  alone : ∃ tokens, Scanned ⟨o.body.delims, o.pragmas.blocks⟩ 0 text tokens ∧
    Nests false o.pragmas (tidyBetween o.body.edges tokens) nodes

variable {set : Pragmas} {source : String} {tree : List Node}

theorem reads_of_mem (parsed : parse set source = .ok tree) {o : Occurrence}
    (member : o ∈ Node.bodiesOf false set tree) : ∃ text nodes, o.Reads source text nodes := by
  obtain ⟨tokens, scanned, nests⟩ := read_of_parse parsed
  obtain ⟨before, inner, after, split, opens, closes, switched, inside⟩ := nests.split_of_mem member
  have openingTag : o.opening.kind ≠ .text := by
    intro kind
    rw [kind] at opens
    cases opens
  have closingTag : o.closing.kind ≠ .text := by rw [closes]; decide
  obtain ⟨before', opening', after', rfl, like, sameSwitched, behind⟩ :=
    tidy_split (fun t => scanned.raw) openingTag split
  have openingTag' : opening'.kind ≠ .text := by rwa [← like.kind]
  obtain ⟨later, front, rest, whole, place, scannedAfter, delims, blocks⟩ :=
    scanned.after_tag (show (Mode.initial set).blocks = set.blocks from rfl) openingTag' rfl
  obtain ⟨inner', closing', after'', rfl, like', between⟩ :=
    tidyAfter_split (fun t => scannedAfter.raw) behind.symm
  have closingTag' : closing'.kind ≠ .text := by rwa [← like'.kind]
  obtain ⟨text, back, whole', place', scannedInner⟩ := scannedAfter.before_tag closingTag' rfl
  obtain ⟨tokens', rfl, alone⟩ :=
    Scanned.unshift opening'.span.stop (show Scanned later (0 + opening'.span.stop) text inner' by
      rwa [Nat.zero_add])
  have sameStart : o.body.span.start = opening'.span.stop := congrArg Span.stop like.span
  have sameStop : o.body.span.stop = closing'.span.start := congrArg Span.start like'.span
  rw [between, tidyBetween_shift] at inside
  obtain ⟨nodes, moved, read⟩ := inside.unshift
  have mode : later = ⟨o.body.delims, o.pragmas.blocks⟩ := by
    have notChange : opening'.kind ≠ .delimiters := by
      rw [← like.kind]
      intro kind
      rw [kind] at opens
      cases opens
    have silent : pragmasIn [opening'] = [] := by
      rw [pragmasIn_cons_of_none []]
      · rfl
      · exact Token.switched?_of_ne (by rw [← like.kind]; exact Kind.ne_pragma_of_opens opens)
    rw [pragmasIn_append, silent, List.append_nil, ← sameSwitched, ← switched] at blocks
    have first : later.delims = o.body.delims := by
      rw [delims notChange]
      exact like.delims.symm
    obtain ⟨_, _⟩ := later
    simp only [Mode.mk.injEq]
    exact ⟨first, blocks⟩
  subst mode
  refine ⟨text, nodes, ⟨front, back, ?_, ?_, ?_⟩, ?_, ?_, tokens', alone, read⟩
  · rw [whole, whole', List.append_assoc]
  · rw [sameStart, place, Nat.zero_add]
  · rw [sameStop, place', place, Nat.zero_add]
  · exact .of_scanned alone (thinned_tidyBetween _ _) read
  · rw [sameStart]
    exact moved

theorem Occurrence.Reads.unique {a b : Occurrence} {text text' : List Char}
    {nodes nodes' : List Node} (reads : a.Reads source text nodes)
    (reads' : b.Reads source text' nodes') (same : a.identity source = b.identity source) :
    text = text' ∧ nodes = nodes' := by
  obtain ⟨delims, edges, set, slice⟩ := Body.eq_of_identity same
  have sameText : text = text' := by
    rw [reads.covers.slice, reads'.covers.slice] at slice
    exact String.ofList_injective slice
  subst sameText
  obtain ⟨tokens, scanned, nests⟩ := reads.alone
  obtain ⟨tokens', scanned', nests'⟩ := reads'.alone
  rw [← delims, ← set] at scanned'
  have sameTokens : tokens = tokens' := by
    have := scanned.scanFrom_eq.symm.trans scanned'.scanFrom_eq
    exact Except.ok.inj this
  subst sameTokens
  rw [← edges, ← set] at nests'
  have := nests.nest_eq.symm.trans nests'.nest_eq
  exact ⟨rfl, Except.ok.inj this⟩

theorem length_lt_of_nested (parsed : parse set source = .ok tree) {o inner : Occurrence}
    (member : o ∈ Node.bodiesOf false set tree)
    (within : inner ∈ Node.bodiesOf false o.pragmas o.nodes) {text text' : List Char}
    (covers : o.body.span.Covers source.toList text)
    (covers' : inner.body.span.Covers source.toList text') : text'.length < text.length := by
  obtain ⟨text, nodes, reads⟩ := reads_of_mem parsed member
  rw [covers.part_eq reads.covers]
  rw [reads.moved, Node.bodiesOf_shiftAll, List.mem_map] at within
  obtain ⟨inner, there, rfl⟩ := within
  obtain ⟨part, covered, shorter⟩ := reads.fits.body there
  obtain ⟨front, back, whole, start, -⟩ := reads.covers
  have moved := covered.within front back
  rw [← whole, ← start] at moved
  rw [covers'.part_eq moved]
  exact shorter

end Mustache
