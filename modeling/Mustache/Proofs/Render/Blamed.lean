import Mustache.Proofs.Program.Traced
import Mustache.Proofs.Render.Located

/-! Errors in bodies that read the same. Their instructions are those of the first of them, so that an
error points into the first one, whichever is being rendered. -/
namespace Mustache

open Markup

def Span.Inside (inner outer : Span) : Prop := outer.start ≤ inner.start ∧ inner.stop ≤ outer.stop

namespace Markup.Fits

variable {text : List Char} {nodes : List Node} {inParent : Bool} {set : Pragmas}

theorem start_lt_stop (fits : Fits text nodes) {t : Token} (member : t ∈ Node.tokensOf nodes) :
    t.span.start < t.span.stop := by
  obtain ⟨part, nonempty, covers⟩ := fits.covers t member
  have size := mt Text.byteSize_eq_zero.1 nonempty
  rw [covers.stop_eq]
  omega

/-- What is between the tags of a region is within its span. -/
theorem tag_inside (fits : Fits text nodes) {o : Occurrence} (there : o.tokens.Sublist (Node.tokensOf nodes))
    {t : Token} (within : t ∈ Node.tokensOf o.nodes) : t.span.Inside o.body.span := by
  have order := fits.ordered.sublist there
  rw [Occurrence.tokens, List.cons_append, List.pairwise_cons, List.pairwise_append] at order
  exact ⟨order.1 t (List.mem_append_left _ within),
    order.2.2.2 t within o.closing (List.mem_singleton_self _)⟩

theorem body_inside (fits : Fits text nodes) {o inner : Occurrence}
    (there : o.tokens.Sublist (Node.tokensOf nodes)) (within : inner.tokens.Sublist (Node.tokensOf o.nodes)) :
    inner.body.span.Inside o.body.span := by
  have opening : inner.opening ∈ Node.tokensOf o.nodes := within.subset (by simp [Occurrence.tokens])
  have closing : inner.closing ∈ Node.tokensOf o.nodes := within.subset (by simp [Occurrence.tokens])
  have whole {t : Token} (among : t ∈ Node.tokensOf o.nodes) : t ∈ Node.tokensOf nodes :=
    there.subset (List.mem_append_left _ (List.mem_cons_of_mem _ among))
  have first := fits.start_lt_stop (whole opening)
  have last := fits.start_lt_stop (whole closing)
  obtain ⟨before, -⟩ := fits.tag_inside there opening
  obtain ⟨-, after⟩ := fits.tag_inside there closing
  exact ⟨Nat.le_trans before (Nat.le_of_lt first), Nat.le_trans (Nat.le_of_lt last) after⟩

/-- Of two bodies the one listed first is in the other one, or ends before the other one begins. -/
theorem bodies_ordered (fits : Fits text nodes) :
    (Node.bodiesOf inParent set nodes).Pairwise fun a b =>
      a ∈ Node.bodiesOf false b.pragmas b.nodes ∨ a.closing.span.stop ≤ b.opening.span.start := by
  induction nodes using Node.forest generalizing inParent set with
  | nil => exact .nil
  | literal t rest ih => exact ih fits.tail
  | pragma t p rest ih => exact ih fits.tail
  | interpolation t name rest ih => exact ih fits.tail
  | partialRef t rest ih => exact ih fits.tail
  | region role opening name nodes closing rest inner ih =>
    have ordered := fits.ordered
    simp only [Node.tokensOf, Node.tokens] at ordered
    have order := (List.pairwise_append.1 ordered).2.2
    rw [Node.bodiesOf, List.pairwise_append]
    refine ⟨?_, ih fits.tail, ?_⟩
    · unfold Node.bodies
      split
      · rw [List.pairwise_append]
        refine ⟨inner fits.inside, ?_, ?_⟩
        · split <;> simp
        · intro a deep b own
          split at own
          · rename_i shared
            rw [List.mem_singleton.1 own]
            rw [Node.not_parent_of_isShared shared] at deep
            exact .inl deep
          · cases own
      · exact .nil
    · intro a first b later
      have late : b.opening ∈ Node.tokensOf rest :=
        (Node.tokensOf_sublist_of_mem later).subset (by simp)
      refine .inr (order a.closing ?_ b.opening late)
      rcases (Node.mem_bodies_region.1 first).2 with deep | ⟨-, rfl⟩
      · have tags := (Node.tokensOf_sublist_of_mem deep).subset
        exact List.mem_append_left _ (List.mem_cons_of_mem _ (tags (by simp)))
      · simp

end Markup.Fits

/-- The first in a source of the bodies that are rendered by the same instructions. -/
structure Occurrence.FirstOf (source : String) (bodies : List Occurrence) (o first : Occurrence) : Prop where
  member : first ∈ bodies
  role : first.role = o.role
  key : first.key source = o.key source
  before : ∀ b ∈ bodies, b.role = o.role → b.key source = o.key source →
    b = first ∨ first.closing.span.stop ≤ b.opening.span.start

namespace Compile

variable {set : Pragmas} {source : String} {tree : List Node} {first o : Occurrence} {span : Span}

/-- What is found first is the first in the source. -/
theorem firstOf_of_first? (parsed : parse set source = .ok tree)
    (distinct : Hash.Distinct (Node.identities source set tree))
    (found : Occurrence.first? source (Node.bodiesOf false set tree) o.role (o.key source) = some first) :
    Occurrence.FirstOf source (Node.bodiesOf false set tree) o first := by
  obtain ⟨member, role, key⟩ := Occurrence.of_first? found
  obtain ⟨-, before, after, split, missed⟩ := List.find?_eq_some_iff_append.1 found
  refine ⟨member, role, key, ?_⟩
  intro b there sameRole sameKey
  have ordered : (Node.bodiesOf false set tree).Pairwise fun a b =>
      a ∈ Node.bodiesOf false b.pragmas b.nodes ∨ a.closing.span.stop ≤ b.opening.span.start :=
    (fits_of_parse parsed).bodies_ordered
  have among := there
  rw [split] at ordered among
  rcases List.mem_append.1 among with early | late
  · have other := missed b early
    simp [sameRole, sameKey] at other
  · rcases List.mem_cons.1 late with rfl | later
    · exact .inl rfl
    · right
      have inside := (List.pairwise_cons.1 (List.pairwise_append.1 ordered).2.1).1 b later
      refine inside.resolve_left fun nested => ?_
      exact (uniform_of_parse parsed distinct).smaller b there first nested (key.trans sameKey.symm)

/-- Bodies with one key are as long as each other. -/
theorem move_body (parsed : parse set source = .ok tree)
    (distinct : Hash.Distinct (Node.identities source set tree))
    (here : first ∈ Node.bodiesOf false set tree) (there : o ∈ Node.bodiesOf false set tree)
    (same : first.key source = o.key source) :
    first.body.span.move first.body.span.start o.body.span.start = o.body.span ∧
      o.body.span.slice source = first.body.span.slice source := by
  obtain ⟨text, nodes, reads, reads', -, -⟩ := reads_of_key_eq parsed distinct here there same
  have ends := reads.covers.stop_eq
  have ends' := reads'.covers.stop_eq
  constructor
  · unfold Span.move
    rw [ends, Nat.sub_self, Nat.zero_add, Nat.add_sub_cancel_left, Nat.add_comm, ← ends']
  · rw [reads.covers.slice, reads'.covers.slice]

end Compile

/-- What it means for what is being executed that an error points at a span. -/
structure Execution.Blames (source : String) (bodies : List Occurrence) (execution : Execution) (span : Span) :
    Prop where
  around : ∀ region ∈ execution.regions, execution.own.Inside region.body.span
  whole : execution.part = none → span = execution.own
  part : ∀ o, execution.part = some o → ∃ first, Occurrence.FirstOf source bodies o first ∧
    execution.own = span.move first.body.span.start o.body.span.start ∧
    execution.own.slice source = span.slice source ∧
    (span = execution.own ↔ o = first) ∧
    ((∀ region ∈ execution.regions, span.Inside region.body.span) ↔ o = first)

namespace Compile

variable {set : Pragmas} {source : String} {tree : List Node} {first o : Occurrence} {span : Span}

/-- Another body than the first starts after the first has ended. -/
theorem eq_first_iff (parsed : parse set source = .ok tree)
    (leading : Occurrence.FirstOf source (Node.bodiesOf false set tree) o first)
    (member : o ∈ Node.bodiesOf false set tree) (inside : span.Inside first.body.span)
    (ordered : span.start ≤ span.stop) {execution : Execution} (among : o ∈ execution.regions)
    (own : execution.own = span.move first.body.span.start o.body.span.start)
    (around : ∀ region ∈ execution.regions, execution.own.Inside region.body.span) :
    (span = execution.own ↔ o = first) ∧
      ((∀ region ∈ execution.regions, span.Inside region.body.span) ↔ o = first) := by
  have fits := fits_of_parse parsed
  have tags {b : Occurrence} (there : b ∈ Node.bodiesOf false set tree) :
      b.opening.span.start < b.body.span.start ∧ b.body.span.stop < b.closing.span.stop := by
    have tokens := (Node.tokensOf_sublist_of_mem there).subset
    exact ⟨fits.start_lt_stop (tokens (by simp)), fits.start_lt_stop (tokens (by simp))⟩
  have bounds := tags leading.member
  have bounds' := tags member
  obtain ⟨start, stop⟩ := inside
  have kept (same : o = first) : span = execution.own := by
    rw [own, same, Span.move, Nat.sub_add_cancel start, Nat.sub_add_cancel (Nat.le_trans start ordered)]
  have outside (inner : span.Inside o.body.span) : o = first := by
    refine (leading.before o member rfl rfl).resolve_right fun later => ?_
    obtain ⟨start', stop'⟩ := inner
    omega
  refine ⟨⟨fun same => outside (same ▸ around o among), kept⟩, fun inner => outside (inner o among), ?_⟩
  intro same region there
  rw [kept same]
  exact around region there

end Compile

namespace Scene.Runs

variable {source : String} {set : Pragmas} {tree : List Node} {scene : Scene} {instrs : List Instr}
  {place : Span → Span} {spot : Spot} {line : Sourced}

theorem blames_tag (runs : scene.Runs source set tree instrs place) (parsed : parse set source = .ok tree)
    (distinct : Hash.Distinct (Node.identities source set tree)) (within : spot.Within instrs)
    (placed : (scene.lines source set tree)[spot.number]? = some line) {instr : Instr}
    (here : instrs[spot.number]? = some instr) (same : line.instr = instr.respan place) {span : Span}
    (own : instr.span? = some span) :
    (line.execution scene (spot.regions (scene.lines source set tree) ++ scene.regions)).Blames source
      (Node.bodiesOf false set tree) span := by
  have fits := fits_of_parse parsed
  have moved : line.instr.span? = some (place span) := by
    rw [same, Instr.span?_respan, own]
    rfl
  have leaf : line.body? = none := by
    unfold Sourced.body?
    cases shape : line.instr with
    | «repeated» key =>
      rw [shape] at moved
      cases moved
    | _ => rfl
  have token := (Compile.fits_of_mem_sourcedOf (List.mem_of_getElem? placed)).span _ moved
  have around (region : Occurrence)
      (member : region ∈ spot.regions (scene.lines source set tree) ++ scene.regions) :
      (place span).Inside region.body.span := by
    obtain ⟨among, tokens⟩ := runs.regions within placed region member
    rw [← token]
    exact fits.tag_inside among (tokens.subset line.bearer.token_mem)
  rw [Sourced.execution, leaf, Option.elim_none, token]
  refine ⟨around, fun entire => by rw [runs.whole entire]; rfl, fun o part => ?_⟩
  obtain ⟨member, among, first, leading, rfl, moves⟩ := runs.part o part
  have leading := Compile.firstOf_of_first? parsed distinct leading
  have listed := List.mem_of_getElem? here
  obtain ⟨t, tag, rfl⟩ := Compile.exists_tag_of_mem_plainOf listed own
  have tokens := Node.tokensOf_sublist_of_mem leading.member
  have whole : t ∈ Node.tokensOf tree := tokens.subset (List.mem_append_left _ (List.mem_cons_of_mem _ tag))
  have moved : place t.span = t.span.move first.body.span.start o.body.span.start := congrFun moves t.span
  refine ⟨first, leading, moved, ?_, ?_⟩
  · show (place t.span).slice source = _
    rw [moved]
    exact Compile.slice_of_mem_instrs parsed distinct leading.member member leading.key listed own
  · exact Compile.eq_first_iff parsed leading member (fits.tag_inside tokens tag)
      (Nat.le_of_lt (fits.start_lt_stop whole)) (List.mem_append_right _ among) moved around

theorem blames_body (runs : scene.Runs source set tree instrs place) (parsed : parse set source = .ok tree)
    (distinct : Hash.Distinct (Node.identities source set tree)) (within : spot.Within instrs)
    (placed : (scene.lines source set tree)[spot.number]? = some line) {o first : Occurrence}
    (body : line.body? = some o) (bears : line.bearer = .region o)
    (member : o ∈ Node.bodiesOf false set tree)
    (leading : Occurrence.FirstOf source (Node.bodiesOf false set tree) o first) :
    (line.execution scene (spot.regions (scene.lines source set tree) ++ scene.regions)).Blames source
      (Node.bodiesOf false set tree) first.body.span := by
  have fits := fits_of_parse parsed
  have around (region : Occurrence)
      (there : region ∈ o :: (spot.regions (scene.lines source set tree) ++ scene.regions)) :
      o.body.span.Inside region.body.span := by
    rcases List.mem_cons.1 there with rfl | outer
    · exact ⟨Nat.le_refl _, Nat.le_refl _⟩
    · obtain ⟨among, tokens⟩ := runs.regions within placed region outer
      rw [bears] at tokens
      exact fits.body_inside among tokens
  obtain ⟨moves, slices⟩ := Compile.move_body parsed distinct leading.member member leading.key
  obtain ⟨text, covers, -⟩ := fits.body leading.member
  have ends := covers.stop_eq
  rw [Sourced.execution, body, Option.elim_some]
  refine ⟨around, by rintro ⟨⟩, ?_⟩
  rintro o' ⟨⟩
  refine ⟨first, leading, moves.symm, slices, ?_⟩
  exact Compile.eq_first_iff parsed leading member ⟨Nat.le_refl _, Nat.le_refl _⟩ (by omega)
    List.mem_cons_self moves.symm around

end Scene.Runs

/-- Where an error may point for an instruction, it points at what is being executed, or at what stands in
the place of this in the first body that reads alike. -/
theorem Program.Points.exists_execution {dialect : Dialect} {source : String} {tree : List Node}
    {program : Program} (told : program.Told dialect source tree)
    (parsed : parse dialect.pragmas source = .ok tree)
    (distinct : Hash.Distinct (Node.identities source dialect.pragmas tree)) {standing : Standing} {span : Span}
    (points : program.Points standing span) :
    ∃ execution, standing.execution? source dialect.pragmas tree = some execution ∧
      execution.Blames source (Node.bodiesOf false dialect.pragmas tree) span := by
  obtain ⟨instr, ⟨instrs, leads, within, here⟩, points⟩ := points
  obtain ⟨scene, place, there, runs⟩ := leads.exists_scene told parsed distinct
  obtain ⟨line, placed, same⟩ := runs.line here
  refine ⟨_, Standing.execution?_eq there placed, ?_⟩
  rcases points with own | ⟨key, sec, rfl, held, rfl⟩
  · exact runs.blames_tag parsed distinct within placed here same own
  · obtain ⟨o, member, bears, role, keyed⟩ :=
      (Compile.fits_of_mem_sourcedOf (List.mem_of_getElem? placed)).body key same
    obtain ⟨first, leading, rfl⟩ := told.first_of_section held
    rw [← role, ← keyed] at leading
    have body : line.body? = some o := by
      rw [Sourced.body?, same, bears]
      rfl
    exact runs.blames_body parsed distinct within placed body bears (runs.bodies member)
      (Compile.firstOf_of_first? parsed distinct leading)

namespace Render

/-- An error that a render ends with, other than of the syntax of a source that was fetched meanwhile, points
at the very tag or section that was being executed when it was raised, or at what stands in its place in the
first body that reads like the innermost one being rendered. What was being executed is in all sections,
inverted sections, blocks and block arguments that were being rendered on the way to it. The place that the
error gives is in them, and is that of what was executed, just if the innermost section or block argument
reads like no earlier one. -/
theorem render_blames_first_alike {env : Env} {own : Site → Prop} (bring : env.lambdas.Bring own)
    {main : Program} (built : main.Built) {context : Value} {store : Store} (stored : store.Built) {e : Error}
    (failed : (render env main context store).1 = .error (.error e)) {site : Site}
    (there : e.site = some site) :
    own site ∨ (∃ raise : Raise, raise.LastOf (raisesOfRender env main context store) ∧ raise.error = e ∧
      raise.program.Built ∧ site = ⟨raise.program.source, raise.span⟩ ∧
        ∀ (dialect : Dialect) (key : Key) (tree : List Node), parse dialect.pragmas site.source = .ok tree →
          Program.compile dialect key site.source = .ok raise.program →
          Hash.Distinct (Node.identities site.source dialect.pragmas tree) →
          ∃ execution, raise.standing.execution? site.source dialect.pragmas tree = some execution ∧
            execution.Blames site.source (Node.bodiesOf false dialect.pragmas tree) site.span) ∨
      (e.kind = .syntactic ∧ Unfit env (notesOfRender env main context store) site.source e) := by
  have sound := sound_raisesOfRender env main context store
  have stems := stems_of_render bring built context stored failed
  have compiled := built_of_raisesOfRender bring built context stored
  rcases stems.origin sound compiled there with brought | ⟨raise, last, same, made, rfl, points⟩ | unfit
  · exact .inl brought
  · refine .inr (.inl ⟨raise, last, same, made, rfl, ?_⟩)
    intro dialect key tree parsed made distinct
    exact points.exists_execution (Program.told_of_compile parsed made distinct) parsed distinct
  · exact .inr (.inr ⟨Program.syntactic_of_compile unfit.2, unfit⟩)

/-- Two sections that read the same, and a value that fails in the second. -/
theorem render_blames_first_alike_second :
    ∃ (env : Env) (context : Value) (program : Program) (e : Error) (raise : Raise) (tree : List Node)
      (execution : Execution) (o : Occurrence),
      let source := "\x7b\x7b#a\x7d\x7d\x7b\x7bx\x7d\x7d\x7b\x7b/a\x7d\x7d\x7b\x7b#b\x7d\x7d\x7b\x7bx\x7d\x7d\x7b\x7b/b\x7d\x7d"
      env.lambdas.Bring (fun _ => False) ∧ parse {} source = .ok tree ∧
      Program.compile env.engine.dialect default source = .ok program ∧
      (render env program context {}).1 = .error (.error e) ∧ e.site = some ⟨source, ⟨6, 11⟩⟩ ∧
      raise.LastOf (raisesOfRender env program context {}) ∧ raise.error = e ∧
      raise.standing.execution? source {} tree = some execution ∧
      execution.Blames source (Node.bodiesOf false {} tree) ⟨6, 11⟩ ∧ execution.own = ⟨23, 28⟩ ∧
      execution.part = some o ∧ execution.regions = [o] ∧ o.opening.span = ⟨17, 23⟩ ∧
      ¬ (⟨6, 11⟩ : Span).Inside o.body.span := by
  generalize whole : "\x7b\x7b#a\x7d\x7d\x7b\x7bx\x7d\x7d\x7b\x7b/a\x7d\x7d\x7b\x7b#b\x7d\x7d\x7b\x7bx\x7d\x7d\x7b\x7b/b\x7d\x7d" = source
  let env : Env := ⟨{}, [], ({} : Registry).lambdas⟩
  let context : Value := .map [("a", .map [("x", .string "1")]), ("b", .map [("x", .list [.string "1"])])]
  let twin (name : String) (start : Nat) : Occurrence :=
    ⟨.repeated, {}, ⟨.sectionOpen, ⟨start, start + 6⟩, name, .default, "", false⟩,
      [.variable ⟨.escaped, ⟨start + 6, start + 11⟩, "x", .default, "", false⟩ ⟨"x", []⟩],
      ⟨.close, ⟨start + 11, start + 17⟩, name, .default, "", false⟩⟩
  let region (name : String) (o : Occurrence) : Node :=
    .region .repeated o.opening ⟨name, []⟩ o.nodes o.closing
  let tree : List Node := [region "a" (twin "a" 0), region "b" (twin "b" 17)]
  have parsed : parse {} source = .ok tree := by
    subst whole
    with_unfolding_all rfl
  have compiled : Program.compile env.engine.dialect default source = .ok _ :=
    Program.compile_of_tree _ default parsed
  let program : Program := .ofNodes env.engine.dialect default source tree
  let e : Error := ⟨.notRenderable "list", some ⟨source, ⟨6, 11⟩⟩⟩
  let raise : Raise := ⟨program, ⟨.body .whole ⟨3, []⟩, ⟨2, []⟩⟩, ⟨6, 11⟩, e⟩
  have ran : (render env program context {}).1 = .error (.error e) ∧
      raisesOfRender env program context {} = [raise] := by
    subst whole
    decide +kernel
  have distinct : Hash.Distinct (Node.identities source {} tree) := by
    have bodies : Node.bodiesOf false {} tree = [twin "a" 0, twin "b" 17] := rfl
    have same : ∀ o ∈ [twin "a" 0, twin "b" 17], o.identity source = "\n00\n\n\x7b\x7bx\x7d\x7d" := by
      subst whole
      decide +kernel
    rintro a b ⟨o, here, rfl⟩ ⟨o', there, rfl⟩ -
    rw [bodies] at here there
    rw [same o here, same o' there]
  have bring : env.lambdas.Bring fun _ => False := by
    refine ⟨?_, ?_, ?_⟩
    · rintro id earlier e site ⟨⟩
    · rintro id earlier v e site ⟨⟩
    · rintro id earlier text e site ⟨⟩
  obtain brought | ⟨found, last, -, -, -, blames⟩ | ⟨kind, -⟩ := render_blames_first_alike bring
    ⟨_, _, _, compiled⟩ Store.built_empty ran.1 (show e.site = some ⟨source, ⟨6, 11⟩⟩ from rfl)
  · exact brought.elim
  · have member := last.mem
    rw [ran.2] at member
    cases List.mem_singleton.1 member
    obtain ⟨execution, executed, blames⟩ := blames _ default tree parsed compiled distinct
    have known : raise.standing.execution? source {} tree =
        some ⟨⟨some (twin "b" 17), [twin "b" 17]⟩, ⟨23, 28⟩⟩ := rfl
    cases known.symm.trans executed
    refine ⟨env, context, program, e, raise, tree, _, twin "b" 17, bring, parsed, compiled, ran.1, rfl, last, rfl,
      known, blames, rfl, rfl, rfl, rfl, ?_⟩
    rintro ⟨start, -⟩
    have early : 23 ≤ 6 := start
    omega
  · cases kind

/-- A value that fails in a section, in an inverted section that has been entered. -/
example :
    let source := "\x7b\x7b^n\x7d\x7d-\x7b\x7b#a\x7d\x7d\x7b\x7bx\x7d\x7d\x7b\x7b/a\x7d\x7d\x7b\x7b/n\x7d\x7d"
    let env : Env := ⟨{}, [], ({} : Registry).lambdas⟩
    let context : Value := .map [("a", .map [("x", .list [.string "1"])])]
    let standing : Standing := ⟨.body .whole ⟨4, [⟨1, 4⟩]⟩, ⟨2, []⟩⟩
    (Program.compile env.engine.dialect default source).map (fun program =>
        (raisesOfRender env program context {}).map (·.standing)) = .ok [standing] ∧
      (parse {} source).map (fun tree => (standing.execution? source {} tree).map fun execution =>
        (execution.own, execution.regions.map fun region => (region.role, region.body.span))) =
          .ok (some (⟨13, 18⟩, [(.repeated, ⟨13, 18⟩), (.inverted, ⟨6, 24⟩)])) := by
  decide +kernel

end Render
end Mustache
