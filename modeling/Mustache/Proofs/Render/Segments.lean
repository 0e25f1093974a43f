import Mustache.Proofs.Render.Strokes

/-! Runs under any indent. They do the same and write the same, but for the indent itself, which stands
between segments that do not depend on it, each time at the start of a line. -/
namespace Mustache.Render

open Texted

/-! ### Texts with an indent left open -/

/-- A text in pieces, one of them for each place where the indent stands. -/
def lace (indent : String) : List (Option String) → String
  | [] => ""
  | none :: more => indent ++ lace indent more
  | some text :: more => text ++ lace indent more

theorem lace_append (indent : String) (first second : List (Option String)) :
    lace indent (first ++ second) = lace indent first ++ lace indent second := by
  induction first with
  | nil => exact (String.empty_append).symm
  | cons piece rest ih => cases piece <;> rw [List.cons_append, lace, lace, ih, String.append_assoc]

theorem lace_some (indent text : String) : lace indent [some text] = text := String.append_empty

/-- The indent as one that has something after it. -/
def widened (more : String) (pieces : List (Option String)) : List (Option String) :=
  pieces.flatMap fun piece => match piece with
    | none => [none, some more]
    | some text => [some text]

theorem lace_widened (indent more : String) (pieces : List (Option String)) :
    lace indent (widened more pieces) = lace (indent ++ more) pieces := by
  induction pieces with
  | nil => rfl
  | cons piece rest ih =>
    have split : widened more (piece :: rest) = widened more [piece] ++ widened more rest := by
      simp [widened]
    rw [split, lace_append, ih]
    cases piece <;> simp [widened, lace, String.append_assoc]

/-- The indent stands only where a line starts, from the start of a line or not. -/
def Leading (indent : String) : Bool → List (Option String) → Prop
  | _, [] => True
  | start, none :: more => start = true ∧ Leading indent (Text.startsLine start indent.toList) more
  | start, some text :: more => Leading indent (Text.startsLine start text.toList) more

theorem Leading.mono {indent : String} {first second : Bool} (implies : first = true → second = true)
    {pieces : List (Option String)} (leading : Leading indent first pieces) : Leading indent second pieces := by
  induction pieces generalizing first second with
  | nil => trivial
  | cons piece rest ih =>
    cases piece with
    | none => exact ⟨implies leading.1, ih (Text.startsLine_mono implies) leading.2⟩
    | some text => exact ih (Text.startsLine_mono implies) leading

theorem Leading.append {indent : String} {start : Bool} {first second : List (Option String)}
    (here : Leading indent start first)
    (there : Leading indent (Text.startsLine start (lace indent first).toList) second) :
    Leading indent start (first ++ second) := by
  induction first generalizing start with
  | nil => exact there
  | cons piece rest ih =>
    cases piece with
    | none =>
      rw [lace, String.toList_append, Text.startsLine_append] at there
      exact ⟨here.1, ih here.2 there⟩
    | some text =>
      rw [lace, String.toList_append, Text.startsLine_append] at there
      exact ih here there

theorem Leading.widened {indent more : String} {start : Bool} {pieces : List (Option String)}
    (leading : Leading (indent ++ more) start pieces) : Leading indent start (widened more pieces) := by
  induction pieces generalizing start with
  | nil => trivial
  | cons piece rest ih =>
    cases piece with
    | none =>
      obtain ⟨here, there⟩ := leading
      rw [String.toList_append, Text.startsLine_append] at there
      exact ⟨here, ih there⟩
    | some text => exact ih leading

/-- The places of the indent cut a text into segments, each but the last up to the start of a line. -/
theorem exists_segments (pieces : List (Option String)) :
    ∃ segments ≠ [], ∀ indent : String, lace indent pieces = indent.intercalate segments ∧
      ∀ start, Leading indent start pieces → ∀ before rest, segments = before ++ rest → before ≠ [] →
        rest ≠ [] → Text.startsLine start (indent.intercalate before).toList = true := by
  induction pieces with
  | nil =>
    refine ⟨[""], by simp, fun indent => ⟨rfl, fun start _ before rest whole some others => ?_⟩⟩
    obtain ⟨before', -, none⟩ := (List.cons_eq_append_iff.1 whole).resolve_left fun none => some none.1
    exact (others (List.append_eq_nil_iff.1 none.symm).2).elim
  | cons piece rest ih =>
    obtain ⟨segments, nonempty, same⟩ := ih
    obtain ⟨first, more, rfl⟩ := List.exists_cons_of_ne_nil nonempty
    cases piece with
    | none =>
      refine ⟨"" :: first :: more, by simp, fun indent => ⟨?_, ?_⟩⟩
      · rw [lace, (same indent).1, String.intercalate_cons_cons, String.empty_append]
      · intro start leading before later whole some others
        obtain ⟨before', rfl, whole'⟩ := (List.cons_eq_append_iff.1 whole).resolve_left fun none => some none.1
        cases before' with
        | nil => exact leading.1
        | cons second before' =>
          rw [String.intercalate_cons_cons, String.empty_append, String.toList_append, Text.startsLine_append]
          exact (same indent).2 _ leading.2 _ later whole' (List.cons_ne_nil _ _) others
    | some text =>
      refine ⟨(text ++ first) :: more, by simp, fun indent => ⟨?_, ?_⟩⟩
      · rw [lace, (same indent).1, String.intercalate_cons_append]
      · intro start leading before later whole some others
        obtain ⟨before', rfl, rfl⟩ := (List.cons_eq_append_iff.1 whole).resolve_left fun none => some none.1
        rw [String.intercalate_cons_append, String.toList_append, Text.startsLine_append]
        exact (same indent).2 _ leading _ later rfl (List.cons_ne_nil _ _) others

/-! ### Actions for each indent -/

/-- What has been run under an indent, with the text that it has written. -/
structure Laid {α : Type} [Texted α] (indent : String) (start : Bool) (outcome : Except Stop α)
    (after : Machine) (pieces : List (Option String)) (ran : Except Stop α × Machine) (sheet : Pen → Sheet) :
    Prop where
  ran : ran = (outcome.map (withText · (lace indent pieces)), after)
  buffer : ∀ pen, (sheet pen).pen.buffer = pen.buffer ++ lace indent pieces
  leading : Leading indent start pieces
  starts : after.lineStart = true → Text.startsLine start (lace indent pieces).toList = true

/-- The same under any indent, but for the places where the indent stands in what is written. -/
def Segmented {α : Type} [Texted α] (action : String → Act α) (sheet : String → Machine → Pen → Sheet) :
    Prop :=
  ∀ m, ∃ outcome after pieces, ∀ indent,
    Laid indent m.lineStart outcome after pieces ((action indent).run.run m) (sheet indent m)

/-- Nothing has been written. -/
theorem Laid.nothing {α : Type} [Texted α] {indent : String} {m after : Machine} {outcome : Except Stop α}
    {ran : Except Stop α × Machine} {sheet : Pen → Sheet}
    (same : ran = (outcome.map (withText · ""), after)) (kept : after.lineStart = m.lineStart)
    (quiet : ∀ pen, (sheet pen).pen.buffer = pen.buffer) :
    Laid indent m.lineStart outcome after [] ran sheet :=
  ⟨same, fun pen => (quiet pen).trans String.append_empty.symm, trivial, fun starts => kept.symm.trans starts⟩

namespace Segmented

theorem stop {α : Type} [Texted α] (cause : Stop) (deed : Deed) :
    Segmented (fun _ => (throw cause : Act α)) fun _ => .still deed :=
  fun m => ⟨.error cause, m, [], fun _ => .nothing rfl rfl fun _ => rfl⟩

variable {action : String → Act String} {sheet : String → Machine → Pen → Sheet}

/-- Under one indent, whatever the indent around it is. -/
theorem fixed (segmented : Segmented action sheet) (own : String) :
    Segmented (fun _ => action own) fun _ => sheet own := by
  intro m
  obtain ⟨outcome, after, pieces, same⟩ := segmented m
  refine ⟨outcome, after, [some (lace own pieces)], fun indent => ?_⟩
  obtain ⟨ran, buffer, -, starts⟩ := same own
  rw [← lace_some indent (lace own pieces)] at ran buffer starts
  exact ⟨ran, buffer, trivial, starts⟩

/-- Under an indent that has something after it. -/
theorem wider (segmented : Segmented action sheet) (more : String) :
    Segmented (fun indent => action (indent ++ more)) fun indent => sheet (indent ++ more) := by
  intro m
  obtain ⟨outcome, after, pieces, same⟩ := segmented m
  refine ⟨outcome, after, widened more pieces, fun indent => ?_⟩
  obtain ⟨ran, buffer, leading, starts⟩ := same (indent ++ more)
  rw [← lace_widened] at ran buffer starts
  exact ⟨ran, buffer, leading.widened, starts⟩

/-- What is cleaned up after is so under any indent. -/
theorem andFinally (segmented : Segmented action sheet) {cleanup : Act Unit}
    (kept : ∀ m, (cleanup.run.run m).2.lineStart = m.lineStart) :
    Segmented (fun indent => Render.andFinally (action indent) cleanup) sheet := by
  intro m
  obtain ⟨outcome, after, pieces, same⟩ := segmented m
  have still := kept after
  obtain ⟨⟨cleaned, m'⟩, ended⟩ : ∃ ran, cleanup.run.run after = ran := ⟨_, rfl⟩
  rw [ended] at still
  have starts (indent : String) (start : m'.lineStart = true) := (same indent).starts (still.symm.trans start)
  cases cleaned with
  | error cause =>
    refine ⟨.error cause, m', pieces, fun indent =>
      ⟨?_, (same indent).buffer, (same indent).leading, starts indent⟩⟩
    rw [run_andFinally, (same indent).ran]
    dsimp only
    rw [ended]
    rfl
  | ok _ =>
    refine ⟨outcome, m', pieces, fun indent =>
      ⟨?_, (same indent).buffer, (same indent).leading, starts indent⟩⟩
    rw [run_andFinally, (same indent).ran]
    dsimp only
    rw [ended]

theorem invoke (segmented : Segmented action sheet) (limit : Nat) (invocation : Invocation) :
    Segmented (fun indent => deeper limit (Plan.entering invocation (action indent)))
      fun indent m pen => if limit ≤ m.depth then .still .refuse m pen
        else sheet indent (m.enter invocation) pen := by
  intro m
  by_cases full : limit ≤ m.depth
  · refine ⟨.error (.error { cause := .tooDeep limit }), m, [], fun indent => ?_⟩
    rw [run_deeper]
    simp only [if_pos full]
    exact .nothing rfl rfl fun _ => rfl
  have entered : ∃ outcome after pieces, ∀ indent, Laid indent m.lineStart outcome after pieces
      ((Plan.entering invocation (action indent)).run.run { m with depth := m.depth + 1 })
      (sheet indent (m.enter invocation)) := by
    cases invocation with
    | parent program name given =>
      exact segmented.andFinally popOverlay_lineStart (m.enter (.parent program name given))
    | _ => exact segmented { m with depth := m.depth + 1 }
  obtain ⟨outcome, after, pieces, same⟩ := entered
  refine ⟨outcome, { after with depth := after.depth - 1 }, pieces, fun indent => ?_⟩
  obtain ⟨ran, buffer, leading, starts⟩ := same indent
  rw [run_deeper]
  simp only [if_neg full, ran]
  exact ⟨rfl, buffer, leading, starts⟩

end Segmented

/-! ### Plans for each indent -/

namespace Plan

theorem sheet_map {α β : Type} (s : Stage) (t : Scribes) (plan : Plan α) (f : α → β) (m : Machine)
    (pen : Pen) :
    ((plan >>= fun a => (Pure.pure (f a) : Plan β)).sheet s t m pen).pen = (plan.sheet s t m pen).pen := by
  rw [sheet_bind]
  generalize (plan.act s).run.run m = ran
  obtain ⟨_ | _, _⟩ := ran <;> rfl

end Plan

/-- Plans that are carried out and written alike. -/
structure Plan.Same {α : Type} (plan plan' : Plan α) : Prop where
  act : ∀ s, plan.act s = plan'.act s
  pen : ∀ s t m pen, (plan.sheet s t m pen).pen = (plan'.sheet s t m pen).pen

namespace Plan.Same

variable {α β γ : Type}

theorem trans {plan plan' plan'' : Plan α} (same : plan.Same plan') (same' : plan'.Same plan'') :
    plan.Same plan'' :=
  ⟨fun s => (same.act s).trans (same'.act s), fun s t m pen => (same.pen s t m pen).trans (same'.pen s t m pen)⟩

theorem next_congr (first : Plan α) {next next' : α → Plan β} (same : ∀ a, (next a).Same (next' a)) :
    (first >>= next).Same (first >>= next') := by
  refine ⟨fun s => bind_congr fun a => (same a).act s, fun s t m pen => ?_⟩
  rw [sheet_bind, sheet_bind]
  generalize (first.act s).run.run m = ran
  obtain ⟨cause | a, m'⟩ := ran
  · rfl
  · exact (same a).pen s t m' _

theorem assoc (first : Plan α) (next : α → Plan β) (last : β → Plan γ) :
    (first >>= next >>= last).Same (first >>= fun a => next a >>= last) := by
  refine ⟨fun s => ?_, fun s t m pen => ?_⟩
  · exact bind_assoc (first.act s) (fun a => (next a).act s) fun b => (last b).act s
  have middle : ((first >>= next).act s).run.run m = _ := run_bind m (first.act s) fun a => (next a).act s
  rw [sheet_bind, sheet_bind, sheet_bind, middle]
  generalize (first.act s).run.run m = ran
  obtain ⟨cause | a, m'⟩ := ran
  · rfl
  show (Sheet.continued _ _ (((next a).act s).run.run m')).pen =
    (((next a) >>= last).sheet s t m' _).pen
  rw [sheet_bind]
  generalize ((next a).act s).run.run m' = ran'
  obtain ⟨cause | b, m''⟩ := ran' <;> rfl

theorem after_pure (a : α) (next : α → Plan β) : ((Pure.pure a : Plan α) >>= next).Same (next a) :=
  ⟨fun s => pure_bind a fun a => (next a).act s, fun _ _ _ _ => rfl⟩

theorem after_stop (cause : Stop) (next : α → Plan β) : ((stop cause : Plan α) >>= next).Same (stop cause) :=
  ⟨fun _ => rfl, fun _ _ _ _ => rfl⟩

end Plan.Same

/-- What a block sets out to do, as one plan. -/
theorem Place.same_slot (p : Place) (name : String) (skip : Nat) (expression : Option Value) :
    (p.step (.slot name skip) expression).Same (Plan.given name >>= fun found => match found with
      | none => pure { expression }
      | some override => match Entries.get? override.key override.program.blocks with
        | none => .stop (.fault .missingBlock)
        | some instrs =>
          Plan.invoke (.override name) override.program instrs "" >>= fun text =>
            pure { text, expression, skip }) := by
  refine (Plan.Same.assoc (Plan.given name) _ _).trans (.next_congr _ fun found => ?_)
  cases found with
  | none => exact .after_pure _ _
  | some override =>
    dsimp only
    cases Entries.get? override.key override.program.blocks with
    | none => exact .after_stop _ _
    | some instrs => exact (Plan.Same.assoc _ _ _).trans (.next_congr _ fun text => .after_pure _ _)

/-- A stage for each indent. -/
structure Stages where
  env : Env
  program : Program
  nested : Runner
  body : String → Section → Act String
  written : String → Section → Machine → Pen → Sheet
  sheets : Program → List Instr → String → Machine → Pen → Sheet

namespace Stages

def stage (f : Stages) (indent : String) : Stage := ⟨f.env, f.program, indent, f.body indent, f.nested⟩

def scribes (f : Stages) (indent : String) : Scribes := ⟨f.written indent, f.sheets⟩

/-- A plan for each indent does the same, but for the places where the indent stands in its text. -/
def Lays (f : Stages) {α : Type} [Texted α] (plan : String → Plan α) : Prop :=
  Segmented (fun indent => (plan indent).act (f.stage indent))
    fun indent => (plan indent).sheet (f.stage indent) (f.scribes indent)

/-- Bodies and nested programs are the same under any indent. -/
structure Lawful (f : Stages) : Prop where
  body : ∀ sec, Segmented (fun indent => f.body indent sec) fun indent => f.written indent sec
  nested : ∀ program instrs, Segmented (f.nested program instrs) (f.sheets program instrs)

namespace Lays

variable {f : Stages} {α : Type} [Texted α]

theorem stop (cause : Stop) : f.Lays fun _ => (.stop cause : Plan α) :=
  Segmented.stop cause .other

theorem empty {a : α} (empty : text a = "") : f.Lays fun _ => (pure a : Plan α) := by
  have same : a = withText a "" := ((congrArg (withText a) empty.symm).trans (withText_text a)).symm
  exact fun m => ⟨.ok a, m, [], fun indent =>
    .nothing (congrArg (fun a => (Except.ok a, m)) same) rfl fun _ => rfl⟩

/-- After something that writes nothing and is the same under any indent. -/
theorem after {γ : Type} (action : Act γ) {first : String → Plan γ}
    (same : ∀ indent, (first indent).act (f.stage indent) = action)
    (kept : ∀ m, (action.run.run m).2.lineStart = m.lineStart)
    (quiet : ∀ indent m pen,
      ((first indent).sheet (f.stage indent) (f.scribes indent) m pen).pen.buffer = pen.buffer)
    {next : String → γ → Plan α} (later : ∀ c, f.Lays fun indent => next indent c) :
    f.Lays fun indent => first indent >>= next indent := by
  intro m
  have still := kept m
  cases ran : action.run.run m with
  | mk result m' =>
    rw [ran] at still
    have started (indent : String) : ((first indent).act (f.stage indent)).run.run m = (result, m') := by
      rw [same, ran]
    have whole (indent : String) := Plan.run_act_bind (f.stage indent) (first indent) (next indent) m
    simp only [started] at whole
    cases result with
    | error cause =>
      refine ⟨.error cause, m', [], fun indent => .nothing (whole indent) still fun pen => ?_⟩
      dsimp only
      rw [Plan.sheet_bind, started]
      exact quiet indent m pen
    | ok c =>
      obtain ⟨outcome, ended, pieces, laid⟩ := later c m'
      refine ⟨outcome, ended, pieces, fun indent => ?_⟩
      obtain ⟨ran', buffer, leading, starts⟩ := laid indent
      rw [still] at leading starts
      refine ⟨(whole indent).trans ran', fun pen => ?_, leading, starts⟩
      dsimp only
      rw [Plan.sheet_bind, started]
      exact (buffer _).trans (congrArg (· ++ _) (quiet indent m pen))

theorem silently {γ : Type} (action : Act γ) {first : String → Plan γ}
    (silent : ∀ indent, (first indent).Silent) (same : ∀ indent, (first indent).act (f.stage indent) = action)
    {next : String → γ → Plan α} (later : ∀ c, f.Lays fun indent => next indent c) :
    f.Lays fun indent => first indent >>= next indent := by
  refine after action same (fun m => ?_)
    (fun indent m pen => congrArg Pen.buffer ((silent indent).sheet _ _ m pen)) later
  rw [← same ""]
  exact ((silent "").run (f.stage "") ⟨fun _ _ => [], fun _ _ _ _ => []⟩ m).2

/-- One text after another. What comes next is the same whatever the first text is. -/
theorem joined {first : String → Plan α} (lays : f.Lays first) {next : String → α → Plan String}
    (blind : ∀ indent a given, next indent (withText a given) = next indent a)
    (rest : ∀ a, f.Lays fun indent => next indent a) :
    f.Lays fun indent => first indent >>= fun a => next indent a >>= fun others => pure (text a ++ others) := by
  intro m
  obtain ⟨outcome, m', pieces, laid⟩ := lays m
  have sheet (indent : String) (pen : Pen) := Plan.sheet_bind (f.stage indent) (f.scribes indent) (first indent)
    (fun a => next indent a >>= fun others => pure (text a ++ others)) m pen
  have whole (indent : String) := Plan.run_act_bind (f.stage indent) (first indent)
    (fun a => next indent a >>= fun others => pure (text a ++ others)) m
  simp only [(laid _).ran] at sheet whole
  cases outcome with
  | error cause =>
    refine ⟨.error cause, m', pieces, fun indent => ⟨whole indent, fun pen => ?_, (laid indent).leading,
      (laid indent).starts⟩⟩
    dsimp only
    rw [sheet]
    exact (laid indent).buffer pen
  | ok a =>
    obtain ⟨outcome', m'', pieces', laid'⟩ := rest a m'
    refine ⟨outcome', m'', pieces ++ pieces', fun indent => ?_⟩
    obtain ⟨-, buffer, leading, starts⟩ := laid indent
    obtain ⟨ran', buffer', leading', starts'⟩ := laid' indent
    refine ⟨(whole indent).trans ?_, fun pen => ?_, leading.append (leading'.mono starts), fun ended => ?_⟩
    · -- the first text is not the same under each indent, but what comes next does not depend on it
      show ((next indent (withText a _)).act (f.stage indent) >>= fun others =>
        pure (text (withText a _) ++ others)).run.run m' = _
      rw [blind, text_withText, run_map, ran', lace_append]
      cases outcome' <;> rfl
    · dsimp only
      rw [sheet]
      show ((next indent (withText a _) >>= fun others => pure (text (withText a _) ++ others)).sheet
        (f.stage indent) (f.scribes indent) m' _).pen.buffer = _
      rw [Plan.sheet_map, blind, buffer', buffer, lace_append, String.append_assoc]
    · rw [lace_append, String.toList_append, Text.startsLine_append]
      exact Text.startsLine_mono starts (starts' ended)

theorem map {β : Type} [Texted β] {plan : String → Plan α} (lays : f.Lays plan) {result : α → β}
    (kept : ∀ a given, result (withText a given) = withText (result a) given) :
    f.Lays fun indent => plan indent >>= fun a => pure (result a) := by
  intro m
  obtain ⟨outcome, m', pieces, laid⟩ := lays m
  refine ⟨outcome.map result, m', pieces, fun indent => ?_⟩
  obtain ⟨ran, buffer, leading, starts⟩ := laid indent
  refine ⟨?_, fun pen => ?_, leading, starts⟩
  · show ((plan indent).act (f.stage indent) >>= fun a => pure (result a)).run.run m = _
    rw [run_map, ran]
    cases outcome with
    | error cause => rfl
    | ok a => exact congrArg (fun b => (Except.ok b, m')) (kept a _)
  · dsimp only
    rw [Plan.sheet_map]
    exact buffer pen

theorem of_same {plan plan' : String → Plan α} (same : ∀ indent, (plan indent).Same (plan' indent))
    (lays : f.Lays plan') : f.Lays plan := by
  intro m
  obtain ⟨outcome, m', pieces, laid⟩ := lays m
  refine ⟨outcome, m', pieces, fun indent => ?_⟩
  obtain ⟨ran, buffer, leading, starts⟩ := laid indent
  refine ⟨?_, fun pen => ?_, leading, starts⟩
  · dsimp only
    rw [(same indent).act]
    exact ran
  · dsimp only
    rw [(same indent).pen]
    exact buffer pen

theorem put {given : String} {ends : Bool} (truthful : (Plan.put given ends).Truthful) :
    f.Lays fun _ => Plan.put given ends := by
  intro m
  refine ⟨.ok "", { m with lineStart := ends }, if m.lineStart then [none, some given] else [some given],
    fun indent => ?_⟩
  have laid : lace indent (if m.lineStart then [none, some given] else [some given]) =
      if m.lineStart then indent ++ given else given := by
    cases m.lineStart <;> simp [lace]
  refine ⟨?_, fun pen => ?_, ?_, fun ended => ?_⟩
  · rw [laid]
    rfl
  · rw [laid]
    rfl
  · cases m.lineStart
    · trivial
    · exact ⟨rfl, trivial⟩
  · have starts := startsLine_of_endsLine (truthful ended)
    rw [laid]
    split
    · rw [String.toList_append, Text.startsLine_append, starts]
    · exact starts _

end Lays

namespace Lawful

variable {f : Stages} (lawful : f.Lawful)
include lawful

theorem forFrames (sec : Section) (frames : List Value) : f.Lays fun _ => Plan.forFrames sec frames := by
  induction frames with
  | nil => exact .empty rfl
  | cons frame rest ih =>
    have first : f.Lays fun _ => Plan.within frame sec := fun m =>
      (lawful.body sec).andFinally popFrame_lineStart { m with frames := frame :: m.frames }
    exact first.joined (fun _ _ _ => rfl) fun _ => ih

/-- What is invoked under the indent of the place, with more after it. -/
theorem invoke (invocation : Invocation) (program : Program) (instrs : List Instr) (more : String) :
    f.Lays fun indent => Plan.invoke invocation program instrs (indent ++ more) :=
  ((lawful.nested program instrs).wider more).invoke f.env.engine.maxDepth invocation

theorem enclose (sec : Section) (handle : Lambda) :
    f.Lays fun indent => (f.stage indent).place.enclose sec handle := by
  have rendered (text : String) : (Place.renderFor sec text).Silent := trivial
  have called : (Plan.located sec.span
      (Plan.callEnclosing f.env.lambdas (Place.renderFor sec) handle sec.text)).Silent :=
    Plan.silent_callEnclosing _ rendered handle _
  have fetched (text : String) : (Plan.fetchLambda sec.changeTag text).Silent := trivial
  let action := located f.program.source sec.span
    (callEnclosing f.env.lambdas ((f.stage "").renderFor sec) handle sec.text)
  have same (indent : String) : (Plan.located sec.span (Plan.callEnclosing f.env.lambdas (Place.renderFor sec)
      handle sec.text)).act (f.stage indent) = action :=
    congrArg (located _ _) (Plan.act_callEnclosing _ _ (Place.act_renderFor (f.stage indent) sec) handle _)
  refine .silently action (fun _ => called) same fun result => ?_
  refine .silently ((f.stage "").textOf sec.span result) (fun indent => (f.stage indent).place.silent_textOf _ _)
    (fun indent => Place.act_textOf (f.stage indent) sec.span result) fun text => ?_
  by_cases tagged : Text.contains sec.opening text.toList
  · simp only [if_pos tagged]
    refine .silently ((Plan.fetchLambda sec.changeTag text).act (f.stage "")) (fun _ => fetched text)
      (fun _ => rfl) fun program => ?_
    have invoked := lawful.invoke .lambda program program.instrs ""
    simp only [String.append_empty] at invoked
    exact invoked
  · simp only [if_neg tagged]
    by_cases blank : text.isEmpty
    · simp only [if_pos blank]
      exact .empty rfl
    · simp only [if_neg blank]
      exact .put id

theorem repeated (key : Key) (v : Value) : f.Lays fun indent => (f.stage indent).place.repeated key v := by
  unfold Place.repeated
  dsimp only [Stage.place, stage]
  cases Entries.get? key f.program.sections with
  | none => exact .stop _
  | some sec =>
    dsimp only
    cases v.callable? f.program.strictCallables with
    | some handle => exact lawful.enclose sec handle
    | none =>
      dsimp only
      by_cases empty : v.isEmpty
      · simp only [if_pos empty]
        exact .empty rfl
      · simp only [if_neg empty]
        exact lawful.forFrames sec v.frames

theorem partialCall (name indent : String) :
    f.Lays fun outer => (f.stage outer).place.partialCall name indent := by
  refine .silently ((f.stage "").fetchPartial name) (fun outer => (f.stage outer).place.silent_fetchPartial name)
    (fun outer => Place.act_fetchPartial (f.stage outer) name) fun found => ?_
  cases found with
  | none => exact .empty rfl
  | some program => exact lawful.invoke (.partialRef name) program program.instrs indent

theorem parentCall (name indent : String) (given : List (String × Key)) :
    f.Lays fun outer => (f.stage outer).place.parentCall name indent given := by
  refine .silently ((f.stage "").fetchPartial name) (fun outer => (f.stage outer).place.silent_fetchPartial name)
    (fun outer => Place.act_fetchPartial (f.stage outer) name) fun found => ?_
  cases found with
  | none => exact .empty rfl
  | some program => exact lawful.invoke (.parent f.program name given) program program.instrs indent

/-- The argument given for a block is written without an indent of its own. -/
theorem slot (name : String) (skip : Nat) (expression : Option Value) :
    f.Lays fun indent => (f.stage indent).place.step (.slot name skip) expression := by
  refine .of_same (fun indent => (f.stage indent).place.same_slot name skip expression) ?_
  refine .after ((Plan.given name).act (f.stage "")) (fun _ => rfl) (fun _ => rfl) (fun _ _ _ => rfl) fun found => ?_
  cases found with
  | none => exact .empty rfl
  | some override =>
    dsimp only
    cases Entries.get? override.key override.program.blocks with
    | none => exact .stop _
    | some instrs =>
      have invoked : f.Lays fun _ => Plan.invoke (.override name) override.program instrs "" :=
        ((lawful.nested override.program instrs).fixed "").invoke f.env.engine.maxDepth (.override name)
      exact invoked.map fun _ _ => rfl

theorem step (instr : Instr) (expression : Option Value) :
    f.Lays fun indent => (f.stage indent).place.step instr expression := by
  have outcome {plan : String → Plan String} (lays : f.Lays plan) (expression : Option Value) :
      f.Lays fun indent => plan indent >>= fun text => (pure { text, expression } : Plan Outcome) :=
    lays.map fun _ _ => rfl
  cases instr with
  | text text =>
    have put : f.Lays fun _ => Plan.put text (Stage.endsLine text) := .put id
    exact outcome put expression
  | lookup ref =>
    cases expression with
    | none =>
      have found : (Plan.find ref).Silent := trivial
      refine .silently ((Plan.find ref).act (f.stage "")) (fun _ => found) (fun _ => rfl) fun v => ?_
      exact .empty rfl
    | some v => exact .stop _
  | resolve span =>
    cases expression with
    | none => exact .stop _
    | some v =>
      refine .silently ((f.stage "").resolve span v) (fun indent => (f.stage indent).place.silent_resolve span v)
        (fun indent => Place.act_resolve (f.stage indent) span v) fun v => ?_
      exact .empty rfl
  | apply ref =>
    cases expression with
    | none => exact .stop _
    | some v =>
      refine .silently ((f.stage "").apply ref v) (fun indent => (f.stage indent).place.silent_apply ref v)
        (fun indent => Place.act_apply (f.stage indent) ref v) fun v => ?_
      exact .empty rfl
  | emit isEscaped span =>
    cases expression with
    | none => exact .stop _
    | some v =>
      refine .silently ((f.stage "").textOf span v) (fun indent => (f.stage indent).place.silent_textOf span v)
        (fun indent => Place.act_textOf (f.stage indent) span v) fun text => ?_
      have put : f.Lays fun _ => Plan.put (if isEscaped then (f.stage "").place.escaped text else text) false :=
        .put nofun
      exact outcome put none
  | «repeated» key =>
    cases expression with
    | none => exact .stop _
    | some v => exact outcome (lawful.repeated key v) none
  | unlessEmpty skip =>
    cases expression with
    | none => exact .stop _
    | some v => exact .empty rfl
  | partialCall name indent => exact outcome (lawful.partialCall name indent) expression
  | parentCall name indent given => exact outcome (lawful.parentCall name indent given) expression
  | slot name skip => exact lawful.slot name skip expression
  | strayArgument name => exact .stop _

theorem steps (instrs : List Instr) (skip : Nat) (expression : Option Value) :
    f.Lays fun indent => (f.stage indent).place.steps instrs skip expression := by
  induction instrs generalizing skip expression with
  | nil =>
    cases skip with
    | zero =>
      cases expression with
      | none => exact .empty rfl
      | some v => exact .stop _
    | succ skip => exact .stop _
  | cons instr rest ih =>
    cases skip with
    | succ skip => exact ih skip expression
    | zero =>
      have reached : (Plan.reach (instr :: rest)).Silent := trivial
      refine .silently ((Plan.reach (instr :: rest)).act (f.stage "")) (fun _ => reached) (fun _ => rfl) fun _ => ?_
      exact (lawful.step instr expression).joined (fun _ _ _ => rfl) fun outcome => ih _ _

end Lawful

end Stages

/-! ### Runs for each indent -/

theorem segmented_run (env : Env) (levels : Nat) (program : Program) (instrs : List Instr) :
    Segmented (run env levels program instrs) (sheetOfRun env levels program instrs) := by
  -- the indent is left open in the induction, as what is called has a longer one
  induction levels generalizing program instrs with
  | zero => exact .stop _ _
  | succ levels ih =>
    have bodies (budget : Nat) (instrs : List Instr) :
        Segmented (fun indent => runBody env (run env levels) program indent budget instrs) fun indent =>
          sheetOfBody env (run env levels) (sheetOfRun env levels) program indent budget instrs := by
      induction budget generalizing instrs with
      | zero => exact .stop _ _
      | succ budget ih' =>
        let body (indent : String) (sec : Section) :=
          runBody env (run env levels) program indent budget sec.instrs
        let written (indent : String) (sec : Section) :=
          sheetOfBody env (run env levels) (sheetOfRun env levels) program indent budget sec.instrs
        let f : Stages := ⟨env, program, run env levels, body, written, sheetOfRun env levels⟩
        have lawful : f.Lawful := ⟨fun sec => ih' sec.instrs, ih⟩
        have steps := lawful.steps instrs 0 none
        unfold Stages.Lays at steps
        simp only [Place.act_steps] at steps
        exact steps
    exact bodies _ instrs

/-- Where a line starts nothing has been written to the buffer, or the last line is ended. -/
theorem Pen.AtLine.ended {pen : Pen} (start : pen.AtLine) :
    pen.buffer = "" ∨ ∃ lines, pen.buffer = lines ++ "\n" := by
  unfold Pen.AtLine Text.startsLine at start
  cases last : pen.buffer.toList.getLast? with
  | none => exact .inl (String.toList_eq_nil_iff.1 (List.getLast?_eq_none_iff.1 last))
  | some c =>
    rw [last] at start
    obtain ⟨lines, whole⟩ := List.getLast?_eq_some_iff.1 last
    obtain rfl : c = '\n' := by simpa using start
    refine .inr ⟨.ofList lines, String.toList_injective ?_⟩
    rw [whole, String.toList_append, String.toList_ofList]
    rfl

/-- An indent does nothing but to stand at the start of lines: what a run does, which calls it makes
included, is the same under any, and what it writes is, between the places where the indent stands. Started
at the start of a line with nothing written, as templates and the texts that lambdas have rendered are, a run
starts lines only where nothing is written yet or a line has ended, and so it is in every buffer
that is written on the way. -/
theorem run_indent (env : Env) (levels : Nat) (program : Program) (instrs : List Instr) (m : Machine) :
    (∃ (outcome : Except Stop Unit) (after : Machine) (segments : List String), segments ≠ [] ∧
      ∀ indent : String,
        (run env levels program instrs indent).run.run m =
            (outcome.map fun _ => indent.intercalate segments, after) ∧
          (∀ pen, (sheetOfRun env levels program instrs indent m pen).pen.buffer =
            pen.buffer ++ indent.intercalate segments) ∧
          ∀ before rest, segments = before ++ rest → before ≠ [] → rest ≠ [] →
            Text.startsLine m.lineStart (indent.intercalate before).toList = true) ∧
      ∀ (indent : String) (inherited : Bool),
        let started := { m with lineStart := true }
        let sheet := sheetOfRun env levels program instrs indent started ⟨"", inherited⟩
        let ended := (run env levels program instrs indent).run.run started
        (∀ stroke ∈ sheet.strokes, stroke.lineStart = true →
          stroke.pen.buffer = "" ∨ ∃ lines, stroke.pen.buffer = lines ++ "\n") ∧
          (ended.2.lineStart = true →
            sheet.pen.buffer = "" ∨ ∃ lines, sheet.pen.buffer = lines ++ "\n") := by
  constructor
  · obtain ⟨outcome, after, pieces, same⟩ := segmented_run env levels program instrs m
    obtain ⟨segments, nonempty, laced⟩ := exists_segments pieces
    refine ⟨outcome.map fun _ => (), after, segments, nonempty, fun indent => ?_⟩
    obtain ⟨ran, buffer, leading, -⟩ := same indent
    obtain ⟨whole, starts⟩ := laced indent
    rw [whole] at ran buffer
    refine ⟨ran.trans ?_, buffer, starts _ leading⟩
    cases outcome <;> rfl
  · intro indent inherited started sheet ended
    obtain ⟨strokes, last⟩ := aligned_sheetOfRun env levels program instrs indent started ⟨"", inherited⟩
      fun _ => rfl
    exact ⟨fun stroke member start => (strokes stroke member start).ended, fun start => (last start).ended⟩

end Mustache.Render
