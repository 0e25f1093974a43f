import Mustache.Proofs.Program.Lined
import Mustache.Proofs.Render.Written
import Mustache.Proofs.Text.Indented

/-! Runs under a longer indent: they do the same as under the shorter one, and the rest of the indent
stands at the start of the lines that they write. -/
namespace Mustache.Render

/-- Results with a text in them. -/
class Texted (α : Type) where
  text : α → String
  withText : α → String → α
  text_withText : ∀ a given, text (withText a given) = given
  withText_text : ∀ a, withText a (text a) = a

namespace Texted

instance : Texted String := ⟨id, fun _ given => given, fun _ _ => rfl, fun _ => rfl⟩

instance : Texted Outcome :=
  ⟨Outcome.text, fun outcome text => { outcome with text }, fun _ _ => rfl, fun _ => rfl⟩

/-- A result with more of an indent at the start of the lines of its text. -/
def indent {α : Type} [Texted α] (more : String) (start left : Bool) (a : α) : α :=
  withText a (.ofList (Text.indentFrom more.toList start (text a).toList left))

/-- What comes after a text starts a line only if there is one to start. -/
theorem indent_append {α : Type} [Texted α] {more : String} {start middle left : Bool} {a : α}
    {others : String} (here : middle = true → Text.startsLine start (text a).toList = true)
    (there : left = true → Text.startsLine middle others.toList = true) :
    indent more start left (text a ++ others) =
      text (indent more start middle a) ++ indent more middle left others := by
  unfold indent
  rw [text_withText]
  show String.ofList (Text.indentFrom more.toList start (text a ++ others).toList left) =
    _ ++ String.ofList (Text.indentFrom more.toList middle others.toList left)
  rw [String.toList_append, Text.indentFrom_append _ _ here there, String.ofList_append]

end Texted

open Texted

/-- What has been run with more of an indent, against the same without. -/
structure Indented {α : Type} [Texted α] (more : String) (start : Bool) (writes : List Written)
    (ran' ran : Except Stop α × Machine) : Prop where
  same : ran' = (ran.1.map (indent more start ran.2.lineStart), ran.2)
  starts : ∀ a, ran.1 = .ok a → ran.2.lineStart = true → Text.startsLine start (text a).toList = true
  lineStart : ran.2.lineStart = writes.foldl (fun _ written => written.endsLine) start

def Indents {α : Type} [Texted α] (more : String) (action' action : Act α)
    (writes : Machine → List Written) : Prop :=
  ∀ m, m.store.Built → (∀ written ∈ writes m, written.Plain) →
    Indented more m.lineStart (writes m) (action'.run.run m) (action.run.run m)

def KeepsBuilt {α : Type} (action : Act α) : Prop :=
  ∀ m, m.store.Built → (action.run.run m).2.store.Built

/-! ### Rules -/

theorem run_map {α β : Type} (action : Act α) (f : α → β) (m : Machine) :
    (action >>= fun a => pure (f a)).run.run m =
      ((action.run.run m).1.map f, (action.run.run m).2) := by
  rw [run_bind]
  generalize action.run.run m = ran
  obtain ⟨_ | _, _⟩ := ran <;> rfl

/-- A text that comes after another one. -/
theorem Indented.append {α : Type} [Texted α] {more : String} {start : Bool} {before : List Written}
    {a : α} {m : Machine}
    (starts : m.lineStart = true → Text.startsLine start (text a).toList = true)
    (lineStart : m.lineStart = before.foldl (fun _ written => written.endsLine) start)
    {later : List Written} {ran' ran : Except Stop String × Machine}
    (after : Indented more m.lineStart later ran' ran) :
    Indented more start (before ++ later)
      (ran'.1.map (text (indent more start m.lineStart a) ++ ·), ran'.2)
      (ran.1.map (text a ++ ·), ran.2) := by
  obtain ⟨rfl, starts', lineStart'⟩ := after
  rw [lineStart, ← List.foldl_append] at lineStart'
  obtain ⟨cause | others, m'⟩ := ran
  · exact ⟨rfl, nofun, lineStart'⟩
  have ends : m'.lineStart = true → Text.startsLine m.lineStart others.toList = true := starts' others rfl
  refine ⟨?_, ?_, lineStart'⟩
  · show (Except.ok (text (indent more start m.lineStart a) ++ indent more m.lineStart m'.lineStart others),
      m') = (.ok (indent more start m'.lineStart (text a ++ others)), m')
    rw [indent_append starts ends]
  · intro _ ok last
    cases ok
    show Text.startsLine start (text a ++ others).toList = true
    rw [String.toList_append, Text.startsLine_append]
    exact Text.startsLine_mono starts (ends last)

namespace Indents

variable {α : Type} [Texted α] {more : String} {action' action : Act α}
  {writes : Machine → List Written}

theorem stop (cause : Stop) : Indents more (throw cause : Act α) (throw cause) fun _ => [] :=
  fun _ _ _ => ⟨rfl, nofun, rfl⟩

theorem empty {a : α} (empty : text a = "") : Indents more (pure a) (pure a) fun _ => [] := by
  intro m _ _
  have same : indent more m.lineStart m.lineStart a = a := by
    unfold indent
    rw [empty]
    cases m.lineStart <;> exact (congrArg (withText a) empty.symm).trans (withText_text a)
  refine ⟨?_, ?_, rfl⟩
  · show (Except.ok a, m) = (.ok (indent more m.lineStart m.lineStart a), m)
    rw [same]
  · intro _ ok starts
    cases ok
    rw [empty]
    exact starts

theorem of_eq (indents : Indents more action' action writes) {writes' : Machine → List Written}
    (same : ∀ m, writes' m = writes m) : Indents more action' action writes' := by
  obtain rfl := funext same
  exact indents

/-- After something silent, which is the same under any indent. -/
theorem after {s : Stage} {w : Writers} {γ : Type} {first : Plan γ} (silent : first.Silent)
    (built : KeepsBuilt (first.act s)) {next' next : γ → Act α} {later : γ → Machine → List Written}
    (indents : ∀ m c, m.store.Built → ((first.act s).run.run m).1 = .ok c →
      Indents more (next' c) (next c) (later c)) :
    Indents more (first.act s >>= next') (first.act s >>= next)
      fun m => first.writes s w m ++ following later ((first.act s).run.run m) := by
  intro m stored plain
  obtain ⟨nothing, kept⟩ := silent.run s w m
  have stored' := built m stored
  have continued := indents m
  dsimp only at plain ⊢
  rw [nothing, List.nil_append] at plain ⊢
  rw [run_bind, run_bind]
  generalize (first.act s).run.run m = ran at *
  obtain ⟨cause | c, m'⟩ := ran
  · exact ⟨rfl, nofun, kept⟩
  · have := continued c stored rfl m' stored' plain
    rwa [kept] at this

theorem outcome {action' action : Act String} (indents : Indents more action' action writes)
    (expression : Option Value) (skip : Nat) :
    Indents more (action' >>= fun text => pure ({ text, expression, skip } : Outcome))
      (action >>= fun text => pure { text, expression, skip }) writes := by
  intro m stored plain
  obtain ⟨ran, starts, lineStart⟩ := indents m stored plain
  rw [run_map, run_map, ran]
  generalize action.run.run m = ended at *
  obtain ⟨cause | text, m'⟩ := ended
  · exact ⟨rfl, nofun, lineStart⟩
  · refine ⟨rfl, ?_, lineStart⟩
    intro _ ok
    cases ok
    exact starts text rfl

/-- One text after another. What comes next is the same whether the first text is indented or not. -/
theorem joined (indents : Indents more action' action writes) (built : KeepsBuilt action)
    {next' next : α → Act String} {later : α → Machine → List Written}
    (blind : ∀ a given, next' (withText a given) = next' a)
    (rest : ∀ a, Indents more (next' a) (next a) (later a)) :
    Indents more (action' >>= fun a => next' a >>= fun others => pure (text a ++ others))
      (action >>= fun a => next a >>= fun others => pure (text a ++ others))
      fun m => writes m ++ following later (action.run.run m) := by
  intro m stored plain
  obtain ⟨here, plain'⟩ := List.forall_mem_append.1 plain
  obtain ⟨ran, starts, lineStart⟩ := indents m stored here
  have stored' := built m stored
  rw [run_bind, run_bind, ran]
  dsimp only
  generalize action.run.run m = ended at *
  obtain ⟨cause | a, m'⟩ := ended
  · have nothing : writes m ++ following later (Except.error cause, m') = writes m := List.append_nil _
    rw [nothing]
    exact ⟨rfl, nofun, lineStart⟩
  · have sameNext : next' (indent more m.lineStart m'.lineStart a) = next' a := blind a _
    have after := rest a m' stored' plain'
    show Indented more m.lineStart (writes m ++ later a m')
      ((next' (indent more m.lineStart m'.lineStart a) >>= fun others =>
        pure (text (indent more m.lineStart m'.lineStart a) ++ others)).run.run m')
      ((next a >>= fun others => pure (text a ++ others)).run.run m')
    rw [sameNext, run_map, run_map]
    exact after.append (starts a rfl) lineStart

end Indents

/-- What is cleaned up after is so under any indent. -/
theorem Indented.cleanedUp {α : Type} [Texted α] {more : String} {action' action : Act α}
    {cleanup : Act Unit} (kept : ∀ m, (cleanup.run.run m).2.lineStart = m.lineStart)
    {m : Machine} {start : Bool} {written : List Written}
    (indented : Indented more start written (action'.run.run m) (action.run.run m)) :
    Indented more start written ((andFinally action' cleanup).run.run m)
      ((andFinally action cleanup).run.run m) := by
  obtain ⟨ran, starts, lineStart⟩ := indented
  rw [run_andFinally, run_andFinally, ran]
  generalize action.run.run m = ended at *
  obtain ⟨result, m'⟩ := ended
  have same := kept m'
  dsimp only at starts lineStart ⊢
  generalize cleanup.run.run m' = cleaned at *
  obtain ⟨cause | _, m''⟩ := cleaned
  · exact ⟨rfl, nofun, same.trans lineStart⟩
  · dsimp only at same ⊢
    rw [← same] at starts lineStart ⊢
    exact ⟨rfl, starts, lineStart⟩

/-- The same stage with more of an indent before its own. -/
def Stage.beside (s : Stage) (more : String) (body' : Section → Act String) : Stage :=
  { s with indent := more ++ s.indent, body := body' }

/-- A text with the indent before it, if it starts a line. -/
theorem indented_put {s : Stage} (unbroken : '\n' ∉ s.indent.toList) {given : String} {ends : Bool}
    (line : '\n' ∉ given.toList.dropLast) (last : ends = Text.startsLine false given.toList)
    {written : Written} (same : written.endsLine = ends) (more : String)
    (body' : Section → Act String) :
    Indents more ((Plan.put given ends).act (s.beside more body'))
      ((Plan.put given ends).act s) fun _ => [written] := by
  intro m _ _
  let first (indent : String) := if m.lineStart then indent ++ given else given
  show Indented more m.lineStart [written]
    (.ok (first (more ++ s.indent)), { m with lineStart := ends })
    (.ok (first s.indent), { m with lineStart := ends })
  have unindented : Text.startsLine false (s.indent ++ given).toList = ends := by
    rw [last, String.toList_append, Text.startsLine_append, Text.startsLine_of_unbroken unbroken]
  have line' : '\n' ∉ (s.indent ++ given).toList.dropLast := by
    rw [String.toList_append]
    exact Text.line_append unbroken line
  refine ⟨?_, ?_, same.symm⟩
  · have whole : first (more ++ s.indent) =
        .ofList (Text.indentFrom more.toList m.lineStart (first s.indent).toList ends) := by
      dsimp only [first]
      cases m.lineStart with
      | true =>
        apply String.toList_injective
        rw [String.toList_ofList, if_pos rfl, if_pos rfl, Text.indentFrom_of_line line' unindented.symm,
          if_pos rfl]
        simp only [String.toList_append, List.append_assoc]
      | false =>
        apply String.toList_injective
        rw [String.toList_ofList, if_neg Bool.false_ne_true, if_neg Bool.false_ne_true,
          Text.indentFrom_of_line line last, if_neg Bool.false_ne_true]
    exact congrArg (fun text => (Except.ok text, { m with lineStart := ends })) whole
  · intro _ ok ended
    cases ok
    show Text.startsLine m.lineStart (first s.indent).toList = true
    have last' : Text.startsLine false (first s.indent).toList = true := by
      dsimp only [first]
      split
      · exact unindented.trans ended
      · exact last.symm.trans ended
    have weaker : false = true → m.lineStart = true := nofun
    exact Text.startsLine_mono weaker last'

theorem endsLine_eq (text : String) : Stage.endsLine text = Text.startsLine false text.toList := by
  unfold Stage.endsLine Text.startsLine
  cases text.toList.getLast? <;> rfl

theorem indented_inserted {s : Stage} (unbroken : '\n' ∉ s.indent.toList) (given : String) (ends : Bool)
    (last : ends = true → Stage.endsLine given = true) (more : String) (body' : Section → Act String) :
    Indents more ((Plan.put given ends).act (s.beside more body'))
      ((Plan.put given ends).act s) fun _ => [.inserted given] := by
  intro m stored plain
  have line : '\n' ∉ given.toList := plain (.inserted given) (List.mem_singleton_self _)
  have opens := Text.startsLine_of_unbroken line
  have ended : ends = false := by
    rw [endsLine_eq, opens] at last
    exact Bool.eq_false_iff.2 fun holds => Bool.false_ne_true (last holds)
  have same : (Written.inserted given).endsLine = ends := ended.symm
  exact indented_put unbroken (fun member => line (List.dropLast_subset _ member))
    (ended.trans opens.symm) same more body' m stored plain

theorem popFrame_lineStart (m : Machine) : (popFrame.run.run m).2.lineStart = m.lineStart := by
  unfold popFrame
  rw [run_bind, run_get]
  dsimp only
  cases m.frames <;> rfl

theorem popOverlay_lineStart (m : Machine) : (popOverlay.run.run m).2.lineStart = m.lineStart := by
  unfold popOverlay
  rw [run_bind, run_get]
  dsimp only
  cases m.overlay <;> rfl

/-- What is invoked under a longer indent. -/
theorem Indents.invoke {more : String} {action' action : Act String} {writes : Machine → List Written}
    (indents : Indents more action' action writes) (limit : Nat) (invocation : Invocation) :
    Indents more (deeper limit (Plan.entering invocation action'))
      (deeper limit (Plan.entering invocation action))
      fun m => if limit ≤ m.depth then [] else writes (m.enter invocation) := by
  intro m stored plain
  rw [run_deeper, run_deeper]
  dsimp only at plain ⊢
  split
  · exact ⟨rfl, nofun, rfl⟩
  · rename_i below
    rw [if_neg below] at plain
    have entered : Indented more m.lineStart (writes (m.enter invocation))
        ((Plan.entering invocation action').run.run { m with depth := m.depth + 1 })
        ((Plan.entering invocation action).run.run { m with depth := m.depth + 1 }) := by
      have inside := indents (m.enter invocation) stored plain
      cases invocation with
      | parent program name given => exact .cleanedUp popOverlay_lineStart inside
      | _ => exact inside
    obtain ⟨ran, starts, lineStart⟩ := entered
    rw [ran]
    exact ⟨rfl, starts, lineStart⟩

/-! ### What is fetched -/

theorem built_of_fetch {e : Engine} {origin : Engine.Origin} {source : String} {m : Machine}
    (stored : m.store.Built) {program : Program}
    (ok : ((inStore (e.fetch origin source) >>= ofExcept).run.run m).1 = .ok program) :
    program.Built := by
  rw [run_fetch] at ok
  obtain ⟨follows, held⟩ := e.fetch_answers origin source m.store
  generalize (e.fetch origin source).run m.store = answer at *
  obtain ⟨_ | found, store⟩ := answer
  · cases ok
  · cases ok
    obtain ⟨key, there⟩ := held program rfl
    exact (follows.built stored).memo key program there

theorem keepsBuilt_fetch (e : Engine) (origin : Engine.Origin) (source : String) :
    KeepsBuilt (inStore (e.fetch origin source) >>= ofExcept) := by
  intro m stored
  rw [run_fetch]
  exact (e.fetch_answers origin source m.store).follows.built stored

theorem Stage.keepsBuilt_fetchPartial (s : Stage) (name : String) :
    KeepsBuilt ((s.place.fetchPartial name).act s) := by
  unfold Place.fetchPartial
  cases s.place.env.engine.partials.bind (·.load s.place.env.shelves name) with
  | none => exact fun _ => id
  | some source =>
    intro m stored
    have fetched := keepsBuilt_fetch s.env.engine .template source m stored
    show (((inStore (s.env.engine.fetch .template source) >>= ofExcept) >>= fun program =>
      pure (some program)).run.run m).2.store.Built
    rw [run_map]
    exact fetched

theorem built_of_fetchPartial {s : Stage} {name : String} {m : Machine} (stored : m.store.Built)
    {program : Program} (ok : (((s.place.fetchPartial name).act s).run.run m).1 = .ok (some program)) :
    program.Built := by
  unfold Place.fetchPartial at ok
  cases loaded : s.place.env.engine.partials.bind (·.load s.place.env.shelves name) with
  | none =>
    rw [loaded] at ok
    cases ok
  | some source =>
    rw [loaded] at ok
    obtain ⟨fetched, ok, same⟩ := ok_of_bind ok
    cases same
    exact built_of_fetch stored ok

/-! ### Stages -/

/-- Programs that a stage invokes write the rest of a longer indent at the start of their lines. -/
structure Stage.Inset (s : Stage) (more : String) (w : Writers) : Prop where
  unbroken : '\n' ∉ s.indent.toList
  nested : ∀ program : Program, program.Built → ∀ indent : String, '\n' ∉ indent.toList →
    Indents more (s.nested program program.instrs (more ++ indent))
      (s.nested program program.instrs indent) (w.nested program program.instrs indent)

/-- A stage of a compiled program whose bodies, run beside those under a longer indent, do the same. -/
structure Stage.Beside (s : Stage) (more : String) (body' : Section → Act String) (n : Noters)
    (w : Writers) : Prop extends s.Inset more w where
  lined : s.program.Only Instr.Lined
  accountsBody : ∀ sec, Accounts s.env.engine (s.body sec) (n.body sec)
  accountsNested : ∀ program instrs indent,
    Accounts s.env.engine (s.nested program instrs indent) (n.nested program instrs indent)
  body : ∀ sec, (∀ instr ∈ sec.instrs, instr.Lined) → Indents more (body' sec) (s.body sec) (w.body sec)

namespace Stage.Inset

variable {s : Stage} {more : String} {w : Writers}

theorem invoke (inset : s.Inset more w) (invocation : Invocation) {program : Program}
    (built : program.Built) {indent : String} (unbroken : '\n' ∉ indent.toList) :
    Indents more ((Plan.invoke invocation program program.instrs (more ++ indent)).act s)
      ((Plan.invoke invocation program program.instrs indent).act s)
      ((Plan.invoke invocation program program.instrs indent).writes s w) :=
  (inset.nested program built indent unbroken).invoke s.env.engine.maxDepth invocation

/-- What is called under an indent of its own. -/
theorem call (inset : s.Inset more w) (invocation : Invocation) {program : Program}
    (built : program.Built) {indent : String} (unbroken : '\n' ∉ indent.toList) :
    Indents more
      ((Plan.invoke invocation program program.instrs (more ++ s.indent ++ indent)).act s)
      ((Plan.invoke invocation program program.instrs (s.indent ++ indent)).act s)
      ((Plan.invoke invocation program program.instrs (s.indent ++ indent)).writes s w) := by
  rw [String.append_assoc]
  refine inset.invoke invocation built ?_
  rw [String.toList_append, List.mem_append]
  exact fun member => member.elim inset.unbroken unbroken

theorem partialCall (inset : s.Inset more w) (body' : Section → Act String) (name : String)
    {indent : String} (unbroken : '\n' ∉ indent.toList) :
    Indents more ((s.beside more body').partialCall name indent) (s.partialCall name indent)
      ((s.place.partialCall name indent).writes s w) := by
  unfold Stage.partialCall
  show Indents more (s.fetchPartial name >>= _) (s.fetchPartial name >>= _) _
  rw [← Place.act_fetchPartial]
  refine .after (s.place.silent_fetchPartial name) (s.keepsBuilt_fetchPartial name) ?_
  intro m found stored ok
  cases found with
  | none => exact .empty rfl
  | some program => exact inset.call (.partialRef name) (built_of_fetchPartial stored ok) unbroken

theorem parentCall (inset : s.Inset more w) (body' : Section → Act String) (name : String)
    {indent : String} (given : List (String × Key)) (unbroken : '\n' ∉ indent.toList) :
    Indents more ((s.beside more body').parentCall name indent given) (s.parentCall name indent given)
      ((s.place.parentCall name indent given).writes s w) := by
  unfold Stage.parentCall
  show Indents more (s.fetchPartial name >>= _) (s.fetchPartial name >>= _) _
  rw [← Place.act_fetchPartial]
  refine .after (s.place.silent_fetchPartial name) (s.keepsBuilt_fetchPartial name) ?_
  intro m found stored ok
  cases found with
  | none => exact .empty rfl
  | some program =>
    exact inset.call (.parent s.program name given) (built_of_fetchPartial stored ok) unbroken

end Stage.Inset

namespace Stage.Beside

variable {s : Stage} {more : String} {body' : Section → Act String} {n : Noters} {w : Writers}

theorem keeps (beside : s.Beside more body' n w) {α : Type} (plan : Plan α) :
    KeepsBuilt (plan.act s) := fun _ =>
  (Accounts.plan beside.accountsBody beside.accountsNested plan).built

theorem forFrames (beside : s.Beside more body' n w) {sec : Section}
    (lined : ∀ instr ∈ sec.instrs, instr.Lined) (frames : List Value) :
    Indents more (Stage.forFrames (body' sec) frames) (Stage.forFrames (s.body sec) frames)
      ((Plan.forFrames sec frames).writes s w) := by
  induction frames with
  | nil => exact .empty rfl
  | cons frame rest ih =>
    have first : Indents more (withFrame frame (body' sec)) (withFrame frame (s.body sec))
        ((Plan.within frame sec).writes s w) := fun m stored plain =>
      .cleanedUp popFrame_lineStart (beside.body sec lined { m with frames := frame :: m.frames } stored plain)
    have both := first.joined (beside.keeps (.within frame sec)) (fun _ _ => rfl) fun _ => ih
    have tail (first : String) : (Plan.forFrames sec rest >>= fun others =>
        (pure (first ++ others) : Plan String)).writes s w = (Plan.forFrames sec rest).writes s w :=
      Plan.writes_map s w _ _
    refine both.of_eq fun m => ?_
    exact congrArg (fun later => (Plan.within frame sec).writes s w m ++
      following later ((withFrame frame (s.body sec)).run.run m)) (funext tail)

theorem enclose (beside : s.Beside more body' n w) (sec : Section) (handle : Lambda) :
    Indents more ((s.beside more body').enclose sec handle) (s.enclose sec handle)
      ((s.place.enclose sec handle).writes s w) := by
  have rendered (text : String) : (Place.renderFor sec text).Silent := trivial
  have called : (Plan.located sec.span
      (Plan.callEnclosing s.env.lambdas (Place.renderFor sec) handle sec.text)).Silent :=
    Plan.silent_callEnclosing _ rendered handle _
  unfold Stage.enclose
  show Indents more (located s.program.source sec.span (callEnclosing s.env.lambdas (s.renderFor sec) handle
    sec.text) >>= _) (located s.program.source sec.span (callEnclosing s.env.lambdas (s.renderFor sec)
      handle sec.text) >>= _) _
  rw [← Plan.act_callEnclosing s _ (Place.act_renderFor s sec)]
  refine Indents.after called (beside.keeps _) fun m result stored ok => ?_
  show Indents more (s.textOf sec.span result >>= _) (s.textOf sec.span result >>= _) _
  rw [← Place.act_textOf]
  refine Indents.after (s.place.silent_textOf sec.span result) (beside.keeps _) fun m text stored ok => ?_
  beta_reduce
  by_cases tagged : Text.contains sec.opening text.toList
  · rw [if_pos tagged, if_pos tagged, if_pos tagged]
    have fetched : (Plan.fetchLambda sec.changeTag text).Silent := trivial
    refine Indents.after fetched (beside.keeps _) fun m program stored ok => ?_
    exact beside.toInset.invoke .lambda (built_of_fetch stored ok) beside.unbroken
  · rw [if_neg tagged, if_neg tagged, if_neg tagged]
    by_cases blank : text.isEmpty
    · rw [if_pos blank, if_pos blank, if_pos blank]
      exact .empty rfl
    · rw [if_neg blank, if_neg blank, if_neg blank]
      exact indented_inserted beside.unbroken text _ id more body'

theorem repeated (beside : s.Beside more body' n w) (key : Key) (v : Value) :
    Indents more ((s.beside more body').repeated key v) (s.repeated key v)
      ((s.place.repeated key v).writes s w) := by
  unfold Stage.repeated Place.repeated
  dsimp only [Stage.beside, Stage.place]
  cases found : Entries.get? key s.program.sections with
  | none => exact .stop _
  | some sec =>
    dsimp only
    cases v.callable? s.program.strictCallables with
    | some handle => exact beside.enclose sec handle
    | none =>
      dsimp only
      by_cases empty : v.isEmpty
      · rw [if_pos empty, if_pos empty, if_pos empty]
        exact .empty rfl
      · rw [if_neg empty, if_neg empty, if_neg empty]
        exact beside.forFrames (beside.lined.sections key sec found) v.frames

/-- Without an argument for it a block writes nothing of its own. -/
theorem slot (name : String) (skip : Nat) (expression : Option Value) :
    Indents more ((s.beside more body').step (.slot name skip) expression)
      (s.step (.slot name skip) expression) (s.writesOf w (.slot name skip) expression) := by
  intro m stored plain
  have looked (s' : Stage) : ((Plan.given name).act s').run.run m = (.ok (m.overlay.find? name), m) := rfl
  have first : (Plan.given name).writes s w m =
      if (m.overlay.find? name).isSome then [.argument name] else [] := rfl
  cases found : m.overlay.find? name with
  | some override =>
    -- an argument is rendered without an indent, and is not plain
    rw [found] at first
    have member : .argument name ∈ s.writesOf w (.slot name skip) expression m :=
      List.mem_append_left _ (List.mem_append_left _ (first ▸ List.mem_singleton_self _))
    exact (plain _ member).elim
  | none =>
    rw [found] at first looked
    have passed (s' : Stage) :
        (s'.step (.slot name skip) expression).run.run m = (.ok { expression }, m) := by
      rw [← Place.act_step]
      show (((Plan.given name).act s' >>= _) >>= _).run.run m = _
      rw [run_bind, run_bind, looked]
      rfl
    have nothing : s.writesOf w (.slot name skip) expression m = [] := by
      show ((Plan.given name).writes s w m ++ following _ (((Plan.given name).act s).run.run m)) ++
        following _ (((Plan.given name).act s >>= _).run.run m) = _
      rw [run_bind, looked, first]
      rfl
    rw [passed, passed, nothing]
    have empty : text ({ expression } : Outcome) = "" := rfl
    exact Indents.empty empty m stored (List.forall_mem_nil _)

theorem step (beside : s.Beside more body' n w) {instr : Instr} (lined : instr.Lined)
    (expression : Option Value) :
    Indents more ((s.beside more body').step instr expression) (s.step instr expression)
      (s.writesOf w instr expression) := by
  have mapped {action' action : Act String} {plan : Plan String} (expression : Option Value)
      (indents : Indents more action' action (plan.writes s w)) :
      Indents more (action' >>= fun text => pure ({ text, expression } : Outcome))
        (action >>= fun text => pure { text, expression })
        ((plan >>= fun text => (pure { text, expression } : Plan Outcome)).writes s w) :=
    (indents.outcome expression 0).of_eq (congrFun (Plan.writes_map s w _ _))
  cases instr with
  | text given =>
    have put : Indents more ((s.beside more body').literal given) (s.literal given)
        fun _ => [.template given] :=
      indented_put beside.unbroken lined (endsLine_eq given) rfl more body'
    exact put.outcome expression 0
  | lookup ref =>
    cases expression with
    | some v => exact .stop _
    | none =>
      have found : (Plan.find ref).Silent := trivial
      let next (v : Value) : Act Outcome := pure { expression := some v }
      show Indents more ((Plan.find ref).act s >>= next) ((Plan.find ref).act s >>= next) _
      exact .after found (beside.keeps _) fun m v stored ok => .empty rfl
  | resolve span =>
    cases expression with
    | none => exact .stop _
    | some v =>
      show Indents more (s.resolve span v >>= _) (s.resolve span v >>= _) _
      rw [← Place.act_resolve]
      exact .after (s.place.silent_resolve span v) (beside.keeps _) fun m v stored ok => .empty rfl
  | apply ref =>
    cases expression with
    | none => exact .stop _
    | some v =>
      show Indents more (s.apply ref v >>= _) (s.apply ref v >>= _) _
      rw [← Place.act_apply]
      exact .after (s.place.silent_apply ref v) (beside.keeps _) fun m v stored ok => .empty rfl
  | emit isEscaped span =>
    cases expression with
    | none => exact .stop _
    | some v =>
      show Indents more (s.textOf span v >>= _) (s.textOf span v >>= _) _
      rw [← Place.act_textOf]
      refine .after (s.place.silent_textOf span v) (beside.keeps _) fun m text stored ok => ?_
      exact mapped none (indented_inserted beside.unbroken _ false nofun more body')
  | «repeated» key =>
    cases expression with
    | none => exact .stop _
    | some v => exact mapped none (beside.repeated key v)
  | unlessEmpty skip =>
    cases expression with
    | none => exact .stop _
    | some v => exact .empty rfl
  | partialCall name indent => exact mapped expression (beside.toInset.partialCall body' name lined)
  | parentCall name indent given => exact mapped expression (beside.toInset.parentCall body' name given lined)
  | slot name skip => exact slot name skip expression
  | strayArgument name => exact .stop _

theorem steps (beside : s.Beside more body' n w) {instrs : List Instr}
    (lined : ∀ instr ∈ instrs, instr.Lined) (skip : Nat) (expression : Option Value) :
    Indents more ((s.beside more body').steps instrs skip expression) (s.steps instrs skip expression)
      (s.writes w instrs skip expression) := by
  induction instrs generalizing skip expression with
  | nil =>
    cases skip with
    | zero =>
      cases expression with
      | none => exact .empty rfl
      | some v => exact .stop _
    | succ skip => exact .stop _
  | cons instr rest ih =>
    obtain ⟨first, later⟩ := List.forall_mem_cons.1 lined
    cases skip with
    | succ skip => exact ih later skip expression
    | zero =>
      have built : KeepsBuilt (s.step instr expression) := by
        rw [← Place.act_step]
        exact beside.keeps _
      exact (beside.step first expression).joined built (fun _ _ => rfl)
        fun outcome => ih later outcome.skip outcome.expression

end Stage.Beside

/-! ### Runs -/

/-- A run under a longer indent does the same and writes the same, with the rest of the indent at the
start of the lines. -/
theorem indents_run (env : Env) (more : String) (levels : Nat) {program : Program} {instrs : List Instr}
    {indent : String} (lined : program.Only Instr.Lined) (lines : ∀ instr ∈ instrs, instr.Lined)
    (unbroken : '\n' ∉ indent.toList) :
    Indents more (run env levels program instrs (more ++ indent)) (run env levels program instrs indent)
      (writesOfRun env levels program instrs indent) := by
  -- what is nested has an indent of its own after the common one, so that is any
  induction levels generalizing program instrs indent with
  | zero => exact .stop _
  | succ levels ih =>
    have bodies (budget : Nat) (instrs : List Instr) (lines : ∀ instr ∈ instrs, instr.Lined) :
        Indents more (runBody env (run env levels) program (more ++ indent) budget instrs)
          (runBody env (run env levels) program indent budget instrs)
          (writesOfBody env (run env levels) (writesOfRun env levels) program indent budget instrs) := by
      induction budget generalizing instrs with
      | zero => exact .stop _
      | succ budget ih' =>
        let body (sec : Section) := runBody env (run env levels) program indent budget sec.instrs
        let body' (sec : Section) :=
          runBody env (run env levels) program (more ++ indent) budget sec.instrs
        let noted (sec : Section) :=
          notesOfBody env (run env levels) (notesOfRun env levels) program indent budget sec.instrs
        let written (sec : Section) :=
          writesOfBody env (run env levels) (writesOfRun env levels) program indent budget sec.instrs
        have beside : Stage.Beside ⟨env, program, indent, body, run env levels⟩ more body'
            ⟨noted, notesOfRun env levels⟩ ⟨written, writesOfRun env levels⟩ :=
          ⟨⟨unbroken, fun _ built _ => ih built.lined built.lined.instrs⟩, lined,
            fun sec => accounts_runBody (accounts_run env levels) program indent budget sec.instrs,
            accounts_run env levels, fun sec => ih' sec.instrs⟩
        exact beside.steps lines 0 none
    exact bodies _ instrs lines

/-- A partial by itself, without an indent. -/
def Stage.alone (s : Stage) (name : String) : Act String :=
  { s with indent := "" }.partialCall name ""

def Stage.writesAlone (s : Stage) (levels : Nat) (name : String) (m : Machine) : List Written :=
  let alone : Stage := { s with indent := "" }
  (alone.place.partialCall name "").writes alone ⟨fun _ _ => [], writesOfRun s.env levels⟩ m

variable {s : Stage} {levels : Nat}

theorem indents_alone (running : s.nested = run s.env levels) (name indent : String) :
    Indents (s.indent ++ indent) (s.partialCall name indent) (s.alone name) (s.writesAlone levels name) := by
  let alone : Stage := { s with indent := "" }
  have inset : alone.Inset (s.indent ++ indent) ⟨fun _ _ => [], writesOfRun s.env levels⟩ := by
    refine ⟨by simp [alone], fun program built inner unbroken => ?_⟩
    show Indents _ (s.nested program program.instrs _) (s.nested program program.instrs inner) _
    rw [running]
    exact indents_run s.env _ levels built.lined built.lined.instrs unbroken
  have same : (alone.beside (s.indent ++ indent) s.body).partialCall name "" = s.partialCall name indent := by
    unfold Stage.partialCall
    refine bind_congr fun found => ?_
    cases found with
    | none => rfl
    | some program =>
      show s.invoke program (s.indent ++ indent ++ "" ++ "") = _
      rw [String.append_empty, String.append_empty]
  have unbroken : '\n' ∉ "".toList := by simp
  have whole := inset.partialCall s.body name unbroken
  rw [same] at whole
  exact whole

/-- A partial is rendered as by itself, with the indent in force and that of its tag before each of its
lines, and at the end if a line is started there. The first line is the exception: there is no indent
before it unless the machine is at the start of a line, which it is after a partial just if what that
wrote last ended a line. Values and lambdas write no line feeds, and no block has an argument. -/
theorem partialCall_indented (running : s.nested = run s.env levels) (name indent : String) {m : Machine}
    (stored : m.store.Built) (plain : ∀ written ∈ s.writesAlone levels name m, written.Plain) :
    let own := (s.alone name).run.run m
    let called := (s.partialCall name indent).run.run m
    let margin := (s.indent ++ indent).toList
    called.2 = own.2 ∧
      own.2.lineStart =
        (s.writesAlone levels name m).foldl (fun _ written => written.endsLine) m.lineStart ∧
      (∀ cause, own.1 = .error cause → called.1 = .error cause) ∧
      ∀ text, own.1 = .ok text →
        let lines := Text.endedLines text.toList
        let last := if Text.startsLine m.lineStart text.toList && !own.2.lineStart then margin else []
        called.1 = .ok (.ofList (Text.indentLines margin m.lineStart lines ++ last)) ∧
          (called.1 = .ok (.ofList (lines.flatMap (margin ++ ·) ++ last)) ↔
            m.lineStart = true ∨ s.indent ++ indent = "" ∨ text = "") := by
  intro own called margin
  obtain ⟨ran, starts, lineStart⟩ := indents_alone running name indent m stored plain
  have outcome : called.1 = own.1.map (Texted.indent (s.indent ++ indent) m.lineStart own.2.lineStart) :=
    congrArg Prod.fst ran
  have machine : called.2 = own.2 := by
    show ((s.partialCall name indent).run.run m).2 = _
    rw [ran]
  refine ⟨machine, lineStart, ?_, ?_⟩
  · intro cause failed
    rw [outcome, failed]
    rfl
  · intro text ok lines last
    have whole : called.1 = .ok (.ofList (Text.indentLines margin m.lineStart lines ++ last)) := by
      rw [outcome, ok, ← Text.indentFrom_eq_indentLines]
      rfl
    refine ⟨whole, ?_⟩
    rw [whole, Except.ok.injEq, String.ofList_inj, List.append_left_inj, Text.indentLines_eq_flatMap_iff,
      Text.endedLines_eq_nil_iff, String.toList_eq_nil_iff, String.toList_eq_nil_iff]

/-- A partial under two indents, after a text that ends a line and after one that does not. -/
theorem partialCall_indented_twice :
    let env : Env :=
      ⟨{ partials := some (.fixed [("p", "x\n\x7b\x7bv\x7d\x7d\ny")]) }, [], ({} : Registry).lambdas⟩
    let s : Stage := ⟨env, ⟨default, "", .custom, false, [], [], []⟩, " ", fun _ => pure "", run env 1⟩
    let m (start : Bool) : Machine := ⟨[.map [("v", .string "w")]], [], 0, start, {}⟩
    ((s.partialCall "p" "\t").run.run (m true)).1 = .ok " \tx\n \tw\n \ty" ∧
      ((s.partialCall "p" "\t").run.run (m false)).1 = .ok "x\n \tw\n \ty" := by
  intro env s m
  have alone : ∀ start : Bool, (∀ written ∈ s.writesAlone 1 "p" (m start), written.Plain) ∧
      ((s.alone "p").run.run (m start)).1 = .ok "x\nw\ny" := by
    decide +kernel
  have told (start : Bool) := partialCall_indented (show s.nested = run s.env 1 from rfl) "p" "\t"
    (show (m start).store.Built from Store.built_empty) (alone start).1
  have texts (start : Bool) := ((told start).2.2.2 _ (alone start).2).1
  let lines := Text.endedLines "x\nw\ny".toList
  have laid : ∀ start left : Bool, String.ofList (Text.indentLines (s.indent ++ "\t").toList start lines ++
      if Text.startsLine start "x\nw\ny".toList && !left then (s.indent ++ "\t").toList else []) =
        if start then " \tx\n \tw\n \ty" else "x\n \tw\n \ty" := by
    decide +kernel
  exact ⟨(texts true).trans (congrArg Except.ok (laid true _)),
    (texts false).trans (congrArg Except.ok (laid false _))⟩

end Mustache.Render
