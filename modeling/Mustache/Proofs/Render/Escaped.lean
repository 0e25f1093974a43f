import Mustache.Lambda.Script
import Mustache.Proofs.Engine.Identity
import Mustache.Proofs.Program.Unmarked
import Mustache.Proofs.Render.Noted

/-! What is rendered without markup characters. A template that escapes all values and has no such
characters of its own gives none, whatever the values are and whatever is rendered for lambdas, as
long as no section is one. -/
namespace Mustache

variable {known : Engine → String → Prop} {e : Engine}

/-- What an engine with programs that can be relied on has fetched leaves it with such programs. -/
theorem Genuine.fetches (apart : ∀ source, known e source → Apart known e source) {store store' : Store}
    {made : List Fetch} (genuine : Genuine known store) (fetches : e.Fetches store made store')
    (among : ∀ f ∈ made, known e f.source) : Genuine known store' := by
  induction fetches with
  | nil => exact genuine
  | calls made store calls _ ih => exact (ih among).of_calls calls
  | fetch made store origin source _ ih =>
    have before := ih fun f member => among f (List.mem_append_left _ member)
    have there : known e source := among (e.fetched origin source store) (by simp)
    exact (Engine.fetch_run before there (apart source there) origin).2.2

namespace Render

/-! ### Plans -/

namespace Plan

/-- What must hold for a plan to give something with a property, where programs and bodies without
markup characters give texts without them. -/
def Gives (p : Place) : {α : Type} → Plan α → (α → Prop) → Prop
  | _, .pure a, post => post a
  | _, .bind first next, post => Gives p first fun a => Gives p (next a) post
  | _, .stop _, _ => True
  | _, .reach _, post => post ()
  | _, .find _, post => ∀ v, post v
  | _, .given _, post =>
    ∀ found : Option Override, (∀ o, found = some o → o.program.Unmarked) → post found
  | _, .put text _, post =>
    ∀ written, (Unmarked text → Unmarked p.indent → Unmarked written) → post written
  | _, .record _, post => ∀ earlier, post earlier
  | _, .fetch _ source, post =>
    ∀ key program, Program.compile p.env.engine.dialect key source = .ok program → post program
  | _, .located _ inner, post => Gives p inner post
  | _, .observed inner, post => Gives p inner (fun a => post (.ok a)) ∧ ∀ e, post (.error e)
  | _, .keepingLineStart inner, post => Gives p inner post
  | _, .aside inner, post => Gives p inner post
  | _, .within _ sec, post =>
    ∀ text, ((∀ instr ∈ sec.instrs, instr.Unmarked) → Unmarked text) → post text
  | _, .invoke invocation program instrs indent, post =>
    ∀ text, (program.Unmarked → (∀ instr ∈ instrs, instr.Unmarked) → Unmarked indent →
      (∀ name o, invocation.supplies? name = some o → o.program.Unmarked) → Unmarked text) → post text
  | _, .answer _, post => ∀ text, post text

variable {p : Place} {α β : Type}

theorem Gives.mono {plan : Plan α} {post post' : α → Prop} (gives : plan.Gives p post)
    (weaker : ∀ a, post a → post' a) : plan.Gives p post' := by
  induction plan with
  | pure a => exact weaker a gives
  | bind first next ih ih' => exact ih gives fun a later => ih' a later weaker
  | stop cause => trivial
  | reach instrs => exact weaker () gives
  | find ref => exact fun v => weaker v (gives v)
  | given name => exact fun found clean => weaker found (gives found clean)
  | put text ends => exact fun written clean => weaker written (gives written clean)
  | record call => exact fun earlier => weaker earlier (gives earlier)
  | fetch origin source => exact fun key program compiled => weaker program (gives key program compiled)
  | located span inner ih => exact ih gives weaker
  | observed inner ih => exact ⟨ih gives.1 fun a => weaker (.ok a), fun e => weaker (.error e) (gives.2 e)⟩
  | keepingLineStart inner ih => exact ih gives weaker
  | aside inner ih => exact ih gives weaker
  | within frame sec => exact fun text clean => weaker text (gives text clean)
  | invoke invocation program instrs indent => exact fun text clean => weaker text (gives text clean)
  | answer program => exact fun text => weaker text (gives text)

/-- Nothing needs to hold for a plan to give anything at all. -/
theorem gives_anything (plan : Plan α) : plan.Gives p fun _ => True := by
  induction plan with
  | pure a => trivial
  | bind first next ih ih' => exact ih.mono fun a _ => ih' a
  | stop cause => trivial
  | reach instrs => trivial
  | find ref => exact fun _ => trivial
  | given name => exact fun _ _ => trivial
  | put text ends => exact fun _ _ => trivial
  | record call => exact fun _ => trivial
  | fetch origin source => exact fun _ _ _ => trivial
  | located span inner ih => exact ih
  | observed inner ih => exact ⟨ih, fun _ => trivial⟩
  | keepingLineStart inner ih => exact ih
  | aside inner ih => exact ih
  | within frame sec => exact fun _ _ => trivial
  | invoke invocation program instrs indent => exact fun _ _ => trivial
  | answer program => exact fun _ => trivial

theorem Gives.bind {first : Plan α} {next : α → Plan β} {post : α → Prop} {post' : β → Prop}
    (before : first.Gives p post) (after : ∀ a, post a → (next a).Gives p post') :
    (first >>= next).Gives p post' :=
  before.mono after

theorem Gives.after {first : Plan α} {next : α → Plan β} {post : β → Prop}
    (later : ∀ a, (next a).Gives p post) : (first >>= next).Gives p post :=
  (gives_anything first).mono fun a _ => later a

theorem gives_forFrames {sec : Section} (clean : ∀ instr ∈ sec.instrs, instr.Unmarked)
    (frames : List Value) : (forFrames sec frames).Gives p Unmarked := by
  induction frames with
  | nil => exact .empty
  | cons frame rest ih =>
    intro first written
    exact ih.mono fun more later => (written clean).append later

end Plan

/-- A program without markup characters where texts of markup are escaped. -/
structure Place.Escapes (p : Place) : Prop where
  program : p.program.Unmarked
  indent : Unmarked p.indent
  engine : p.env.engine.escape = none
  partials : ∀ name source, p.env.engine.partials.bind (·.load p.env.shelves name) = some source →
    Markup.Unmarked p.env.engine.pragmas source

namespace Place

open Plan

variable {p : Place}

theorem Escapes.escaped (escapes : p.Escapes) (text : String) : Unmarked (p.escaped text) := by
  unfold Place.escaped
  rw [escapes.engine]
  cases p.program.escape <;> exact .escape _ _

theorem Escapes.gives_fetchPartial (escapes : p.Escapes) (name : String) :
    (p.fetchPartial name).Gives p fun found => ∀ program, found = some program → program.Unmarked := by
  unfold fetchPartial
  cases found : p.env.engine.partials.bind (·.load p.env.shelves name) with
  | none => exact nofun
  | some source =>
    rintro key program compiled _ same
    cases same
    exact Program.unmarked_of_compile (escapes.partials name source found) compiled

theorem Escapes.gives_partialCall (escapes : p.Escapes) (name : String) {indent : String}
    (clean : Unmarked indent) : (p.partialCall name indent).Gives p Unmarked := by
  refine Gives.bind (escapes.gives_fetchPartial name) fun found unmarked => ?_
  cases found with
  | none => exact .empty
  | some program =>
    have own := unmarked program rfl
    exact fun text given => given own own.instrs (escapes.indent.append clean) nofun

theorem Escapes.gives_parentCall (escapes : p.Escapes) (name : String) {indent : String}
    (given : List (String × Key)) (clean : Unmarked indent) :
    (p.parentCall name indent given).Gives p Unmarked := by
  refine Gives.bind (escapes.gives_fetchPartial name) fun found unmarked => ?_
  cases found with
  | none => exact .empty
  | some program =>
    have own := unmarked program rfl
    refine fun text written => written own own.instrs (escapes.indent.append clean) ?_
    intro block o supplies
    obtain ⟨entry, -, rfl⟩ := Option.map_eq_some_iff.1 supplies
    exact escapes.program

theorem gives_slot (name : String) :
    (slot name).Gives p fun found => ∀ text, found = some text → Unmarked text := by
  intro found clean
  cases found with
  | none =>
    intro text same
    cases same
  | some o =>
    have own := clean o rfl
    dsimp only
    cases there : Entries.get? o.key o.program.blocks with
    | none => trivial
    | some instrs =>
      refine fun text written _ same => ?_
      cases same
      refine written own (own.blocks o.key instrs there) .empty ?_
      intro block given supplies
      cases supplies

theorem Escapes.gives_repeated (escapes : p.Escapes) (key : Key) {v : Value}
    (plain : v.callable? p.program.strictCallables = none) : (p.repeated key v).Gives p Unmarked := by
  unfold Place.repeated
  cases there : Entries.get? key p.program.sections with
  | none => trivial
  | some sec =>
    dsimp only
    rw [plain]
    dsimp only
    split
    · exact .empty
    · exact gives_forFrames (escapes.program.sections key sec there) v.frames

/-- An instruction gives a text without markup characters, unless it is for a section that is a
lambda. -/
theorem Escapes.gives_step (escapes : p.Escapes) {instr : Instr} (clean : instr.Unmarked)
    {expression : Option Value}
    (plain : ∀ key v, instr = .repeated key → expression = some v →
      v.callable? p.program.strictCallables = none) :
    (p.step instr expression).Gives p fun outcome => Unmarked outcome.text := by
  cases instr with
  | text text => exact fun written given => given clean escapes.indent
  | lookup ref =>
    cases expression with
    | none => exact fun _ => .empty
    | some v => trivial
  | resolve span =>
    cases expression with
    | none => trivial
    | some v => exact Gives.after fun _ => .empty
  | apply ref =>
    cases expression with
    | none => trivial
    | some v => exact Gives.after fun _ => .empty
  | emit isEscaped span =>
    cases expression with
    | none => trivial
    | some v =>
      refine Gives.after fun text written given => given ?_ escapes.indent
      rw [show isEscaped = true from clean]
      exact escapes.escaped text
  | «repeated» key =>
    cases expression with
    | none => trivial
    | some v => exact Gives.bind (escapes.gives_repeated key (plain key v rfl rfl)) fun _ clean => clean
  | unlessEmpty skip => cases expression <;> first | trivial | exact .empty
  | partialCall name indent => exact Gives.bind (escapes.gives_partialCall name clean) fun _ clean => clean
  | parentCall name indent given => exact Gives.bind (escapes.gives_parentCall name given clean) fun _ clean => clean
  | slot name skip =>
    refine Gives.bind (gives_slot name) fun found unmarked => ?_
    cases found with
    | none => exact .empty
    | some text => exact unmarked text rfl
  | strayArgument name => trivial

end Place

/-! ### Plans carried out -/

/-- Only known sources are fetched, and no section is a lambda. -/
def Note.Allowed (known : Engine → String → Prop) (e : Engine) : Note → Prop
  | .fetched fetch => known e fetch.source
  | .came program (.repeated _) (some v) => v.callable? program.strictCallables = none
  | .came _ _ _ => True

/-- A machine whose programs can be relied on, with arguments without markup characters. -/
structure Guarded (known : Engine → String → Prop) (m : Machine) : Prop where
  overlay : ∀ name o, m.overlay.find? name = some o → o.program.Unmarked
  genuine : Genuine known m.store

theorem Guarded.left (apart : ∀ source, known e source → Apart known e source) {m m' : Machine}
    {notes : List Note} (guarded : Guarded known m) (left : Left e m notes m')
    (allowed : ∀ note ∈ notes, note.Allowed known e) : Guarded known m' where
  overlay := by
    rw [left.overlay]
    exact guarded.overlay
  genuine := guarded.genuine.fetches apart left.fetches fun f member =>
    allowed _ (mem_fetchesIn.1 member)

/-- What an action gives from a guarded machine has a property. -/
def Provides (known : Engine → String → Prop) (e : Engine) {α : Type} (action : Act α)
    (notes : Machine → List Note) (post : α → Prop) : Prop :=
  ∀ m, Guarded known m → (∀ note ∈ notes m, note.Allowed known e) →
    ∀ a, (action.run.run m).1 = .ok a → post a

/-- A place whose bodies and nested programs give texts without markup characters. -/
structure Stage.Sheltered (known : Engine → String → Prop) (s : Stage) (n : Noters) : Prop where
  accountsBody : ∀ sec, Accounts s.env.engine (s.body sec) (n.body sec)
  accountsNested : ∀ program instrs indent,
    Accounts s.env.engine (s.nested program instrs indent) (n.nested program instrs indent)
  body : ∀ sec, (∀ instr ∈ sec.instrs, instr.Unmarked) →
    Provides known s.env.engine (s.body sec) (n.body sec) Unmarked
  nested : ∀ program instrs indent, program.Unmarked → (∀ instr ∈ instrs, instr.Unmarked) →
    Unmarked indent →
    Provides known s.env.engine (s.nested program instrs indent) (n.nested program instrs indent) Unmarked

theorem Guarded.enter {m : Machine} (guarded : Guarded known m) {invocation : Invocation}
    (supplies : ∀ name o, invocation.supplies? name = some o → o.program.Unmarked) :
    Guarded known (m.enter invocation) where
  overlay := by
    intro name o found
    have there : (invocation.overlay m.overlay).find? name = some o := found
    rw [Invocation.find?_overlay] at there
    cases before : m.overlay.find? name with
    | none =>
      rw [before] at there
      exact supplies name o there
    | some outer =>
      rw [before] at there
      cases there
      exact guarded.overlay name o before
  genuine := guarded.genuine

/-- A plan carried out gives what it is to give. -/
theorem Stage.Sheltered.plan {s : Stage} {n : Noters} (sheltered : s.Sheltered known n)
    (apart : ∀ source, known s.env.engine source → Apart known s.env.engine source) {α : Type}
    {plan : Plan α} {post : α → Prop} (gives : plan.Gives s.place post) :
    Provides known s.env.engine (plan.act s) (plan.notes s n) post := by
  induction plan with
  | pure a =>
    intro m guarded allowed _ ok
    cases ok
    exact gives
  | bind first next ih ih' =>
    intro m guarded allowed b ok
    obtain ⟨a, ok, ok'⟩ := ok_of_bind ok
    have left := Accounts.plan sheltered.accountsBody sheltered.accountsNested first m
    have before : ∀ note ∈ first.notes s n m, note.Allowed known s.env.engine := fun note member =>
      allowed note (List.mem_append_left _ member)
    refine ih' a (ih gives m guarded before a ok) _ (guarded.left apart left before) ?_ b ok'
    intro note member
    refine allowed note (List.mem_append_right _ ?_)
    generalize (first.act s).run.run m = ran at ok member
    obtain ⟨result, m'⟩ := ran
    cases ok
    exact member
  | stop cause => exact fun _ _ _ _ => nofun
  | reach instrs =>
    intro m guarded allowed _ ok
    cases ok
    exact gives
  | find ref =>
    intro m guarded allowed v ok
    exact gives v
  | given name =>
    intro m guarded allowed found ok
    cases ok
    exact gives _ (guarded.overlay name)
  | put text ends =>
    intro m guarded allowed written ok
    have same : (if m.lineStart then s.indent ++ text else text) = written := Except.ok.inj ok
    refine gives written fun clean indent => ?_
    rw [← same]
    split
    · exact indent.append clean
    · exact clean
  | record call => exact fun m guarded allowed earlier _ => gives earlier
  | fetch origin source =>
    intro m guarded allowed program ok
    have there : known s.env.engine source := allowed _ (List.mem_singleton_self _)
    have fetched := (Engine.fetch_run guarded.genuine there (apart source there) origin).1
    have ran : ((inStore (s.env.engine.fetch origin source) >>= ofExcept).run.run m).1 = .ok program := ok
    rw [run_fetch, fetched] at ran
    refine gives (s.env.engine.templateKey source) program ?_
    show Program.compile s.env.engine.dialect _ source = .ok program
    cases compiled : Program.compile s.env.engine.dialect (s.env.engine.templateKey source) source with
    | error e =>
      rw [compiled] at ran
      cases ran
    | ok program' =>
      rw [compiled] at ran
      cases ran
      rfl
  | located span inner ih =>
    intro m guarded allowed a ok
    have ran : ((Render.located s.program.source span (inner.act s)).run.run m).1 = .ok a := ok
    rw [run_located] at ran
    refine ih gives m guarded allowed a ?_
    generalize ((inner.act s).run.run m).1 = result at ran
    rcases result with (_ | _) | _ <;> cases ran
    rfl
  | observed inner ih =>
    intro m guarded allowed a ok
    have ran : ((Render.observed (inner.act s)).run.run m).1 = .ok a := ok
    have within := ih gives.1 m guarded allowed
    rw [run_observed] at ran
    generalize ((inner.act s).run.run m).1 = result at ran within
    rcases result with (e | _) | b <;> cases ran
    · exact gives.2 e
    · exact within b rfl
  | keepingLineStart inner ih =>
    intro m guarded allowed a ok
    let cleanup : Act Unit := modify fun ended => { ended with lineStart := m.lineStart }
    exact ih gives m guarded allowed a (ok_of_andFinally cleanup ok)
  | aside inner ih =>
    intro m guarded allowed a ok
    let cleanup : Act Unit := modify fun ended => { m with store := ended.store }
    exact ih gives m guarded allowed a (ok_of_andFinally cleanup ok)
  | within frame sec =>
    intro m guarded allowed text ok
    refine gives text fun clean => ?_
    exact sheltered.body sec clean { m with frames := frame :: m.frames }
      ⟨guarded.overlay, guarded.genuine⟩ allowed text (ok_of_andFinally popFrame ok)
  | invoke invocation program instrs indent =>
    intro m guarded allowed text ok
    refine gives text fun own clean margin supplies => ?_
    have ran : ((deeper s.env.engine.maxDepth (Plan.entering invocation
      (s.nested program instrs indent))).run.run m).1 = .ok text := ok
    rw [run_deeper] at ran
    have noted : ∀ note ∈ (if s.env.engine.maxDepth ≤ m.depth then [] else
      n.nested program instrs indent (m.enter invocation)), note.Allowed known s.env.engine := allowed
    split at ran
    · cases ran
    · rename_i below
      rw [if_neg below] at noted
      exact sheltered.nested program instrs indent own clean margin _ (guarded.enter supplies) noted
        text (ok_of_entering ran)
  | answer program => exact fun m guarded allowed text _ => gives text

theorem Stage.Sheltered.steps {s : Stage} {n : Noters} (sheltered : s.Sheltered known n)
    (apart : ∀ source, known s.env.engine source → Apart known s.env.engine source)
    (escapes : s.place.Escapes) {instrs : List Instr} (clean : ∀ instr ∈ instrs, instr.Unmarked)
    (skip : Nat) (expression : Option Value) :
    Provides known s.env.engine (s.steps instrs skip expression) (s.notes n instrs skip expression)
      Unmarked := by
  induction instrs generalizing skip expression with
  | nil =>
    intro m guarded allowed text ok
    cases skip with
    | zero =>
      cases expression <;> cases ok
      exact .empty
    | succ skip => cases ok
  | cons instr rest ih =>
    obtain ⟨first, later⟩ := List.forall_mem_cons.1 clean
    cases skip with
    | succ skip => exact ih later skip expression
    | zero =>
      intro m guarded allowed text ok
      obtain ⟨came, allowed⟩ := List.forall_mem_cons.1 allowed
      obtain ⟨outcome, stepped, rest'⟩ := ok_of_bind ok
      obtain ⟨more, continued, ended⟩ := ok_of_bind rest'
      cases ended
      have plain (key : Key) (v : Value) (same : instr = .repeated key) (given : expression = some v) :
          v.callable? s.place.program.strictCallables = none := by
        subst same given
        exact came
      have step := sheltered.plan apart (escapes.gives_step first plain)
      have left := Accounts.plan sheltered.accountsBody sheltered.accountsNested
        (s.place.step instr expression) m
      rw [Place.act_step] at step left
      have before : ∀ note ∈ (s.place.step instr expression).notes s n m,
          note.Allowed known s.env.engine := fun note member =>
        allowed note (List.mem_append_left _ member)
      refine (step m guarded before outcome stepped).append ?_
      refine ih later outcome.skip outcome.expression _ (guarded.left apart left before) ?_ more
        continued
      intro note member
      refine allowed note (List.mem_append_right _ ?_)
      generalize (s.step instr expression).run.run m = ran at stepped member
      obtain ⟨result, m'⟩ := ran
      cases stepped
      exact member

/-- What a template is to be rendered in for its values to be escaped. -/
structure Env.Escapes (env : Env) : Prop where
  engine : env.engine.escape = none
  partials : ∀ name source, env.engine.partials.bind (·.load env.shelves name) = some source →
    Markup.Unmarked env.engine.pragmas source

theorem Env.Escapes.provides_run {env : Env} (escapes : env.Escapes)
    (apart : ∀ source, known env.engine source → Apart known env.engine source) (levels : Nat)
    (program : Program) (instrs : List Instr) (indent : String) (own : program.Unmarked)
    (clean : ∀ instr ∈ instrs, instr.Unmarked) (margin : Unmarked indent) :
    Provides known env.engine (run env levels program instrs indent)
      (notesOfRun env levels program instrs indent) Unmarked := by
  induction levels generalizing program instrs indent with
  | zero => exact fun _ _ _ _ => nofun
  | succ levels ih =>
    have bodies (budget : Nat) (instrs : List Instr) (clean : ∀ instr ∈ instrs, instr.Unmarked) :
        Provides known env.engine (runBody env (run env levels) program indent budget instrs)
          (notesOfBody env (run env levels) (notesOfRun env levels) program indent budget instrs)
          Unmarked := by
      induction budget generalizing instrs with
      | zero => exact fun _ _ _ _ => nofun
      | succ budget ih' =>
        let body (sec : Section) := runBody env (run env levels) program indent budget sec.instrs
        let noted (sec : Section) :=
          notesOfBody env (run env levels) (notesOfRun env levels) program indent budget sec.instrs
        have sheltered : Stage.Sheltered known ⟨env, program, indent, body, run env levels⟩
            ⟨noted, notesOfRun env levels⟩ :=
          ⟨fun sec => accounts_runBody (accounts_run env levels) program indent budget sec.instrs,
            accounts_run env levels, fun sec clean => ih' sec.instrs clean, ih⟩
        exact sheltered.steps apart ⟨own, margin, escapes.engine, escapes.partials⟩ clean 0 none
    exact bodies _ instrs clean

/-- Where values are escaped for HTML and neither the template nor any that its engine can load has an
unescaped tag or a markup character in its text, no output has such a character. Values, filters and
what is rendered for lambdas in place of values may be anything; only sections may not be lambdas. -/
theorem render_unmarked {env : Env} {key : Key} {source : String} {program : Program}
    (html : env.engine.escape = none)
    (compiled : Program.compile env.engine.dialect key source = .ok program)
    (template : Markup.Unmarked env.engine.pragmas source)
    (partials : ∀ name text, env.engine.partials.bind (·.load env.shelves name) = some text →
      Markup.Unmarked env.engine.pragmas text)
    {context : Value} {store : Store} (genuine : Genuine known store)
    (plain : ∀ within key v,
      .came within (.repeated key) (some v) ∈ notesOfRender env program context store →
      v.callable? within.strictCallables = none)
    (among : ∀ fetch ∈ fetchesIn (notesOfRender env program context store),
      known env.engine fetch.source)
    (named : ∀ e source, known e source → isCharset e.charset = true)
    (distinct : Hash.Distinct (Keyed known)) {text : String}
    (rendered : (render env program context store).1 = .ok text) :
    '<' ∉ text.toList ∧ '>' ∉ text.toList := by
  have escapes : env.Escapes := ⟨html, partials⟩
  have own := Program.unmarked_of_compile template compiled
  have provides := escapes.provides_run (fun source there => apart_of_keyed distinct named there)
    (env.engine.maxDepth + lambdaAllowance + 1) program program.instrs "" own own.instrs .empty
  have guarded : Guarded known (initial env context store) := ⟨nofun, genuine⟩
  have allowed : ∀ note ∈ notesOfRender env program context store, note.Allowed known env.engine := by
    intro note member
    cases note with
    | fetched fetch => exact among fetch (mem_fetchesIn.2 member)
    | came program instr expression =>
      cases instr <;> cases expression <;> first
        | trivial
        | exact plain _ _ _ member
  have unmarked := provides (initial env context store) guarded allowed text rendered
  exact ⟨unmarked.opening, unmarked.closing⟩

/-- A lambda gives a text with markup and an unescaped tag, before a partial. -/
theorem render_unmarked_lambda :
    ∃ (env : Env) (program : Program) (context : Value) (text : String),
      Program.compile env.engine.dialect default
        "a \x7b\x7b#s\x7d\x7d\x7b\x7bl\x7d\x7d\x7b\x7b/s\x7d\x7d\x7b\x7b>p\x7d\x7d" = .ok program ∧
      (render env program context {}).1 = .ok text ∧ text = "a &lt;b&gt;&lt;i&gt;&lt;i&gt;" ∧
      '<' ∉ text.toList ∧ '>' ∉ text.toList := by
  let given := "<b>\x7b\x7b\x7by\x7d\x7d\x7d"
  let inner := "\x7b\x7by\x7d\x7d"
  let source := "a \x7b\x7b#s\x7d\x7d\x7b\x7bl\x7d\x7d\x7b\x7b/s\x7d\x7d\x7b\x7b>p\x7d\x7d"
  let registry := ({} : Registry).add (Script.always (.string given)).behaviour
  let env : Env := ⟨{ partials := some (.fixed [("p", inner)]) }, [], registry.2.lambdas⟩
  let context : Value := .map [("s", .bool true), ("l", .lambda registry.1), ("y", .string "<i>")]
  let notes (program : Program) := notesOfRender env program context {}
  have ran : (Program.compile env.engine.dialect default source).map (fun program =>
      ((render env program context {}).1, (fetchesIn (notes program)).map (·.source),
        (notes program).all (·.callable?.isNone))) =
      .ok (.ok "a &lt;b&gt;&lt;i&gt;&lt;i&gt;", [given, inner], true) := by
    decide +kernel
  cases compiled : Program.compile env.engine.dialect default source with
  | error e =>
    rw [compiled] at ran
    cases ran
  | ok program =>
    rw [compiled] at ran
    have told := Except.ok.inj ran
    rw [Prod.mk.injEq, Prod.mk.injEq] at told
    obtain ⟨rendered, fetched, quiet⟩ := told
    let known (e : Engine) (text : String) : Prop := e = env.engine ∧ text ∈ [given, inner]
    have partials : ∀ name text, env.engine.partials.bind (·.load env.shelves name) = some text →
        Markup.Unmarked env.engine.pragmas text := by
      intro name text loaded
      have found : Entries.get? name [("p", inner)] = some text := loaded
      unfold Entries.get? at found
      split at found
      · cases found
        decide +kernel
      · cases found
    have plain : ∀ within key v, .came within (.repeated key) (some v) ∈ notes program →
        v.callable? within.strictCallables = none := by
      intro within key v member
      have checked := List.all_eq_true.1 quiet _ member
      exact Option.isNone_iff_eq_none.1 checked
    have among : ∀ fetch ∈ fetchesIn (notes program), known env.engine fetch.source := by
      intro fetch member
      refine ⟨rfl, ?_⟩
      rw [← fetched]
      exact List.mem_map_of_mem member
    have distinct : Hash.Distinct (Keyed known) := by
      have digests : ∀ a ∈ [given, inner], ∀ b ∈ [given, inner],
          Hash.sha256 (env.engine.identity a) = Hash.sha256 (env.engine.identity b) → a = b := by
        decide +kernel
      rintro _ _ ⟨_, a, ⟨rfl, here⟩, rfl⟩ ⟨_, b, ⟨rfl, there⟩, rfl⟩ same
      rw [digests a here b there same]
    have named : ∀ e source, known e source → isCharset e.charset = true := by
      rintro _ _ ⟨rfl, -⟩
      decide +kernel
    have clean := render_unmarked rfl compiled (by decide +kernel) partials (.fresh []) plain among named
      distinct rendered
    exact ⟨env, program, context, _, compiled, rendered, rfl, clean⟩

end Render
end Mustache
