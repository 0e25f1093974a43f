import Mustache.Proofs.Program.Linked
import Mustache.Proofs.Program.Shallow
import Mustache.Proofs.Render.Alike
import Mustache.Proofs.Render.Balanced

/-! Programs that differ in places and keys, side by side. As long as no section is a lambda, which would
get the text of the section, instructions that are alike set out to do the same. -/
namespace Mustache

/-! ### What is run side by side -/

/-- Budgets for two lists of instructions in which bodies nest: one that is shared, or one for each list in
which its bodies have room. -/
inductive Budgets (program program' : Program) : Nat → List Instr → Nat → List Instr → Prop
  | shared (budget : Nat) (instrs instrs' : List Instr) :
      Budgets program program' budget instrs budget instrs'
  | enough (budget budget' : Nat) (instrs instrs' : List Instr) (room : Shallow program budget instrs)
      (room' : Shallow program' budget' instrs') : Budgets program program' budget instrs budget' instrs'

/-- Options that are related stay so where the relation follows for what they hold. -/
theorem rel_of_found {α β : Type} {r r' : α → β → Prop} {x : Option α} {y : Option β}
    (related : Option.Rel r x y) (follows : ∀ a b, x = some a → y = some b → r a b → r' a b) :
    Option.Rel r' x y := by
  cases related with
  | none => exact .none
  | some same => exact .some (follows _ _ rfl rfl same)

/-- Bodies of sections that are alike, with budgets for both. -/
def Section.Paired (link : Link) (program program' : Program) (budget budget' : Nat) (sec sec' : Section) :
    Prop :=
  Instr.AllLinked link sec.instrs sec'.instrs ∧ Budgets program program' budget sec.instrs budget' sec'.instrs

/-- One level in, there are budgets for the bodies that are called for. -/
theorem Budgets.sections {link : Link} {program program' : Program} {budget budget' : Nat}
    {instrs instrs' : List Instr} {key key' : Key}
    (budgets : Budgets program program' (budget + 1) instrs (budget' + 1) instrs')
    (linked : program.Linked link program') (member : .repeated key ∈ instrs)
    (member' : .repeated key' ∈ instrs') (keys : link.sections key key') :
    Option.Rel (Section.Paired link program program' budget budget') (Entries.get? key program.sections)
      (Entries.get? key' program'.sections) := by
  refine rel_of_found (linked.sections key key' keys) fun sec sec' found found' alike => ⟨alike, ?_⟩
  cases budgets with
  | shared => exact .shared _ _ _
  | enough _ _ _ room room' =>
    exact .enough _ _ _ _ (room key member sec found) (room' key' member' sec' found')

namespace Program

/-- The budget that the lists of a program are run with. -/
def budget (program : Program) : Nat := program.source.length + 2

/-- Programs that are alike, each list of the one and of the other with budgets for both. -/
structure Mates (link : Link) (program program' : Program) : Prop extends program.Linked link program' where
  budgets : ∀ instrs instrs', program.Owns instrs → program'.Owns instrs' →
    Budgets program program' program.budget instrs program'.budget instrs'

theorem Mates.refl (program : Program) : program.Mates .same program where
  toLinked := .refl program
  budgets := fun _ _ _ _ => .shared _ _ _

theorem Linked.mates {link : Link} {program program' : Program} (linked : program.Linked link program')
    (unambiguous : program.Unambiguous) (unambiguous' : program'.Unambiguous) :
    program.Mates link program' where
  toLinked := linked
  budgets := fun _ _ owns owns' => .enough _ _ _ _ (unambiguous.shallow owns) (unambiguous'.shallow owns')

/-- Lists of instructions that are alike, each with its program. -/
def Paired (program : Program) (instrs : List Instr) (program' : Program) (instrs' : List Instr) : Prop :=
  ∃ link, program.Mates link program' ∧ Instr.AllLinked link instrs instrs' ∧
    Budgets program program' program.budget instrs program'.budget instrs'

theorem Paired.refl (program : Program) (instrs : List Instr) :
    program.Paired instrs program instrs :=
  ⟨.same, .refl program, .refl instrs, .shared _ _ _⟩

end Program

/-- Block arguments that are alike. -/
def Override.Paired (o o' : Override) : Prop :=
  ∃ link : Link, o.program.Mates link o'.program ∧ link.blocks o.key o'.key

theorem Override.Paired.blocks {o o' : Override} (paired : o.Paired o') :
    Option.Rel (fun instrs instrs' => o.program.Paired instrs o'.program instrs')
      (Entries.get? o.key o.program.blocks) (Entries.get? o'.key o'.program.blocks) := by
  obtain ⟨link, mates, keys⟩ := paired
  exact rel_of_found (mates.blocks _ _ keys) fun instrs instrs' found found' alike =>
    ⟨link, mates, alike, mates.budgets _ _ (.argument _ _ found) (.argument _ _ found')⟩

namespace Render

/-- What is invoked gives arguments that are alike. -/
def Invocation.Paired (invocation invocation' : Invocation) : Prop :=
  ∀ name, Option.Rel Override.Paired (invocation.supplies? name) (invocation'.supplies? name)

theorem rel_find? {given given' : List (String × Key)} {r : Key → Key → Prop}
    (linked : List.Forall₂ (fun entry entry' => entry.1 = entry'.1 ∧ r entry.2 entry'.2) given given')
    (name : String) :
    Option.Rel (fun entry entry' => r entry.2 entry'.2) (given.find? fun entry => entry.1 = name)
      (given'.find? fun entry => entry.1 = name) := by
  induction linked with
  | nil => exact .none
  | @cons entry entry' given given' first rest ih =>
    rw [List.find?_cons, List.find?_cons, ← first.1]
    cases decide (entry.1 = name) with
    | true => exact .some first.2
    | false => exact ih

theorem Invocation.paired_parent {link : Link} {program program' : Program}
    (mates : program.Mates link program') (tag : String) {given given' : List (String × Key)}
    (linked : List.Forall₂ (fun entry entry' => entry.1 = entry'.1 ∧ link.blocks entry.2 entry'.2)
      given given') :
    Invocation.Paired (.parent program tag given) (.parent program' tag given') := by
  intro name
  have found := rel_find? (List.forall₂_reverse_iff.2 linked) name
  unfold supplies?
  dsimp only
  generalize (given.reverse.find? fun entry => decide (entry.1 = name)) = first at found ⊢
  generalize (given'.reverse.find? fun entry => decide (entry.1 = name)) = first' at found ⊢
  cases found with
  | none => exact .none
  | some keys => exact .some ⟨link, mates, keys⟩

/-- Machines with arguments that are alike, and the same in all else. -/
structure Machine.Paired (m m' : Machine) : Prop where
  frames : m'.frames = m.frames
  overlay : ∀ name, Option.Rel Override.Paired (m.overlay.find? name) (m'.overlay.find? name)
  depth : m'.depth = m.depth
  lineStart : m'.lineStart = m.lineStart
  store : m'.store = m.store

theorem Machine.Paired.enter {m m' : Machine} (paired : m.Paired m') {invocation invocation' : Invocation}
    (supplies : invocation.Paired invocation') : (m.enter invocation).Paired (m'.enter invocation') where
  frames := paired.frames
  overlay := by
    intro name
    show Option.Rel _ ((invocation.overlay m.overlay).find? name) ((invocation'.overlay m'.overlay).find? name)
    rw [Invocation.find?_overlay, Invocation.find?_overlay]
    have outer := paired.overlay name
    generalize m.overlay.find? name = given at outer
    generalize m'.overlay.find? name = given' at outer
    cases outer with
    | none => exact supplies name
    | some alike => exact .some alike
  depth := congrArg (· + 1) paired.depth
  lineStart := paired.lineStart
  store := paired.store

/-! ### Plans side by side -/

/-- Plans of which the second does what the first does. Bodies of sections are matched, and neither asks
for what a lambda would be given. -/
inductive Plan.Paired (matched : Section → Section → Prop) : {α : Type} → Plan α → Plan α → Prop
  | pure {α : Type} (a : α) : Paired matched (.pure a) (.pure a)
  | bind {α β : Type} (first first' : Plan α) (next next' : α → Plan β)
      (before : Paired matched first first') (after : ∀ a, Paired matched (next a) (next' a)) :
      Paired matched (.bind first next) (.bind first' next')
  | stop {α : Type} (stop stop' : Stop) (same : stop.unplaced = stop'.unplaced) :
      Paired matched (.stop stop : Plan α) (.stop stop')
  | find (ref ref' : Ref) (same : ∀ frames : Frames, frames.find ref = frames.find ref') :
      Paired matched (.find ref) (.find ref')
  | given {α : Type} (name : String) (next next' : Option Override → Plan α)
      (after : ∀ found found', Option.Rel Override.Paired found found' →
        Paired matched (next found) (next' found')) :
      Paired matched (.bind (.given name) next) (.bind (.given name) next')
  | put (text : String) (ends : Bool) : Paired matched (.put text ends) (.put text ends)
  | record (call : Call) : Paired matched (.record call) (.record call)
  | fetch (origin : Engine.Origin) (source : String) :
      Paired matched (.fetch origin source) (.fetch origin source)
  | located {α : Type} (span span' : Span) (inner inner' : Plan α) (within : Paired matched inner inner') :
      Paired matched (.located span inner) (.located span' inner')
  | keepingLineStart {α : Type} (inner inner' : Plan α) (within : Paired matched inner inner') :
      Paired matched (.keepingLineStart inner) (.keepingLineStart inner')
  | within (frame : Value) (sec sec' : Section) (same : matched sec sec') :
      Paired matched (.within frame sec) (.within frame sec')
  | invoke (invocation invocation' : Invocation) (program program' : Program) (instrs instrs' : List Instr)
      (indent : String) (supplies : invocation.Paired invocation')
      (paired : program.Paired instrs program' instrs') :
      Paired matched (.invoke invocation program instrs indent)
        (.invoke invocation' program' instrs' indent)

namespace Plan.Paired

variable {matched : Section → Section → Prop} {α : Type}

theorem ofExcept (result : Except Error α) : Paired matched (Plan.ofExcept result) (Plan.ofExcept result) := by
  cases result with
  | ok a => exact .pure a
  | error e => exact .stop _ _ rfl

theorem callInterpolation (lambdas : Lambdas) (handle : Lambda) :
    Paired matched (Plan.callInterpolation lambdas handle) (Plan.callInterpolation lambdas handle) := by
  unfold Plan.callInterpolation
  cases handle.shape with
  | interpolation => exact .bind _ _ _ _ (.record _) fun _ => ofExcept _
  | enclosing => exact .stop _ _ rfl
  | filter => exact .stop _ _ rfl

theorem callFilter (lambdas : Lambdas) (handle : Lambda) (v : Value) :
    Paired matched (Plan.callFilter lambdas handle v) (Plan.callFilter lambdas handle v) := by
  unfold Plan.callFilter
  cases handle.shape with
  | interpolation => exact callInterpolation lambdas handle
  | enclosing => exact .stop _ _ rfl
  | filter => exact .bind _ _ _ _ (.record _) fun _ => ofExcept _

theorem forFrames {sec sec' : Section} (same : matched sec sec') (frames : List Value) :
    Paired matched (Plan.forFrames sec frames) (Plan.forFrames sec' frames) := by
  induction frames with
  | nil => exact .pure ""
  | cons frame rest ih =>
    exact .bind _ _ _ _ (.within frame sec sec' same) fun _ => .bind _ _ _ _ ih fun _ => .pure _

end Plan.Paired

namespace Place

variable {matched : Section → Section → Prop} (env : Env) (indent : String) {program program' : Program}

theorem paired_textOf (span span' : Span) (v : Value) :
    Plan.Paired matched (textOf ⟨env, program, indent⟩ span v) (textOf ⟨env, program', indent⟩ span' v) := by
  unfold textOf
  cases v.text? with
  | ok text => exact .pure text
  | error cause => exact .stop _ _ rfl

theorem paired_fetchPartial (name : String) :
    Plan.Paired matched (fetchPartial ⟨env, program, indent⟩ name)
      (fetchPartial ⟨env, program', indent⟩ name) := by
  unfold fetchPartial
  dsimp only
  cases env.engine.partials.bind (·.load env.shelves name) with
  | none => exact .pure none
  | some source => exact .bind _ _ _ _ (.fetch _ _) fun found => .pure (some found)

theorem paired_partialCall (name margin : String) :
    Plan.Paired matched (partialCall ⟨env, program, indent⟩ name margin)
      (partialCall ⟨env, program', indent⟩ name margin) := by
  refine .bind _ _ _ _ (paired_fetchPartial env indent name) fun found => ?_
  cases found with
  | none => exact .pure ""
  | some found => exact .invoke _ _ _ _ _ _ _ (fun _ => .none) (.refl found found.instrs)

variable {link : Link} (mates : program.Mates link program')

include mates

theorem paired_resolve (span span' : Span) (v : Value) :
    Plan.Paired matched (resolve ⟨env, program, indent⟩ span v) (resolve ⟨env, program', indent⟩ span' v) := by
  unfold resolve
  rw [mates.strictCallables]
  cases v.callable? program.strictCallables with
  | none => exact .pure v
  | some handle =>
    refine .bind _ _ _ _ (.located _ _ _ _ (.callInterpolation _ handle)) fun result => ?_
    refine .bind _ _ _ _ (paired_textOf env indent span span' result) fun text => ?_
    refine .bind _ _ _ _ (.fetch _ _) fun found => ?_
    refine .bind _ _ _ _ (.keepingLineStart _ _ ?_) fun rendered => .pure _
    exact .invoke _ _ _ _ _ _ _ (fun _ => .none) (.refl found found.instrs)

theorem paired_apply (lookup : Lookup) (name : String) (span span' : Span) (v : Value) :
    Plan.Paired matched (apply ⟨env, program, indent⟩ ⟨lookup, name, span⟩ v)
      (apply ⟨env, program', indent⟩ ⟨lookup, name, span'⟩ v) := by
  unfold apply
  refine .bind _ _ _ _ (.find _ _ fun _ => rfl) fun found => ?_
  rw [mates.strictCallables]
  cases found.callable? program.strictCallables with
  | none => exact .stop _ _ rfl
  | some handle => exact .located _ _ _ _ (.callFilter _ handle v)

theorem paired_parentCall (name margin : String) {given given' : List (String × Key)}
    (linked : List.Forall₂ (fun entry entry' => entry.1 = entry'.1 ∧ link.blocks entry.2 entry'.2)
      given given') :
    Plan.Paired matched (parentCall ⟨env, program, indent⟩ name margin given)
      (parentCall ⟨env, program', indent⟩ name margin given') := by
  refine .bind _ _ _ _ (paired_fetchPartial env indent name) fun found => ?_
  cases found with
  | none => exact .pure ""
  | some found =>
    exact .invoke _ _ _ _ _ _ _ (Invocation.paired_parent mates name linked) (.refl found found.instrs)

theorem paired_repeated {key key' : Key} {v : Value} (plain : v.callable? program.strictCallables = none)
    (sections : Option.Rel matched (Entries.get? key program.sections) (Entries.get? key' program'.sections)) :
    Plan.Paired matched (Place.repeated ⟨env, program, indent⟩ key v)
      (Place.repeated ⟨env, program', indent⟩ key' v) := by
  unfold Place.repeated
  dsimp only
  rw [mates.strictCallables, plain]
  generalize Entries.get? key program.sections = found at sections
  generalize Entries.get? key' program'.sections = found' at sections
  cases sections with
  | none => exact .stop _ _ rfl
  | @some sec sec' same =>
    dsimp only
    split
    · exact .pure ""
    · exact .forFrames same v.frames

omit mates in
theorem paired_slot (name : String) : Plan.Paired matched (slot name) (slot name) := by
  refine .given name _ _ fun found found' paired => ?_
  cases paired with
  | none => exact .pure none
  | @some o o' paired =>
    have blocks := paired.blocks
    dsimp only
    generalize Entries.get? o.key o.program.blocks = given at blocks
    generalize Entries.get? o'.key o'.program.blocks = given' at blocks
    cases blocks with
    | none => exact .stop _ _ rfl
    | some alike =>
      exact .bind _ _ _ _ (.invoke _ _ _ _ _ _ _ (fun _ => .none) alike) fun text => .pure (some text)

/-- Instructions that are alike do the same, unless a section is a lambda. -/
theorem paired_step {instr instr' : Instr} (linked : instr.Linked link instr') (expression : Option Value)
    (plain : ∀ key v, instr = .repeated key → expression = some v →
      v.callable? program.strictCallables = none)
    (sections : ∀ key key', instr = .repeated key → instr' = .repeated key' →
      Option.Rel matched (Entries.get? key program.sections) (Entries.get? key' program'.sections)) :
    Plan.Paired matched (step ⟨env, program, indent⟩ instr expression)
      (step ⟨env, program', indent⟩ instr' expression) := by
  cases linked with
  | text text => exact .bind _ _ _ _ (.put _ _) fun _ => .pure _
  | lookup lookup name span span' =>
    cases expression with
    | none => exact .bind _ _ _ _ (.find _ _ fun _ => rfl) fun _ => .pure _
    | some v => exact .stop _ _ rfl
  | resolve span span' =>
    cases expression with
    | none => exact .stop _ _ rfl
    | some v => exact .bind _ _ _ _ (paired_resolve env indent mates span span' v) fun _ => .pure _
  | apply lookup name span span' =>
    cases expression with
    | none => exact .stop _ _ rfl
    | some v => exact .bind _ _ _ _ (paired_apply env indent mates lookup name span span' v) fun _ => .pure _
  | emit isEscaped span span' =>
    cases expression with
    | none => exact .stop _ _ rfl
    | some v =>
      refine .bind _ _ _ _ (paired_textOf env indent span span' v) fun text => ?_
      have same : escaped ⟨env, program', indent⟩ text = escaped ⟨env, program, indent⟩ text := by
        unfold escaped
        dsimp only
        rw [mates.escape]
      rw [same]
      exact .bind _ _ _ _ (.put _ _) fun _ => .pure _
  | «repeated» key key' linked =>
    cases expression with
    | none => exact .stop _ _ rfl
    | some v =>
      exact .bind _ _ _ _
        (paired_repeated env indent mates (plain key v rfl rfl) (sections key key' rfl rfl)) fun _ => .pure _
  | unlessEmpty skip =>
    cases expression with
    | none => exact .stop _ _ rfl
    | some v => exact .pure _
  | partialCall name margin =>
    exact .bind _ _ _ _ (paired_partialCall env indent name margin) fun _ => .pure _
  | parentCall name margin given given' linked =>
    exact .bind _ _ _ _ (paired_parentCall env indent mates name margin linked) fun _ => .pure _
  | slot name skip =>
    refine .bind _ _ _ _ (paired_slot name) fun found => ?_
    cases found <;> exact .pure _
  | strayArgument name => exact .stop _ _ rfl

end Place

end Render
end Mustache
