import Mustache.Proofs.Program.Pointed
import Mustache.Proofs.Render.Sited

/-! The places of all errors that an engine gives: when it compiles a template, loads one by its name, or
renders one. -/
namespace Mustache

open Markup

/-- An error whose place is in its source and is shown as it should be, however wide characters are. -/
structure Error.Shown (e : Error) (site : Site) : Prop where
  placed : site.Placed
  framed : ∀ width, site.Framed width e.message (e.prettyIn width)

theorem Site.Placed.shown {site : Site} (placed : site.Placed) {e : Error} (there : e.site = some site) :
    e.Shown site := by
  refine ⟨placed, fun width => ?_⟩
  have shown : e.prettyIn width = Error.frame width e.message site := by
    unfold Error.prettyIn
    rw [there]
  rw [shown]
  exact placed.framed width e.message

/-- A source that does not compile is the one that its error points into. -/
theorem Program.shown_of_compile {dialect : Dialect} {key : Key} {source : String} {e : Error}
    (failed : compile dialect key source = .error e) {site : Site} (there : e.site = some site) :
    site.source = source ∧ e.Shown site := by
  unfold compile at failed
  cases parsed : parse dialect.pragmas source with
  | ok tree =>
    rw [parsed] at failed
    cases failed
  | error flaw =>
    have marks := marks_of_parse parsed
    rw [parsed] at failed
    cases failed
    have same : some (⟨source, flaw.span⟩ : Site) = some site := marks.siteIn_eq.symm.trans there
    cases same
    exact ⟨rfl, marks.placed.shown there⟩

theorem Program.syntactic_of_compile {dialect : Dialect} {key : Key} {source : String} {e : Error}
    (failed : compile dialect key source = .error e) : e.kind = .syntactic := by
  unfold compile at failed
  cases parsed : parse dialect.pragmas source with
  | ok tree =>
    rw [parsed] at failed
    cases failed
  | error flaw =>
    rw [parsed] at failed
    cases failed
    exact syntactic_of_parse parsed

namespace Render

/-- A source that was fetched during a render and does not compile, with its error. -/
def Unfit (env : Env) (notes : List Note) (source : String) (e : Error) : Prop :=
  (∃ fetch, .fetched fetch ∈ notes ∧ fetch.source = source) ∧
    Program.compile env.engine.dialect (env.engine.templateKey source) source = .error e

/-- The last in a log that was raised with its error. -/
def Raise.LastOf (raises : List Raise) (raise : Raise) : Prop :=
  ∃ before after, raises = before ++ raise :: after ∧ ∀ later ∈ after, later.error ≠ raise.error

theorem Raise.LastOf.mem {raises : List Raise} {raise : Raise} (last : raise.LastOf raises) : raise ∈ raises := by
  obtain ⟨before, after, rfl, -⟩ := last
  exact List.mem_append_right _ List.mem_cons_self

theorem Raise.exists_lastOf {raises : List Raise} {e : Error} (raised : ∃ raise ∈ raises, raise.error = e) :
    ∃ raise : Raise, raise.LastOf raises ∧ raise.error = e := by
  induction raises with
  | nil =>
    obtain ⟨raise, member, -⟩ := raised
    cases member
  | cons first rest ih =>
    by_cases later : ∃ raise ∈ rest, raise.error = e
    · obtain ⟨raise, ⟨before, after, same, last⟩, told⟩ := ih later
      exact ⟨raise, ⟨first :: before, after, congrArg (first :: ·) same, last⟩, told⟩
    · obtain ⟨raise, member, told⟩ := raised
      rcases List.mem_cons.1 member with rfl | among
      · exact ⟨raise, ⟨[], rest, rfl, fun other there same => later ⟨other, there, same.trans told⟩⟩, told⟩
      · exact absurd ⟨raise, among, told⟩ later

/-- An error with a place points there because a tag has raised it there, because the source does not
compile, or because a lambda has brought it along. -/
theorem Stems.origin {env : Env} {own : Site → Prop} {raises : List Raise}
    (sound : ∀ raise ∈ raises, raise.Sound) (built : ∀ raise ∈ raises, raise.program.Built) {notes : List Note}
    {e : Error} (stems : Stems env.engine own raises notes e) {site : Site} (there : e.site = some site) :
    own site ∨ (∃ raise : Raise, raise.LastOf raises ∧ raise.error = e ∧ raise.program.Built ∧
      site = ⟨raise.program.source, raise.span⟩ ∧ raise.program.Points raise.standing raise.span) ∨
      Unfit env notes site.source e := by
  rcases stems site there with brought | raised | ⟨fetch, member, failed⟩
  · exact .inl brought
  · obtain ⟨raise, last, rfl⟩ := Raise.exists_lastOf raised
    have compiled := built raise last.mem
    obtain ⟨same, points⟩ := sound raise last.mem
    rw [same, (compiled.marks points).siteIn_eq] at there
    cases there
    exact .inr (.inl ⟨raise, last, rfl, compiled, rfl, points⟩)
  · obtain ⟨same, -⟩ := Program.shown_of_compile failed there
    rw [← same] at failed
    exact .inr (.inr ⟨⟨fetch, member, same.symm⟩, failed⟩)

end Render
end Mustache
