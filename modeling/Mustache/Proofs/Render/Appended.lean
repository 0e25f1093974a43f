import Mustache.Proofs.Program.Ready
import Mustache.Proofs.Render.Alike
import Mustache.Proofs.Render.Correct

/-! Templates one after another, rendered with data that has no lambdas: the output of the one and
then that of the other. -/
namespace Mustache

namespace Direct

open Markup

theorem nodes_append (env : Render.Env) (sight : Sight) (nested : Evaluator) (page : Page) (scope : Scope)
    (set : Pragmas) (first second : List Node) :
    nodes env sight nested page scope set (first ++ second) =
      Render.joined (nodes env sight nested page scope set first)
        (nodes env sight nested page scope (set.insertAll (Node.pragmasOf first)) second) := by
  induction first generalizing set with
  | nil => exact (Render.joined_empty _).symm
  | cons node rest ih =>
    have unfolded (more : List Node) : nodes env sight nested page scope set (node :: more) =
        Render.joined (Direct.node env sight nested page scope set node)
          (nodes env sight nested page scope (set.insertAll node.pragmas) more) := rfl
    rw [List.cons_append, unfolded, unfolded, ih, Render.joined_assoc, Node.pragmasOf,
      Pragmas.insertAll_append]

/-- Nodes as they are evaluated when rendering starts. -/
def outermost (env : Render.Env) (context : Value) (template : Template) (nodes : List Node) : Eval String :=
  run env .late (env.engine.maxDepth + Render.lambdaAllowance + 1) ⟨template, id, ""⟩
    ⟨Render.initialFrames env.engine.helpers context, fun _ => none, 0⟩ env.engine.pragmas nodes

theorem outermost_append (env : Render.Env) (context : Value) (template : Template)
    {first : List Node} (silent : Node.pragmasOf first = []) (second : List Node) :
    outermost env context template (first ++ second) =
      Render.joined (outermost env context template first) (outermost env context template second) := by
  have split := nodes_append env .late (run env .late (env.engine.maxDepth + Render.lambdaAllowance))
    ⟨template, id, ""⟩ ⟨Render.initialFrames env.engine.helpers context, fun _ => none, 0⟩
    env.engine.pragmas first second
  rwa [silent] at split

/-- The sources that are read when one is rendered, itself the first. -/
def involved (env : Render.Env) (context : Value) (source : String) : List String :=
  source :: match parse env.engine.pragmas source with
    | .ok tree => (render env .late ⟨source, tree⟩ context []).reads
    | .error _ => []

theorem involved_of_parse {env : Render.Env} {source : String} {tree : List Node}
    (parsed : parse env.engine.pragmas source = .ok tree) (context : Value) :
    involved env context source =
      source :: (outermost env context ⟨source, tree⟩ tree ⟨true, []⟩).reads := by
  rw [involved, parsed]
  rfl

section

variable {env : Render.Env} {among : String → Prop} {context : Value}
  (flush : ∀ source, among source → Markup.Flush env.engine.pragmas source)
  (inert : context.Inert) (shared : ∀ entry ∈ env.engine.helpers, entry.2.Inert)
  (template template' : Template) {nodes : List Node} (upright : Node.Flush nodes)

include flush inert shared upright

theorem Alike.outermost_shiftAll (offset : Nat) :
    Alike among (outermost env context template nodes)
      (outermost env context template' (Node.shiftAll offset nodes)) :=
  Uniform.run flush .late _ _ _ rfl rfl _ _ ⟨rfl, .initial shared inert, rfl, fun _ => .none⟩ _ offset
    nodes upright

theorem Alike.outermost :
    Alike among (outermost env context template nodes) (outermost env context template' nodes) := by
  have moved := Alike.outermost_shiftAll flush inert shared template template' upright 0
  rwa [Node.shiftAll_zero] at moved

end

end Direct

namespace Render

open Markup Direct

variable {known : Engine → String → Prop} {env : Env} {context : Value}

/-- A known source may be read, unless two of the texts that are hashed have one digest. -/
theorem Readable.of_known (distinct : Hash.Distinct (Hashed known))
    (named : ∀ e source, known e source → isCharset e.charset = true) {source : String}
    (there : known env.engine source) : Readable ⟨env, known, .late⟩ source where
  isKnown := there
  apart := apart_of_distinct distinct named there
  distinct := fun _ parsed => distinct_of_known distinct there parsed
  sighted := .inl rfl

theorem render_of_alike {among : String → Prop}
    (readable : ∀ source, among source → Readable ⟨env, known, .late⟩ source)
    {program : Program} {source : String} {tree : List Node} {key : Key}
    (own : Readable ⟨env, known, .late⟩ source) (parsed : parse env.engine.pragmas source = .ok tree)
    (compiled : Program.compile env.engine.dialect key source = .ok program)
    {store : Store} (genuine : Genuine known store) {eval : Eval String} {t : Trace}
    (alike : Alike among eval (outermost env context ⟨source, tree⟩ tree))
    (reads : ∀ source ∈ (eval t).reads, among source) :
    (render env program context store).1.mapError Stop.unplaced =
      (eval t).outcome.mapError Stop.unplaced := by
  have mirrors : Mirrors ⟨env, known, .late⟩ program ⟨source, tree⟩ :=
    ⟨own, parsed, Program.told_of_compile parsed compiled (own.distinct tree parsed)⟩
  obtain ⟨same, sameReads⟩ := alike t ⟨true, store.calls⟩ reads
  rw [sameReads] at reads
  rw [same, (render_of_mirrors mirrors context genuine fun source member =>
    readable source (reads source member)).1]
  rfl

/-- The output of a template of whole lines and of what follows it is that of the one and then that of
the other. If one of them fails, the error has the kind and message of the first that does. -/
theorem render_append (key : Key) {key₁ key₂ : Key} {first second : String} {program₁ program₂ : Program}
    (compiled₁ : Program.compile env.engine.dialect key₁ first = .ok program₁)
    (compiled₂ : Program.compile env.engine.dialect key₂ second = .ok program₂)
    (whole : Markup.Sealed env.engine.pragmas first)
    (flush : ∀ source ∈ involved env context first ++ involved env context second,
      Markup.Flush env.engine.pragmas source)
    (inert : context.Inert) (shared : ∀ entry ∈ env.engine.helpers, entry.2.Inert)
    {store store₁ store₂ : Store} (genuine : Genuine known store) (genuine₁ : Genuine known store₁)
    (genuine₂ : Genuine known store₂)
    (among : ∀ source ∈ (first ++ second) :: involved env context first ++ involved env context second,
      known env.engine source)
    (named : ∀ e source, known e source → isCharset e.charset = true)
    (distinct : Hash.Distinct (Hashed known)) :
    ∃ program, Program.compile env.engine.dialect key (first ++ second) = .ok program ∧
      (render env program context store).1.mapError Stop.unplaced = (do
        let before ← (render env program₁ context store₁).1.mapError Stop.unplaced
        let after ← (render env program₂ context store₂).1.mapError Stop.unplaced
        pure (before ++ after)) := by
  let part (source : String) : Prop := source ∈ involved env context first ++ involved env context second
  let start : Trace := ⟨true, []⟩
  let offset := Text.byteSize first.toList
  obtain ⟨tree, parsed₁ : parse env.engine.pragmas first = .ok tree, -⟩ :=
    Program.exists_tree_of_compile compiled₁
  obtain ⟨more, parsed₂ : parse env.engine.pragmas second = .ok more, -⟩ :=
    Program.exists_tree_of_compile compiled₂
  obtain ⟨parsed, silent⟩ := parse_append whole parsed₁ parsed₂
  have compiled := Program.compile_of_tree env.engine.dialect key parsed
  refine ⟨_, compiled, ?_⟩
  have here₁ : part first := List.mem_append_left _ List.mem_cons_self
  have here₂ : part second := List.mem_append_right _ List.mem_cons_self
  have reads₁ : ∀ source ∈ (outermost env context ⟨first, tree⟩ tree start).reads, part source := by
    intro source member
    apply List.mem_append_left
    rw [involved_of_parse parsed₁]
    exact List.mem_cons_of_mem first member
  have reads₂ : ∀ source ∈ (outermost env context ⟨second, more⟩ more start).reads, part source := by
    intro source member
    apply List.mem_append_right
    rw [involved_of_parse parsed₂]
    exact List.mem_cons_of_mem second member
  have readable (source : String) (there : part source) : Readable ⟨env, known, .late⟩ source :=
    .of_known distinct named (among source (List.mem_cons_of_mem _ there))
  have own : Readable ⟨env, known, .late⟩ (first ++ second) :=
    .of_known distinct named (among _ List.mem_cons_self)
  have alike (template template' : Template) :=
    Alike.outermost flush inert shared template template' ((flush first here₁).nodes parsed₁)
  have alike' (template template' : Template) :=
    Alike.outermost flush inert shared template template' ((flush second here₂).nodes parsed₂)
  have both : Alike part
      (joined (outermost env context ⟨first, tree⟩ tree) (outermost env context ⟨second, more⟩ more))
      (outermost env context ⟨first ++ second, tree ++ Node.shiftAll offset more⟩
        (tree ++ Node.shiftAll offset more)) := by
    rw [outermost_append _ _ _ silent]
    exact (alike _ _).joined
      (.outermost_shiftAll flush inert shared _ _ ((flush second here₂).nodes parsed₂) offset)
  -- The second part is evaluated after the first, but as if rendering had just started.
  obtain ⟨split, reads⟩ := Alike.apart (outermost env context ⟨first, tree⟩ tree)
    (alike' ⟨second, more⟩ ⟨second, more⟩) start start reads₂
  rw [render_of_alike readable own parsed compiled genuine both fun source member =>
      (reads source member).elim (reads₁ source) (reads₂ source), split,
    render_of_alike readable (readable _ here₁) parsed₁ compiled₁ genuine₁ (alike _ _) reads₁,
    render_of_alike readable (readable _ here₂) parsed₂ compiled₂ genuine₂ (alike' _ _) reads₂]

/-- One section in both templates. -/
theorem render_append_shared :
    ∃ (env : Env) (program : Program) (context : Value),
      Program.compile env.engine.dialect default
        ("\x7b\x7b#a\x7d\x7db\x7b\x7b/a\x7d\x7d\n" ++ "\x7b\x7b#a\x7d\x7db\x7b\x7b/a\x7d\x7d") =
          .ok program ∧
      (render env program context {}).1.mapError Stop.unplaced = .ok "b\nb" := by
  let first := "\x7b\x7b#a\x7d\x7db\x7b\x7b/a\x7d\x7d\n"
  let second := "\x7b\x7b#a\x7d\x7db\x7b\x7b/a\x7d\x7d"
  let env : Env := ⟨{}, [], ({} : Registry).lambdas⟩
  let context : Value := .map [("a", .bool true)]
  let sources := [first ++ second, first, second]
  let known (e : Engine) (source : String) : Prop := e = env.engine ∧ source ∈ sources
  let output (source : String) : Except Stop String :=
    match Program.compile env.engine.dialect default source with
    | .ok program => (render env program context {}).1
    | .error e => .error (.error e)
  let bodies (source : String) : List String :=
    match parse env.engine.pragmas source with
    | .ok tree => (Node.bodiesOf false env.engine.pragmas tree).map (·.identity source)
    | .error _ => []
  have outputs : output first = .ok "b\n" ∧ output second = .ok "b" := by decide +kernel
  have read : involved env context first = [first] ∧ involved env context second = [second] := by
    decide +kernel
  have body : ∀ text ∈ sources.flatMap bodies, text = "\n00\n\nb" := by decide +kernel
  let texts := "\n00\n\nb" :: sources.map env.engine.identity
  have digests : ∀ a ∈ texts, ∀ b ∈ texts, Hash.sha256 a = Hash.sha256 b → a = b := by decide +kernel
  have hashed : ∀ text, Hashed known text → text ∈ texts := by
    rintro text ⟨_, source, ⟨rfl, listed⟩, rfl | ⟨tree, parsed, o, member, rfl⟩⟩
    · exact List.mem_cons_of_mem _ (List.mem_map_of_mem listed)
    · have among : o.identity source ∈ sources.flatMap bodies := by
        refine List.mem_flatMap.2 ⟨source, listed, ?_⟩
        simp only [bodies, parsed]
        exact List.mem_map_of_mem member
      rw [body _ among]
      exact List.mem_cons_self
  have compiles (source text : String) (done : output source = .ok text) :
      ∃ program, Program.compile env.engine.dialect default source = .ok program ∧
        (render env program context {}).1 = .ok text := by
    simp only [output] at done
    split at done
    · exact ⟨_, ‹_›, done⟩
    · cases done
  obtain ⟨program₁, compiled₁, output₁⟩ := compiles first _ outputs.1
  obtain ⟨program₂, compiled₂, output₂⟩ := compiles second _ outputs.2
  have inert : context.Inert := .map _ (by
    intro entry member
    rw [List.mem_singleton.1 member]
    exact .bool true)
  have flush : ∀ source ∈ involved env context first ++ involved env context second,
      Markup.Flush env.engine.pragmas source := by
    rw [read.1, read.2]
    decide +kernel
  have among : ∀ source ∈ (first ++ second) :: involved env context first ++ involved env context second,
      known env.engine source := by
    rw [read.1, read.2]
    exact fun source member => ⟨rfl, member⟩
  have named : ∀ e source, known e source → isCharset e.charset = true := by
    rintro _ _ ⟨rfl, -⟩
    decide +kernel
  have distinct : Hash.Distinct (Hashed known) :=
    fun a b here there => digests a (hashed a here) b (hashed b there)
  obtain ⟨program, compiled, rendered⟩ := render_append default compiled₁ compiled₂ (by decide +kernel)
    flush inert (by nofun) (.fresh []) (.fresh []) (.fresh []) among named distinct
  rw [output₁, output₂] at rendered
  exact ⟨env, program, context, compiled, rendered⟩

end Render
end Mustache
