import Mustache.Engine.Builder
import Mustache.Proofs.Engine.Identity

/-! Keys of programs told from how engines are configured. Two engines that are built have one key
for their sources just if the sources and all that programs depend on are the same, and then they
compile the same program. -/
namespace Mustache

theorem Pragma.name_injective {p q : Pragma} (same : p.name = q.name) : p = q := by
  have read : some p = some q := by
    rw [← ofName?_name p, ← ofName?_name q, same]
  exact Option.some.inj read

namespace Builder

/-- The configurations differ in nothing that programs depend on. -/
structure Agree (b b' : Builder) : Prop where
  escape : b.escape.isSome = b'.escape.isSome
  entityFlags : b.entityFlags = b'.entityFlags
  charset : b.charset = b'.charset
  strictCallables : b.strictCallables = b'.strictCallables
  pragmas : ∀ name, name ∈ b.pragmas ↔ name ∈ b'.pragmas

theorem mem_of_readPragmas {names : List String} {set : Pragmas}
    (read : readPragmas names = .ok set) (name : String) :
    name ∈ names ↔ ∃ p, set.contains p = true ∧ p.name = name := by
  induction names generalizing set with
  | nil =>
    cases read
    simp only [List.not_mem_nil, false_iff, not_exists, not_and]
    intro p inside
    cases p <;> cases inside
  | cons first rest ih =>
    unfold readPragmas at read
    cases known : Pragma.ofName? first with
    | none =>
      rw [known] at read
      cases read
    | some p =>
      have whose := Pragma.ofName?_eq_some_iff.1 known
      simp only [known] at read
      cases later : readPragmas rest with
      | error flaw =>
        rw [later] at read
        cases read
      | ok others =>
        rw [later] at read
        cases read
        rw [List.mem_cons, ih later]
        simp only [Pragmas.contains_insert, Bool.or_eq_true, decide_eq_true_eq]
        constructor
        · rintro (rfl | ⟨q, inside, rfl⟩)
          · exact ⟨p, .inl rfl, whose.symm⟩
          · exact ⟨q, .inr inside, rfl⟩
        · rintro ⟨q, rfl | inside, rfl⟩
          · exact .inl whose.symm
          · exact .inr ⟨q, inside, rfl⟩

theorem readPragmas_eq_iff {names names' : List String} {set set' : Pragmas}
    (read : readPragmas names = .ok set) (read' : readPragmas names' = .ok set') :
    set = set' ↔ ∀ name, name ∈ names ↔ name ∈ names' := by
  constructor
  · rintro rfl name
    rw [mem_of_readPragmas read, mem_of_readPragmas read']
  · intro same
    have carried {a b : List String} {s t : Pragmas} (first : readPragmas a = .ok s)
        (second : readPragmas b = .ok t) (within : ∀ name, name ∈ a → name ∈ b) {p : Pragma}
        (inside : s.contains p = true) : t.contains p = true := by
      have given := within p.name ((mem_of_readPragmas first _).2 ⟨p, inside, rfl⟩)
      obtain ⟨q, there, named⟩ := (mem_of_readPragmas second _).1 given
      rwa [← Pragma.name_injective named]
    apply Pragmas.ext_contains
    intro p
    rw [Bool.eq_iff_iff]
    exact ⟨carried read read' fun name => (same name).1, carried read' read fun name => (same name).2⟩

variable {b b' : Builder} {e e' : Engine} {source source' : String}

/-- What a build checks, and what of the configuration the programs of the engine depend on. -/
structure Builds (b : Builder) (e : Engine) : Prop where
  charset : isCharset b.charset = true
  pragmas : readPragmas b.pragmas = .ok e.pragmas
  engine : e.escape = b.escape ∧ e.entityFlags = b.entityFlags ∧ e.charset = b.charset ∧
    e.strictCallables = b.strictCallables

theorem builds_of_build (built : b.build = .ok e) : b.Builds e := by
  unfold build at built
  cases read : readPragmas b.pragmas with
  | error flaw => simp [read, bind, Except.bind] at built
  | ok set =>
    cases valid : isCharset b.charset with
    | false => simp [read, valid, bind, Except.bind] at built
    | true =>
      by_cases shallow : b.maxDepth = 0
      · simp [read, valid, shallow, bind, Except.bind] at built
      · simp only [read, valid, bind, Except.bind, Bool.not_true, Bool.false_eq_true, if_false,
          if_neg shallow] at built
        cases built
        exact ⟨valid, read, rfl, rfl, rfl, rfl⟩

theorem Builds.isCharset (builds : b.Builds e) : isCharset e.charset = true := by
  rw [builds.engine.2.2.1]
  exact builds.charset

theorem Builds.agree_iff (builds : b.Builds e) (builds' : b'.Builds e') :
    e.Agree e' ↔ b.Agree b' := by
  obtain ⟨escape, flags, charset, strict⟩ := builds.engine
  obtain ⟨escape', flags', charset', strict'⟩ := builds'.engine
  have pragmas := readPragmas_eq_iff builds.pragmas builds'.pragmas
  constructor
  · intro agree
    refine ⟨?_, ?_, ?_, ?_, pragmas.1 agree.pragmas⟩
    · rw [← escape, ← escape', agree.escape]
    · rw [← flags, ← flags', agree.entityFlags]
    · rw [← charset, ← charset', agree.charset]
    · rw [← strict, ← strict', agree.strictCallables]
  · intro agree
    refine ⟨?_, ?_, ?_, ?_, pragmas.2 agree.pragmas⟩
    · rw [escape, escape', agree.escape]
    · rw [flags, flags', agree.entityFlags]
    · rw [charset, charset', agree.charset]
    · rw [strict, strict', agree.strictCallables]

end Builder

/-- Neither the engine nor its cache has a program under the key. -/
def Store.Lacks (store : Store) (key : Key) : Prop :=
  Entries.get? key store.memo = none ∧ store.cache.find? key = none

theorem Engine.fetch_of_lacks {e : Engine} {source : String} {store : Store}
    (lacks : store.Lacks (e.templateKey source)) (origin : Origin) :
    ((e.fetch origin source).run store).1 =
      Program.compile e.dialect (e.templateKey source) source := by
  have compiled (cached : Bool) (store : Store) :
      ((e.compileNew cached (e.templateKey source) source).run store).1 =
        Program.compile e.dialect (e.templateKey source) source := by
    unfold compileNew
    cases Program.compile e.dialect (e.templateKey source) source <;> cases cached <;> rfl
  rw [fetch_eq, lacks.1]
  dsimp only
  split
  · rw [Cache.load_fst, lacks.2]
    exact compiled true _
  · exact compiled false _

theorem Builder.templateKey_eq_iff {b b' : Builder} {e e' : Engine} {source source' : String}
    (built : b.build = .ok e) (built' : b'.build = .ok e')
    (distinct : Hash.Distinct (· ∈ [e.identity source, e'.identity source'])) :
    (e.templateKey source = e'.templateKey source' ↔ b.Agree b' ∧ source = source') ∧
      (e.templateKey source = e'.templateKey source' →
        Program.compile e.dialect (e.templateKey source) source =
            Program.compile e'.dialect (e'.templateKey source') source' ∧
          ∀ origin origin' store store', store.Lacks (e.templateKey source) →
            store'.Lacks (e'.templateKey source') →
            ((e.fetch origin source).run store).1 = ((e'.fetch origin' source').run store').1) := by
  have builds := builds_of_build built
  have builds' := builds_of_build built'
  have keys : e.templateKey source = e'.templateKey source' ↔ e.Agree e' ∧ source = source' := by
    rw [← Engine.identity_eq_iff builds.isCharset builds'.isCharset]
    constructor
    · exact distinct _ _ (by simp) (by simp)
    · exact congrArg Hash.sha256
  constructor
  · rw [keys, builds.agree_iff builds']
  · intro same
    obtain ⟨agree, rfl⟩ := keys.1 same
    have compiled : Program.compile e.dialect (e.templateKey source) source =
        Program.compile e'.dialect (e'.templateKey source) source := by
      rw [agree.dialect_eq, same]
    refine ⟨compiled, ?_⟩
    intro origin origin' store store' lacks lacks'
    rw [Engine.fetch_of_lacks lacks, Engine.fetch_of_lacks lacks', compiled]

theorem Hash.distinct_pair {a b : String} (apart : a ≠ b → Hash.sha256 a ≠ Hash.sha256 b) :
    Hash.Distinct (· ∈ [a, b]) := by
  intro x y here there met
  by_contra differ
  simp only [List.mem_cons, List.not_mem_nil, or_false] at here there
  rcases here with rfl | rfl <;> rcases there with rfl | rfl
  · exact differ rfl
  · exact apart differ met
  · exact apart (Ne.symm differ) met.symm
  · exact differ rfl

/-- The order of pragmas and how often they are given does not show in a key, nor do helpers and
limits; how the name of the character set is written does. -/
theorem Builder.templateKey_of_reordered :
    let b : Builder := { charset := "koi8-r", pragmas := ["FILTERS", "BLOCKS", "FILTERS"], maxDepth := 3 }
    let b' : Builder := { charset := "koi8-r", pragmas := ["BLOCKS", "FILTERS"], helpers := [("h", .null)] }
    let b'' : Builder := { charset := "KOI8-R", pragmas := ["BLOCKS", "FILTERS"] }
    ∃ e e' e'', b.build = .ok e ∧ b'.build = .ok e' ∧ b''.build = .ok e'' ∧
      e.templateKey "{{a|h}}" = e'.templateKey "{{a|h}}" ∧
      e.templateKey "{{a|h}}" ≠ e''.templateKey "{{a|h}}" := by
  intro b b' b''
  let e : Engine := { charset := "koi8-r", pragmas := ⟨true, true, false⟩, maxDepth := 3 }
  let e' : Engine := { charset := "koi8-r", pragmas := ⟨true, true, false⟩, helpers := [("h", .null)] }
  let e'' : Engine := { charset := "KOI8-R", pragmas := ⟨true, true, false⟩ }
  have built : b.build = .ok e := by
    unfold b e
    rfl
  have built' : b'.build = .ok e' := by
    unfold b' e'
    rfl
  have built'' : b''.build = .ok e'' := by
    unfold b'' e''
    rfl
  have apart : Hash.sha256 (e.identity "{{a|h}}") ≠ Hash.sha256 (e''.identity "{{a|h}}") := by
    decide +kernel
  have same : e.identity "{{a|h}}" = e'.identity "{{a|h}}" := rfl
  have distinct : Hash.Distinct (· ∈ [e.identity "{{a|h}}", e'.identity "{{a|h}}"]) :=
    Hash.distinct_pair fun differ => absurd same differ
  have distinct' : Hash.Distinct (· ∈ [e.identity "{{a|h}}", e''.identity "{{a|h}}"]) :=
    Hash.distinct_pair fun _ => apart
  refine ⟨e, e', e'', built, built', built'', ?_, ?_⟩
  · refine (templateKey_eq_iff built built' distinct).1.2 ⟨⟨rfl, rfl, rfl, rfl, ?_⟩, rfl⟩
    simp [b, b', or_comm]
  · intro met
    have agree := ((templateKey_eq_iff built built'' distinct').1.1 met).1
    exact absurd agree.charset (by decide)

end Mustache
