import Mustache.Proofs.Program.Delimited
import Mustache.Proofs.Text.Indented

/-! Templates without a tag: each of their lines becomes one instruction that writes it. -/
namespace Mustache

namespace Markup

theorem contents_linesFrom (delims : Delimiters) (start : Nat) {line : List Char} (unbroken : '\n' ∉ line)
    (rest : List Char) :
    (linesFrom delims start line rest).map Token.content =
      (Text.endedLines (line.reverse ++ rest)).map String.ofList := by
  induction rest generalizing start line with
  | nil =>
    rw [List.append_nil]
    cases line with
    | nil => rfl
    | cons c line =>
      have reversed : '\n' ∉ (c :: line).reverse := by rwa [List.mem_reverse]
      rw [Text.endedLines_of_unbroken (by simp) reversed]
      rfl
  | cons c rest ih =>
    rw [linesFrom]
    by_cases newline : c = '\n'
    · subst newline
      have reversed : '\n' ∉ line.reverse := by rwa [List.mem_reverse]
      rw [if_pos rfl, Text.endedLines_append_newline reversed, List.map_cons, List.map_cons,
        ih _ List.not_mem_nil, List.reverse_cons]
      rfl
    · have longer : '\n' ∉ c :: line := by
        rw [List.mem_cons]
        exact not_or.2 ⟨Ne.symm newline, unbroken⟩
      rw [if_neg newline, ih _ longer, List.reverse_cons, List.append_assoc, List.singleton_append]

theorem contents_textTokens (delims : Delimiters) (start : Nat) (text : List Char) :
    (textTokens delims start text).map Token.content = (Text.endedLines text).map String.ofList :=
  contents_linesFrom delims start List.not_mem_nil text

theorem tidy_texts {tokens : List Token} (texts : ∀ t ∈ tokens, t.kind = .text) : tidy tokens = tokens := by
  have whole := flatten_lines tokens
  have kept : (lines tokens).map tidyLine = (lines tokens).map id := by
    refine List.map_congr_left fun line member => ?_
    have none : line.filter (!·.isText) = [] := by
      rw [List.filter_eq_nil_iff]
      intro t among
      have text := texts t (whole ▸ List.mem_flatten_of_mem member among)
      simp [(Token.isText_iff t).2 text]
    rw [tidyLine, none]
    rfl
  rw [tidy, List.flatMap_def, kept, List.map_id, whole]

theorem nests_texts (set : Pragmas) {tokens : List Token} (texts : ∀ t ∈ tokens, t.kind = .text) :
    Nests false set tokens (tokens.map .literal) := by
  induction tokens with
  | nil => exact .nil false set
  | cons t rest ih =>
    obtain ⟨text, others⟩ := List.forall_mem_cons.1 texts
    exact .literal false set t rest _ text (ih others)

theorem parseIn_of_untagged {d : Delimiters} (set : Pragmas) {source : String}
    (untagged : Text.contains d.opening source.toList = false) :
    parseIn d set source = .ok ((textTokens d 0 source.toList).map .literal) := by
  have missed : Text.cut? d.opening source.toList = none :=
    Option.isNone_iff_eq_none.1 (Option.isSome_eq_false_iff.1 untagged)
  have texts : ∀ t ∈ textTokens d 0 source.toList, t.kind = .text := fun t member => (textTokens_text member).1
  have read : tokenizeIn d set source = .ok (textTokens d 0 source.toList) := by
    rw [tokenizeIn, scanFrom_of_missed _ _ _ missed]
    exact congrArg Except.ok (tidy_texts texts)
  rw [parseIn, read]
  exact (nests_texts set texts).nest_eq

end Markup

open Markup

theorem Compile.run_nodes_literals (source : String) (tokens : List Token) (s : State) :
    (nodes source (tokens.map .literal)).run s = (tokens.map fun t => .text t.content, s) := by
  induction tokens with
  | nil => rfl
  | cons t rest ih =>
    rw [List.map_cons, run_nodes_cons]
    have first : (node source (.literal t)).run s = ([.text t.content], s) := rfl
    rw [first, ih]
    rfl

/-- What a text without a tag is compiled to, whatever delimiters are in force. -/
theorem Program.compile_untagged {d : Delimiters} (dialect : Dialect) (key : Key) {text : String}
    (untagged : Text.contains d.opening text.toList = false) :
    compile dialect key (d.lead ++ text) =
      .ok ⟨key, d.lead ++ text, dialect.escape, dialect.strictCallables,
        (Text.endedLines text.toList).map fun line => .text (.ofList line), [], []⟩ := by
  have instrs : (textTokens d 0 text.toList).map (fun t => Instr.text t.content) =
      (Text.endedLines text.toList).map fun line => .text (.ofList line) := by
    have contents := congrArg (List.map Instr.text) (contents_textTokens d 0 text.toList)
    rwa [List.map_map, List.map_map] at contents
  have unmoved : ((Text.endedLines text.toList).map fun line => Instr.text (.ofList line)).map
      (Instr.respan (Span.shift (Text.byteSize d.lead.toList))) =
        (Text.endedLines text.toList).map fun line => .text (.ofList line) := by
    rw [List.map_map]
    rfl
  rw [d.compile_lead, parseIn_of_untagged dialect.pragmas untagged]
  dsimp only
  rw [ofNodes, Compile.run_nodes_literals, instrs]
  simp only [Program.shift, unmoved]
  rfl

end Mustache
