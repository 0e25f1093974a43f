import Mustache.Engine.Builder
import Mustache.Error.Frame
import Mustache.Text.Quoted

/-! One line texts that describe an engine, a builder, a template or a program. -/
namespace Mustache

namespace Summary

def flag (b : Bool) : String := if b then "true" else "false"

def list (items : List String) : String := "[" ++ ", ".intercalate items ++ "]"

def set (items : List String) : String := "\x7b" ++ ", ".intercalate items ++ "\x7d"

def quotedList (items : List String) : String := list (items.map Text.quoted)

def fields (name : String) (shown : List (String × String)) : String :=
  name ++ " \x7b " ++ ", ".intercalate (shown.map fun (field, value) => field ++ ": " ++ value) ++
    ", .. \x7d"

def key (k : Key) : String := "Key(" ++ String.ofList (k.hex.toList.take 12) ++ ")"

def pragma : Pragma → String
  | .blocks => "Blocks"
  | .filters => "Filters"
  | .anchoredDot => "AnchoredDot"

def template (p : Program) : String := fields "Template" [("key", key p.key)]

def program (p : Program) : String :=
  fields "Program" [("key", key p.key), ("sections", toString p.sections.length),
    ("blocks", toString p.blocks.length)]

def engine (e : Engine) (programs : Nat) : String :=
  fields "Engine" [
    ("helpers", quotedList (Entries.keys e.helpers)),
    ("escape", if e.escape.isSome then "Some(\"custom\")" else "None"),
    ("entity_flags", e.entityFlags.name),
    ("charset", Text.quoted e.charset),
    ("strict_callables", flag e.strictCallables),
    ("pragmas", set (e.pragmas.toList.map pragma)),
    ("max_partial_depth", toString e.maxDepth),
    ("programs", toString programs)]

def builder (b : Builder) : String :=
  fields "EngineBuilder" [
    ("helpers", quotedList (Entries.keys b.helpers)),
    ("entity_flags", b.entityFlags.name),
    ("charset", Text.quoted b.charset),
    ("strict_callables", flag b.strictCallables),
    ("pragmas", quotedList b.pragmas),
    ("cache_lambda_templates", flag b.cacheLambdaTemplates),
    ("max_partial_depth", toString b.maxDepth)]

def error (e : Error) : String :=
  match e.site with
  | some site => Error.frame Text.columns e.message site
  | none => e.display

end Summary
end Mustache
