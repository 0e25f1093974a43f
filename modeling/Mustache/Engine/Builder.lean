import Mustache.Engine

/-! Engines are configured step by step and checked when they are built. -/
namespace Mustache

structure Builder where
  loader : Option Loader := none
  partials : Option Loader := none
  helpers : List (String × Value) := []
  escape : Option (String → String) := none
  entityFlags : EntityFlags := .compat
  charset : String := "UTF-8"
  strictCallables : Bool := false
  pragmas : List String := []
  cache : Option String := none
  cacheLambdaTemplates : Bool := false
  maxDepth : Nat := 64

namespace Builder

def addHelper (name : String) (v : Value) (b : Builder) : Builder :=
  { b with helpers := Entries.put name v b.helpers }

def addPragma (name : String) (b : Builder) : Builder :=
  { b with pragmas := b.pragmas ++ [name] }

def escapeWith (escape : String → String) (b : Builder) : Builder :=
  { b with escape := some escape }

def readPragmas : List String → Except Error Pragmas
  | [] => .ok {}
  | name :: rest =>
    match Pragma.ofName? name with
    | some p => (readPragmas rest).map (·.insert p)
    | none => .error { cause := .unknownPragma name }

/-- Without a loader of their own, partials are found by the loader of templates, if there is
one. -/
def build (b : Builder) : Except Error Engine := do
  let pragmas ← readPragmas b.pragmas
  if !isCharset b.charset then throw { cause := .unsupportedCharset b.charset }
  if b.maxDepth = 0 then throw { cause := .zeroDepth }
  pure {
    loader := b.loader.getD .verbatim
    partials := b.partials <|> b.loader
    helpers := b.helpers
    escape := b.escape
    entityFlags := b.entityFlags
    charset := b.charset
    strictCallables := b.strictCallables
    pragmas
    cacheLambdaTemplates := b.cacheLambdaTemplates
    maxDepth := b.maxDepth }

end Builder
end Mustache
