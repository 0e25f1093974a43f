import Mustache.Cache
import Mustache.Lambda
import Mustache.Loader
import Mustache.Program.Compile

/-! Engines: how templates are found, compiled and rendered. What an engine accumulates while it is
used is a store: the programs it has, its cache, and the lambdas called so far. -/
namespace Mustache

structure Engine where
  loader : Loader := .verbatim
  partials : Option Loader := none
  helpers : List (String × Value) := []
  escape : Option (String → String) := none
  entityFlags : EntityFlags := .compat
  charset : String := "UTF-8"
  strictCallables : Bool := false
  pragmas : Pragmas := {}
  cacheLambdaTemplates : Bool := false
  maxDepth : Nat := 64

inductive Call
  | interpolation (id : Nat)
  | enclosing (id : Nat) (text : String)
  | filter (id : Nat) (v : Value)

def Call.id : Call → Nat
  | interpolation id => id
  | enclosing id _ => id
  | filter id _ => id

structure Store where
  memo : List (Key × Program) := []
  cache : Cache := { policy := .none }
  /-- The calls so far, the last one first. -/
  calls : List Call := []

def Store.callCount (store : Store) (id : Nat) : Nat :=
  store.calls.countP (·.id == id)

namespace Engine

def version : String := "1.0.0"

def escapeMode (e : Engine) : EscapeMode :=
  match e.escape with
  | some _ => .custom
  | none => .html e.entityFlags

def dialect (e : Engine) : Dialect := ⟨e.pragmas, e.escapeMode, e.strictCallables⟩

/-- All that a program depends on. -/
def identity (e : Engine) (source : String) : String :=
  "version:" ++ version ++
    ",escape:" ++ (if e.escape.isSome then "custom" else "default") ++
    ",entity_flags:" ++ toString e.entityFlags.bits ++
    ",charset:" ++ e.charset ++
    ",strict_callables:" ++ (if e.strictCallables then "true" else "false") ++
    ",pragmas:" ++ " ".intercalate (e.pragmas.toList.map Pragma.name) ++
    ",source:" ++ source

def templateKey (e : Engine) (source : String) : Key :=
  Hash.sha256 (e.identity source)

/-- Which cache a source is looked for in when the engine does not have its program. -/
inductive Origin
  | template
  | lambda
  deriving DecidableEq, Repr

def usesCache (e : Engine) : Origin → Bool
  | .template => true
  | .lambda => e.cacheLambdaTemplates

def remember (key : Key) (program : Program) (store : Store) : Store :=
  { store with memo := Entries.put key program store.memo }

def compileNew (e : Engine) (cached : Bool) (key : Key) (source : String) :
    StateM Store (Except Error Program) := do
  match Program.compile e.dialect key source with
  | .error error => pure (.error error)
  | .ok program =>
    if cached then
      modify fun store => { store with cache := store.cache.store key program }
    modify (remember key program)
    pure (.ok program)

/-- The program of a source: the one that the engine has, or else the one that the cache has, or
else a new one, which both keep. -/
def fetch (e : Engine) (origin : Origin) (source : String) : StateM Store (Except Error Program) := do
  let key := e.templateKey source
  match Entries.get? key (← get).memo with
  | some program => pure (.ok program)
  | none =>
    if e.usesCache origin then
      let (found, cache) := (← get).cache.load key
      modify fun store => { store with cache }
      match found with
      | some program =>
        modify (remember key program)
        pure (.ok program)
      | none => e.compileNew true key source
    else e.compileNew false key source

/-- The program of a text that a lambda gave, read with the given delimiters in force. -/
def fetchLambda (e : Engine) (changeTag : Option String) (text : String) :
    StateM Store (Except Error Program) :=
  e.fetch .lambda (match changeTag with
    | some tag => tag ++ "\n" ++ text
    | none => text)

def fetchPartial (e : Engine) (shelves : Shelves) (name : String) :
    StateM Store (Except Error (Option Program)) := do
  match e.partials.bind (·.load shelves name) with
  | some source => return (← e.fetch .template source).map some
  | none => pure (.ok none)

def fetchNamed (e : Engine) (shelves : Shelves) (name : String) :
    StateM Store (Except Error Program) := do
  match e.loader.load shelves name with
  | some source => e.fetch .template source
  | none => pure (.error { cause := .unknownTemplate name })

def addHelper (name : String) (v : Value) (e : Engine) : Engine :=
  { e with helpers := Entries.put name v e.helpers }

def helper (e : Engine) (name : String) : Except Error Value :=
  match Entries.get? name e.helpers with
  | some v => .ok v
  | none => .error { cause := .unknownHelper name }

def removeHelper (name : String) (e : Engine) : Option Value × Engine :=
  (Entries.get? name e.helpers, { e with helpers := Entries.erase name e.helpers })

end Engine
end Mustache
