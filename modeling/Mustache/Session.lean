import Mustache.Render
import Mustache.Summary
import Mustache.Text.Cut
import Mustache.Value.Document

/-! Sessions: engines that share loaders, caches and lambdas, and the steps taken with them. Each
step gives an answer; an error is one and does not end the session. -/
namespace Mustache

inductive Setting
  | loader (name : String)
  | templates (entries : List (String × String))
  | partialsLoader (name : String)
  | partials (entries : List (String × String))
  | helpers (entries : List (String × Value))
  | helper (name : String) (v : Value)
  | escapeWith (escape : String → String)
  | entityFlags (flags : EntityFlags)
  | charset (name : String)
  | strictCallables (yes : Bool)
  | pragma (name : String)
  | pragmas (names : List String)
  | cache (name : String)
  | cacheLambdaTemplates (yes : Bool)
  | maxDepth (limit : Nat)

def Setting.escape (pattern replacement : String) : Setting :=
  .escapeWith fun text => .ofList (Text.replace pattern.toList replacement.toList text.toList)

inductive LoaderSpec
  | verbatim
  | shelf (templates : List (String × String))
  | cascade (names : List String)

structure Input where
  context : Value
  interchanged : Bool

def Input.value (input : Input) : Except Error Value :=
  if input.interchanged then input.context.interchanged else .ok input.context

inductive Request
  | render (name : String) (input : Input)
  | compileRender (source : String) (input : Input)
  | compile (source : String)
  | loadTemplate (name : String)
  | templateKey (source : String)
  | addHelper (name : String) (v : Value)
  | getHelper (name : String)
  | hasHelper (name : String)
  | removeHelper (name : String)
  | helpers
  | settings
  | describe (source : String)

inductive Step
  | build (id : String) (settings : List Setting)
  | setTemplate (loader name source : String)
  | hasTemplate (loader name : String)
  | load (loader name : String)
  | report (cache : String)
  | ask (engine : String) (request : Request)

inductive Answer
  | built
  | error (e : Error)
  | fault (f : Render.Fault)
  | flag (b : Bool)
  | source (text : Option String)
  /-- The events since the last report, the first one first, and the size of a memory cache. -/
  | report (events : List CacheEvent) (size : Option Nat)
  | output (text : String)
  | rendered (text : String) (program : Program)
  | program (p : Program)
  | key (k : Key)
  | names (names : List String)
  | value (v : Value)
  | removed (v : Option Value) (names : List String)
  | settings (pragmas : Pragmas) (flags : EntityFlags) (charset : String)
  | described (engine : String) (program : Program)
  | undescribed (engine : String) (e : Error)

def Answer.ofProgram : Except Error Program → Answer
  | .ok p => .program p
  | .error e => .error e

/-- What a step refers to but the session does not have. -/
inductive Refusal
  | unknownLoader
  | unknownCache
  | unknownEngine
  deriving DecidableEq, Repr

structure Desk where
  engine : Engine
  cache : Option String
  memo : List (Key × Program) := []

structure Session where
  lambdas : Lambdas
  shelves : Shelves := []
  loaders : List (String × Loader) := []
  caches : List (String × Cache) := []
  desks : List (String × Desk) := []
  calls : List Call := []

namespace Session

def loader (s : Session) (name : String) : Except Refusal Loader :=
  match Entries.get? name s.loaders with
  | some loader => .ok loader
  | none => .error .unknownLoader

def addLoader (name : String) (spec : LoaderSpec) (s : Session) : Except Refusal Session :=
  match spec with
  | .verbatim => .ok { s with loaders := Entries.put name .verbatim s.loaders }
  | .shelf templates => .ok { s with
      loaders := Entries.put name (.shelf name) s.loaders
      shelves := Entries.put name (Entries.ofList templates) s.shelves }
  | .cascade names => do
    let loaders ← names.mapM s.loader
    pure { s with loaders := Entries.put name (.cascade loaders) s.loaders }

def addCache (name : String) (policy : CachePolicy) (s : Session) : Session :=
  { s with caches := Entries.put name { policy } s.caches }

def applySetting (s : Session) (b : Builder) : Setting → Except Refusal Builder
  | .loader name => return { b with loader := some (← s.loader name) }
  | .templates entries => .ok { b with loader := some (.fixed (Entries.ofList entries)) }
  | .partialsLoader name => return { b with partials := some (← s.loader name) }
  | .partials entries => .ok { b with partials := some (.fixed (Entries.ofList entries)) }
  | .helpers entries => .ok { b with helpers := Entries.putAll entries b.helpers }
  | .helper name v => .ok (b.addHelper name v)
  | .escapeWith escape => .ok (b.escapeWith escape)
  | .entityFlags flags => .ok { b with entityFlags := flags }
  | .charset name => .ok { b with charset := name }
  | .strictCallables yes => .ok { b with strictCallables := yes }
  | .pragma name => .ok (b.addPragma name)
  | .pragmas names => .ok (names.foldl (fun b name => b.addPragma name) b)
  | .cache name =>
    if Entries.has name s.caches then .ok { b with cache := some name } else .error .unknownCache
  | .cacheLambdaTemplates yes => .ok { b with cacheLambdaTemplates := yes }
  | .maxDepth limit => .ok { b with maxDepth := limit }

def configure (s : Session) (settings : List Setting) : Except Refusal Builder :=
  settings.foldlM s.applySetting {}

def storeOf (s : Session) (desk : Desk) : Store where
  memo := desk.memo
  cache := (desk.cache.bind (Entries.get? · s.caches)).getD { policy := .none }
  calls := s.calls

/-- The session after an engine has used its store. -/
def keep (id : String) (desk : Desk) (store : Store) (s : Session) : Session :=
  { s with
    desks := Entries.put id { desk with memo := store.memo } s.desks
    caches := match desk.cache with
      | some name => Entries.put name store.cache s.caches
      | none => s.caches
    calls := store.calls }

/-- Renders a program that was found, after its context has arrived. -/
def present (env : Render.Env) (found : Except Error Program) (input : Input)
    (answer : Program → String → Answer) : StateM Store Answer := do
  match found with
  | .error e => pure (.error e)
  | .ok program =>
    match input.value with
    | .error e => pure (.error e)
    | .ok context =>
      match ← Render.render env program context with
      | .ok text => pure (answer program text)
      | .error (.error e) => pure (.error e)
      | .error (.fault f) => pure (.fault f)

/-- Answers a request; only requests about helpers change the engine itself. -/
def answer (env : Render.Env) (request : Request) : StateM Store (Answer × Engine) := do
  let e := env.engine
  match request with
  | .render name input =>
    let found ← e.fetchNamed env.shelves name
    return (← present env found input fun _ text => .output text, e)
  | .compileRender source input =>
    let found ← e.fetch .template source
    return (← present env found input fun program text => .rendered text program, e)
  | .compile source => return (Answer.ofProgram (← e.fetch .template source), e)
  | .loadTemplate name => return (Answer.ofProgram (← e.fetchNamed env.shelves name), e)
  | .templateKey source => return (.key (e.templateKey source), e)
  | .addHelper name v =>
    let e := e.addHelper name v
    return (.names (Entries.keys e.helpers), e)
  | .getHelper name =>
    match e.helper name with
    | .ok v => return (.value v, e)
    | .error error => return (.error error, e)
  | .hasHelper name => return (.flag (Entries.has name e.helpers), e)
  | .removeHelper name =>
    let (v, e) := e.removeHelper name
    return (.removed v (Entries.keys e.helpers), e)
  | .helpers => return (.value (.map e.helpers), e)
  | .settings => return (.settings e.pragmas e.entityFlags e.charset, e)
  | .describe source =>
    let found ← e.fetch .template source
    let text := Summary.engine e (← get).memo.length
    match found with
    | .ok program => return (.described text program, e)
    | .error error => return (.undescribed text error, e)

def ask (id : String) (request : Request) (s : Session) : Except Refusal (Answer × Session) :=
  match Entries.get? id s.desks with
  | none => .error .unknownEngine
  | some desk =>
    let env : Render.Env := ⟨desk.engine, s.shelves, s.lambdas⟩
    let ((reply, engine), store) := (answer env request).run (s.storeOf desk)
    .ok (reply, s.keep id { desk with engine } store)

def setTemplate (loader name source : String) (s : Session) :
    Except Refusal (Answer × Session) := do
  match ← s.loader loader with
  | .shelf shelf =>
    let templates := Entries.put name source ((Entries.get? shelf s.shelves).getD [])
    pure (.flag true, { s with shelves := Entries.put shelf templates s.shelves })
  | _ => throw .unknownLoader

def hasTemplate (loader name : String) (s : Session) : Except Refusal Answer := do
  match ← s.loader loader with
  | .shelf shelf => pure (.flag (Entries.has name ((Entries.get? shelf s.shelves).getD [])))
  | _ => throw .unknownLoader

def report (name : String) (s : Session) : Except Refusal (Answer × Session) :=
  match Entries.get? name s.caches with
  | none => .error .unknownCache
  | some cache =>
    let size := if cache.policy = .memory then some cache.programs.length else none
    .ok (.report cache.log.reverse size,
      { s with caches := Entries.put name { cache with log := [] } s.caches })

def build (id : String) (settings : List Setting) (s : Session) :
    Except Refusal (Answer × Session) := do
  let builder ← s.configure settings
  match builder.build with
  | .ok engine => pure (.built, { s with desks := Entries.put id ⟨engine, builder.cache, []⟩ s.desks })
  | .error e => pure (.error e, s)

def step (s : Session) : Step → Except Refusal (Answer × Session)
  | .build id settings => s.build id settings
  | .setTemplate loader name source => s.setTemplate loader name source
  | .hasTemplate loader name => return (← s.hasTemplate loader name, s)
  | .load loader name => return (.source ((← s.loader loader).load s.shelves name), s)
  | .report cache => s.report cache
  | .ask engine request => s.ask engine request

def run : List Step → Session → Except Refusal (List Answer)
  | [], _ => .ok []
  | first :: rest, s => do
    let (reply, s) ← s.step first
    return reply :: (← run rest s)

end Session
end Mustache
