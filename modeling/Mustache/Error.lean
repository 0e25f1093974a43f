import Mustache.Span

/-! What can go wrong: the cause of an error, its kind and message, and the place in a template
source that it points at. -/
namespace Mustache

inductive ErrorKind
  | syntactic
  | unknownFilter
  | unknownTemplate
  | unknownHelper
  | config
  | render
  | serialize
  deriving DecidableEq, Repr

inductive Cause
  | unclosedTag
  | unclosedTriple
  /-- An unescaped tag in braces whose content does not end in one. -/
  | unclosedBrace
  | emptyTag
  | invalidDelimiters
  | unexpectedClose (name : String)
  | mismatchedClose (expected found : String)
  | unclosedSection (name : String)
  | unknownFilter (name : String)
  | unknownTemplate (name : String)
  | unknownHelper (name : String)
  | unknownPragma (name : String)
  | unsupportedCharset (name : String)
  | zeroDepth
  | notRenderable (type : String)
  | sectionInterpolated
  | filterInterpolated
  | sectionApplied
  | tooDeep (limit : Nat)
  | raised (message : String)
  | lambdaSerialized
  deriving DecidableEq, Repr

namespace Cause

def kind : Cause → ErrorKind
  | unclosedTag | unclosedTriple | unclosedBrace | emptyTag | invalidDelimiters
  | unexpectedClose _ | mismatchedClose _ _ | unclosedSection _ => .syntactic
  | unknownFilter _ => .unknownFilter
  | unknownTemplate _ => .unknownTemplate
  | unknownHelper _ => .unknownHelper
  | unknownPragma _ | unsupportedCharset _ | zeroDepth => .config
  | notRenderable _ | sectionInterpolated | filterInterpolated | sectionApplied | tooDeep _
  | raised _ => .render
  | lambdaSerialized => .serialize

def message : Cause → String
  | unclosedTag => "unclosed tag"
  | unclosedTriple => "expected `\x7d\x7d\x7d` to close triple mustache"
  | unclosedBrace => "expected `\x7d` to close triple mustache"
  | emptyTag => "expected a tag name"
  | invalidDelimiters => "invalid delimiter change, expected two delimiters without `=`"
  | unexpectedClose name => "unexpected closing tag `" ++ name ++ "`"
  | mismatchedClose expected found =>
    "mismatched closing tag, expected `" ++ expected ++ "` found `" ++ found ++ "`"
  | unclosedSection name => "unclosed tag `" ++ name ++ "`"
  | unknownFilter name => "unknown filter `" ++ name ++ "`"
  | unknownTemplate _ => "unknown template"
  | unknownHelper name => "unknown helper `" ++ name ++ "`"
  | unknownPragma name => "unknown pragma `" ++ name ++ "`"
  | unsupportedCharset name => "unsupported charset `" ++ name ++ "`"
  | zeroDepth => "maximum partial depth must be at least 1"
  | notRenderable type => "expected renderable value, found " ++ type
  | sectionInterpolated => "section lambda cannot be interpolated"
  | filterInterpolated => "filter lambda cannot be interpolated"
  | sectionApplied => "section lambda cannot be used as a filter"
  | tooDeep limit => "reached maximum partial depth (" ++ toString limit ++ ")"
  | raised message => message
  | lambdaSerialized => "lambda cannot be serialized"

def template? : Cause → Option String
  | unknownTemplate name => some name
  | _ => none

end Cause

structure Site where
  source : String
  span : Span
  deriving DecidableEq

structure Error where
  cause : Cause
  site : Option Site := none
  deriving DecidableEq

namespace Error

/-- An empty source has no place to point at. -/
def siteIn (source : String) (span : Span) : Option Site :=
  if source.isEmpty then none else some ⟨source, span⟩

def locatedAt (cause : Cause) (source : String) (span : Span) : Error :=
  ⟨cause, siteIn source span⟩

/-- Points an error that has no place yet at one. -/
def orAt (e : Error) (source : String) (span : Span) : Error :=
  match e.site with
  | some _ => e
  | none => { e with site := siteIn source span }

def kind (e : Error) : ErrorKind := e.cause.kind

def message (e : Error) : String := e.cause.message

def display (e : Error) : String :=
  match e.site, e.cause.template? with
  | some site, _ =>
    e.message ++ " between bytes " ++ toString site.span.start ++ " and " ++ toString site.span.stop
  | none, some name => e.message ++ " `" ++ name ++ "`"
  | none, none => e.message

end Error
end Mustache
