import Mustache.Text.Bytes

/-! Regions of a template source, as half open ranges of UTF-8 byte offsets. -/
namespace Mustache

structure Span where
  start : Nat
  stop : Nat
  deriving DecidableEq, Inhabited

def Span.slice (span : Span) (source : String) : String :=
  .ofList (Text.takeBytes (span.stop - span.start) (Text.dropBytes span.start source.toList))

end Mustache
