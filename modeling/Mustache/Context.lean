import Mustache.Program
import Mustache.Value

/-! Where names are looked up: the frames of data, the innermost first, and the overlay of block
arguments given to the parents that are being rendered, the innermost parent's first. -/
namespace Mustache

abbrev Frames := List Value

namespace Frames

def segments (name : List Char) : List String :=
  (Text.pieces (· == '.') name).map String.ofList

/-- The first frame that has the first part decides, also when the rest is not found. -/
def followPath : Frames → List String → Option Value
  | [], _ => none
  | frame :: outer, parts =>
    match frame.path? (parts.take 1) with
    | some _ => frame.path? parts
    | none => followPath outer parts

def anchoredPath (name : List Char) : List String :=
  segments (if name.head? = some '.' then name.tail else name)

def find? (frames : Frames) (ref : Ref) : Option Value :=
  match ref.lookup with
  | .top => frames.head?
  | .anywhere => frames.findSome? (·.index? ref.name)
  | .path => followPath frames (segments ref.name.toList)
  | .anchored => frames.head?.bind (·.path? (anchoredPath ref.name.toList))

def find (frames : Frames) (ref : Ref) : Value :=
  (frames.find? ref).getD .null

end Frames

/-- A block argument, with the program whose tables hold it. -/
structure Override where
  program : Program
  key : Key
  deriving DecidableEq

abbrev Overlay := List (List (String × Override))

namespace Overlay

def find? (overlay : Overlay) (name : String) : Option Override :=
  overlay.findSome? (Entries.get? name)

/-- The arguments of one more parent; a name that has an argument already keeps it. -/
def push (given : List (String × Override)) (overlay : Overlay) : Overlay :=
  given.filter (fun (name, _) => (overlay.find? name).isNone) :: overlay

end Overlay
end Mustache
