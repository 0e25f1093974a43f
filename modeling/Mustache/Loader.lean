import Mustache.Entries

/-! Loaders find template sources by name. A shelf holds templates that may be replaced while
engines use it, so a loader refers to it by its name. -/
namespace Mustache

abbrev Shelves := List (String × List (String × String))

inductive Loader
  /-- A template's name is its source. -/
  | verbatim
  | fixed (templates : List (String × String))
  | shelf (name : String)
  /-- The first loader that knows a template wins. -/
  | cascade (loaders : List Loader)

namespace Loader

mutual

def load (shelves : Shelves) (name : String) : Loader → Option String
  | verbatim => some name
  | fixed templates => Entries.get? name templates
  | shelf shelfName => (Entries.get? shelfName shelves).bind (Entries.get? name)
  | cascade loaders => loadFirst shelves name loaders
  termination_by structural loader => loader

def loadFirst (shelves : Shelves) (name : String) : List Loader → Option String
  | [] => none
  | loader :: rest =>
    match load shelves name loader with
    | some source => some source
    | none => loadFirst shelves name rest
  termination_by structural loaders => loaders

end

end Loader
end Mustache
