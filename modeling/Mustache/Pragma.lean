/-! Pragmas are named features of the template language that a tag switches on for what follows it,
or an engine for all its templates. -/
namespace Mustache

inductive Pragma
  | blocks
  | filters
  | anchoredDot
  deriving DecidableEq, Repr

def Pragma.name : Pragma → String
  | blocks => "BLOCKS"
  | filters => "FILTERS"
  | anchoredDot => "ANCHORED-DOT"

def Pragma.ofName? : String → Option Pragma
  | "BLOCKS" => some blocks
  | "FILTERS" => some filters
  | "ANCHORED-DOT" => some anchoredDot
  | _ => none

theorem Pragma.ofName?_name (p : Pragma) : ofName? p.name = some p := by
  cases p <;> rfl

theorem Pragma.ofName?_eq_some_iff {name : String} {p : Pragma} :
    ofName? name = some p ↔ name = p.name := by
  constructor
  · intro h
    simp only [ofName?] at h
    split at h <;> simp_all [Pragma.name] <;> cases h <;> rfl
  · rintro rfl
    exact ofName?_name p

structure Pragmas where
  blocks : Bool := false
  filters : Bool := false
  anchoredDot : Bool := false
  deriving DecidableEq, Inhabited, Repr

namespace Pragmas

def empty : Pragmas := {}

def contains (set : Pragmas) : Pragma → Bool
  | .blocks => set.blocks
  | .filters => set.filters
  | .anchoredDot => set.anchoredDot

def insert (p : Pragma) (set : Pragmas) : Pragmas :=
  match p with
  | .blocks => { set with blocks := true }
  | .filters => { set with filters := true }
  | .anchoredDot => { set with anchoredDot := true }

theorem contains_insert (p q : Pragma) (set : Pragmas) :
    (set.insert p).contains q = (decide (q = p) || set.contains q) := by
  cases p <;> cases q <;> rfl

def ofList (pragmas : List Pragma) : Pragmas :=
  pragmas.foldl (fun set p => set.insert p) empty

def toList (set : Pragmas) : List Pragma :=
  [.blocks, .filters, .anchoredDot].filter set.contains

theorem mem_toList {p : Pragma} {set : Pragmas} : p ∈ set.toList ↔ set.contains p = true := by
  cases p <;> simp [toList]

def sortedNames (set : Pragmas) : List String :=
  ([.anchoredDot, .blocks, .filters].filter set.contains).map Pragma.name

end Pragmas
end Mustache
