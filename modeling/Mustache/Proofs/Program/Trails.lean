import Mustache.Proofs.Program.Plain
import Mustache.Proofs.Program.Ready

/-! Ways through a program: from the template into the bodies of sections and the arguments of parents,
one in another, down to an instruction. Errors point at the tag of an instruction, or at the section that
it renders. -/
namespace Mustache

/-- The instructions of an inverted section or a block, by the number of the one that may skip the
others, and of the last of these. -/
structure Passage where
  opening : Nat
  last : Nat
  deriving DecidableEq

/-- An instruction by its number, with the passages around it that have been entered. -/
structure Spot where
  number : Nat
  around : List Passage
  deriving DecidableEq

/-- The way to instructions of a program: all of the template, the body of the section that is rendered at
a spot, or the argument of that name for the parent that is called there. -/
inductive Trail
  | whole
  | body (outer : Trail) (spot : Spot)
  | argument (outer : Trail) (spot : Spot) (name : String)
  deriving DecidableEq

/-- A spot among the instructions that a trail leads to. -/
structure Standing where
  trail : Trail
  spot : Spot
  deriving DecidableEq

/-- How many instructions after it one may skip. -/
def Instr.passage? : Instr → Option Nat
  | unlessEmpty size | slot _ size => some size
  | _ => none

/-- How many instructions are entered after one that has had some skipped. -/
def Instr.entered? (instr : Instr) (skipped : Nat) : Option Nat :=
  if skipped = 0 then instr.passage? else none

namespace Spot

def start : Spot := ⟨0, []⟩

/-- The next instruction, out of the passages that end here. -/
def next (spot : Spot) (entered : Option Nat) : Spot :=
  let entered := entered.toList.map fun size => ⟨spot.number, spot.number + size⟩
  ⟨spot.number + 1, (entered ++ spot.around).filter (spot.number < ·.last)⟩

/-- The passages are of these instructions, and the spot is in all of them. -/
def Within (spot : Spot) (instrs : List Instr) : Prop :=
  ∀ passage ∈ spot.around, passage.opening < spot.number ∧ spot.number ≤ passage.last ∧
    ∃ instr size, instrs[passage.opening]? = some instr ∧ instr.passage? = some size ∧
      passage.last = passage.opening + size

theorem within_start (instrs : List Instr) : start.Within instrs := by
  rintro passage ⟨⟩

theorem Within.next {spot : Spot} {instrs : List Instr} (within : spot.Within instrs) {instr : Instr}
    (here : instrs[spot.number]? = some instr) (skipped : Nat) :
    (spot.next (instr.entered? skipped)).Within instrs := by
  intro passage member
  obtain ⟨among, inside⟩ := List.mem_filter.1 member
  have inside : spot.number < passage.last := of_decide_eq_true inside
  rcases List.mem_append.1 among with entered | around
  · obtain ⟨size, given, rfl⟩ := List.mem_map.1 entered
    have given : instr.entered? skipped = some size := Option.mem_toList.1 given
    unfold Instr.entered? at given
    split at given
    · exact ⟨Nat.lt_succ_self _, inside, instr, size, here, given, rfl⟩
    · cases given
  · obtain ⟨after, -, opens⟩ := within passage around
    exact ⟨Nat.lt_succ_of_lt after, inside, opens⟩

theorem Within.skip {spot : Spot} {instrs : List Instr} (within : spot.Within instrs) :
    (spot.next none).Within instrs := by
  intro passage member
  obtain ⟨among, inside⟩ := List.mem_filter.1 member
  obtain ⟨after, -, opens⟩ := within passage among
  exact ⟨Nat.lt_succ_of_lt after, of_decide_eq_true inside, opens⟩

end Spot

/-- The instructions that a trail leads to. -/
inductive Program.Leads (program : Program) : Trail → List Instr → Prop
  | whole : Leads program .whole program.instrs
  | body (outer : Trail) (instrs : List Instr) (spot : Spot) (key : Key) (sec : Section)
      (before : Leads program outer instrs) (within : spot.Within instrs)
      (here : instrs[spot.number]? = some (.repeated key))
      (held : Entries.get? key program.sections = some sec) : Leads program (.body outer spot) sec.instrs
  | argument (outer : Trail) (instrs : List Instr) (spot : Spot) (name target indent : String)
      (given : List (String × Key)) (entry : String × Key) (inner : List Instr)
      (before : Leads program outer instrs) (within : spot.Within instrs)
      (here : instrs[spot.number]? = some (.parentCall target indent given))
      (last : given.reverse.find? (fun entry => entry.1 = name) = some entry)
      (held : Entries.get? entry.2 program.blocks = some inner) :
      Leads program (.argument outer spot name) inner

/-- An instruction with the way to it. -/
def Program.Reaches (program : Program) (standing : Standing) (instr : Instr) : Prop :=
  ∃ instrs, program.Leads standing.trail instrs ∧ standing.spot.Within instrs ∧
    instrs[standing.spot.number]? = some instr

theorem Program.Leads.owns {program : Program} {trail : Trail} {instrs : List Instr}
    (leads : program.Leads trail instrs) : program.Owns instrs := by
  cases leads with
  | whole => exact .main
  | body outer instrs spot key sec before within here held => exact .body key sec held
  | argument outer instrs spot name target indent given entry inner before within here last held =>
    exact .argument entry.2 _ held

/-- An instruction points at its tag, or at the section that it renders. -/
def Instr.PointsAt (program : Program) (instr : Instr) (span : Span) : Prop :=
  instr.span? = some span ∨
    ∃ key sec, instr = .repeated key ∧ Entries.get? key program.sections = some sec ∧ sec.span = span

def Instr.Renders (program : Program) (instr : Instr) (sec : Section) : Prop :=
  ∃ key, instr = .repeated key ∧ Entries.get? key program.sections = some sec

/-- The arguments that an instruction gives to the parent that it calls. -/
def Instr.Gives (instr : Instr) (given : List (String × Key)) : Prop :=
  ∃ target indent, instr = .parentCall target indent given

/-- Where errors may point at a standing. -/
def Program.Points (program : Program) (standing : Standing) (span : Span) : Prop :=
  ∃ instr, program.Reaches standing instr ∧ instr.PointsAt program span

end Mustache
