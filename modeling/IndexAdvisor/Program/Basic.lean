import IndexAdvisor.Program.Instr

/-!
# Programs and the searches over them

A program is the list of its instructions; a position is an index into that list. Everything the
advisor learns comes from looking around a position: backwards or forwards for the nearest
instruction that is wanted, giving up at an edge it must not cross. An instruction that is both
wanted and an edge is found.

Models `Trace` with `find_backward_until`, `find_forward_until`, `last_writer`, `next_writer`,
`position_of_address` and `jump_target_kind`.
-/

namespace IndexAdvisor

/-- The instructions that a statement compiles to, in order. -/
structure Program where
  instrs : List Instr
  deriving DecidableEq, Repr

namespace Program

/-- The number of instructions. -/
def size (p : Program) : Nat := p.instrs.length

/-- The instruction at a position. -/
def at? (p : Program) (pos : Nat) : Option Instr := p.instrs[pos]?

/-- What the instruction at a position does. -/
def opcodeAt? (p : Program) (pos : Nat) : Option Opcode := (p.at? pos).map Instr.opcode

/-- The nearest wanted instruction strictly below a position, looking no further than an edge. -/
def searchBelow (p : Program) (want edge : Instr → Bool) : Nat → Option Nat
  | 0 => none
  | pos + 1 =>
    match p.at? pos with
    | none => searchBelow p want edge pos
    | some i => if want i then some pos else if edge i then none else searchBelow p want edge pos

/-- The nearest wanted instruction before a position, looking no further than an edge. -/
def searchBack (p : Program) (start : Nat) (want edge : Instr → Bool) : Option Nat :=
  p.searchBelow want edge (min start p.size)

/-- The first wanted instruction of a list whose first position is `pos`, up to an edge. -/
def searchList (want edge : Instr → Bool) : Nat → List Instr → Option Nat
  | _, [] => none
  | pos, i :: rest =>
    if want i then some pos else if edge i then none else searchList want edge (pos + 1) rest

/-- The nearest wanted instruction after a position, looking no further than an edge. -/
def searchForward (p : Program) (start : Nat) (want edge : Instr → Bool) : Option Nat :=
  searchList want edge (start + 1) (p.instrs.drop (start + 1))

/-- The edge that is never met. -/
def noEdge : Instr → Bool := fun _ => false

/-- The last instruction before a position that writes a register. -/
def lastWriter (p : Program) (pos : Nat) (register : Int) : Option Nat :=
  p.searchBack pos (·.writes register) noEdge

/-- The first instruction after a position that writes a register. -/
def nextWriter (p : Program) (pos : Nat) (register : Int) : Option Nat :=
  p.searchForward pos (·.writes register) noEdge

/-- The position of an address; where an address is repeated, its last position. -/
def positionOf? (p : Program) (address : Int) : Option Nat :=
  p.searchBelow (·.address == address) noEdge p.size

/-- What the instruction does that the second operand of the instruction at a position points at. -/
def jumpTarget? (p : Program) (pos : Nat) : Option Opcode :=
  ((p.at? pos).bind Instr.n2).bind fun address => (p.positionOf? address).bind p.opcodeAt?

/-- Visits every instruction with its position, in order. -/
def visit {σ : Type} (p : Program) (start : σ) (step : σ → Nat → Instr → σ) : σ :=
  p.instrs.zipIdx.foldl (fun s entry => step s entry.2 entry.1) start

end Program

end IndexAdvisor
