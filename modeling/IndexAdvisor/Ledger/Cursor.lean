import IndexAdvisor.Ledger.Opening
import IndexAdvisor.Program.Basic

/-!
# What a cursor number means

A cursor number may be opened again on another object later in a program, so each opening is kept
with its position. At a position, a number means what was opened under it last at or before the
position; a number that is used before it is opened, as in a subroutine laid out above its caller,
means what is opened under it first.

Models `CursorRegistry` with `scan`, `unit_at` and `unit_for_row`.
-/

namespace IndexAdvisor

/-- One opening: the cursor, the position of the instruction, and the entry of what it opened. -/
structure Opening where
  cursor : Int
  position : Nat
  id : Nat
  deriving DecidableEq, Repr

/-- The openings of a program in order. -/
abbrev Openings := List Opening

namespace Openings

/-- The entry that a cursor number means at a position. -/
def at? (openings : Openings) (cursor : Int) (pos : Nat) : Option Nat :=
  let own := openings.filter (·.cursor == cursor)
  ((own.reverse.find? (·.position ≤ pos)).or own.head?).map Opening.id

/-- The entry that the first operand of an instruction at a position means. -/
def of? (openings : Openings) (i : Instr) (pos : Nat) : Option Nat :=
  i.n1.bind fun cursor => openings.at? cursor pos

/-- Enters everything a program opens into the ledger, and notes under which cursors. -/
def scan (l : Ledger) (schema : Schema) (program : Program) : Ledger × Openings :=
  program.visit (l, []) fun (l, openings) pos i =>
    if i.opcode == .openObject then
      match l.openObject schema i, i.n1 with
      | (l, some id), some cursor => (l, openings ++ [⟨cursor, pos, id⟩])
      | (l, _), _ => (l, openings)
    else (l, openings)

end Openings

end IndexAdvisor
