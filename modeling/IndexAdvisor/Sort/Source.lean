import IndexAdvisor.Program.Basic
import IndexAdvisor.Program.Word

/-!
# Where a sort key comes from

A register of a sort record is followed back to the instruction that read a column into it: through
copies, and through the sorter of an earlier grouping step, whose rows are read back through a
pseudo cursor. The search stays within the loop that builds the record and takes at most four such
steps.

Models `reads_pseudo_cursor`, `through_sorter` and `key_source`.
-/

namespace IndexAdvisor.Sort

/-- The number of registers that are looked at on the way to a column: the one in the record and
four that it may have been taken from. -/
def sourceReach : Nat := 5

/-- Whether an instruction begins the loop that a record is built in. -/
def startsLoop (i : Instr) : Bool :=
  match i.opcode with
  | .rewind | .last | .seekEnd | .seek _ | .openObject | .openEphemeral | .openSorter => true
  | _ => false

/-- Whether an instruction reads through a pseudo cursor. -/
def readsPseudo (p : Program) (i : Instr) : Bool :=
  i.n1.any fun cursor => p.instrs.any (·.isOn .openPseudo cursor)

/-- The record that an insert stores: the position of the instruction that built it. -/
def recordOf? (p : Program) (insertPos : Nat) (insert : Instr) : Option Nat := do
  let pos ← p.lastWriter insertPos (← insert.n2)
  if p.opcodeAt? pos == some .makeRecord then some pos else none

/-- The record and the register in it that a read through a pseudo cursor goes back to: the pseudo
cursor shows the row of a sorter, and the row was stored in the sorter as a record. -/
def sorterField? (p : Program) (pos : Nat) (read : Instr) : Option (Nat × Int) := do
  let pseudo ← read.n1
  let field ← read.n2
  let dataPos ← p.searchBack pos (fun i => i.opcode == .sorterData && i.n3 == some pseudo)
    Program.noEdge
  let sorter ← (← p.at? dataPos).n1
  let insertPos ← p.searchBack dataPos (·.isOn .sorterInsert sorter) Program.noEdge
  let recordPos ← recordOf? p insertPos (← p.at? insertPos)
  let first ← (← p.at? recordPos).n1
  return (recordPos, registerAfter first field)

/-- The position of the instruction that read the column in a register of the record built at `pos`,
looking at `reach` registers at most. -/
def source? (p : Program) : (reach : Nat) → (pos : Nat) → (register : Int) → Option Nat
  | 0, _, _ => none
  | reach + 1, pos, register => do
    let writer ← p.searchBack pos (·.writes register) startsLoop
    let i ← p.at? writer
    match i.opcode with
    | .column =>
      if readsPseudo p i then
        let field ← sorterField? p writer i
        source? p reach field.1 field.2
      else some writer
    | .rowid => some writer
    | .copy => source? p reach writer (← i.n1)
    | _ => none

end IndexAdvisor.Sort
