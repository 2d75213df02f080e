import IndexAdvisor.Filter.Range
import IndexAdvisor.Filter.Comparison
import IndexAdvisor.Filter.Lookup
import IndexAdvisor.Filter.Null

/-!
# Columns a statement is filtered by

One pass over the program: each instruction that can stem from a condition is looked at by itself.
The tests for NULL in the text are read once, at the first instruction that may stem from one.

Models `extract_where`.
-/

namespace IndexAdvisor.Filter

/-- Whether an instruction may stem from a test for NULL. -/
def isTruth (i : Instr) : Bool :=
  match i.opcode with
  | .truth _ => true
  | _ => false

/-- Records what one instruction says about the conditions of the statement. -/
def recordInstr (s : Scene) (l : Ledger) (pos : Nat) (i : Instr) : Ledger :=
  match i.opcode with
  | .seek _ => recordRange s l pos i .entry
  | .bound _ => recordRange s l pos i .exit
  | .compare relation => recordComparison s l pos i relation
  | .rowidLookup => recordLookup s l pos i
  | .column => recordColumn s l pos i
  | .truth _ => if s.program.instrs.findIdx? isTruth == some pos then recordNullTests s l else l
  | _ => l

/-- Records all columns that the statement is filtered by. -/
def record (s : Scene) (l : Ledger) : Ledger := s.program.visit l (recordInstr s)

end IndexAdvisor.Filter
