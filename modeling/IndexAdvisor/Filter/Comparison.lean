import IndexAdvisor.Scene

/-!
# Comparisons of registers

A comparison relates the content of its third operand to that of its first and jumps when the
relation holds. A column on either side is recorded. When exactly one side is a column and the other
a constant, the comparison is reconstructed with the column on the left; and where the jump goes to
the advance of a loop, which skips the row, the row qualifies when the comparison fails.

Models `compare`.
-/

namespace IndexAdvisor.Filter

/-- Whether a jump to an instruction leaves the current row of a loop. -/
def skipsRow : Option Opcode → Bool
  | some .next | some .prev => true
  | _ => false

/-- Records what a comparison of two registers says. -/
def recordComparison (s : Scene) (l : Ledger) (pos : Nat) (i : Instr) (relation : Relation) :
    Ledger :=
  match i.n1, i.n3 with
  | some right, some left =>
    let rightRead := s.columnIn? l pos right
    let leftRead := s.columnIn? l pos left
    let seen := (rightRead.toList ++ leftRead.toList).foldl (fun l r => l.record r.1 .filter r.2) l
    let reconstruct (id : Nat) (column : String) (relation : Relation) (constant : Int) : Ledger :=
      match s.valueIn? pos constant with
      | none => seen
      | some text =>
        let holds := if skipsRow (s.program.jumpTarget? pos) then relation.negate else relation
        seen.recordFilter id (comparisonText column holds.sql text)
    match rightRead, leftRead with
    | none, some (id, column) => reconstruct id column relation right
    | some (id, column), none => reconstruct id column relation.flip left
    | _, _ => seen
  | _, _ => l

end IndexAdvisor.Filter
