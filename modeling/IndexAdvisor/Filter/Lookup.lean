import IndexAdvisor.Scene

/-!
# Row numbers and single columns

A lookup by row number filters the column that holds it. Where the row number was read from a column
of another cursor, as in a join, that column is filtered too. A column that is read and then neither
put out nor stored is read for a test of its own.

Models `rowid_lookup`, `bare_column` and `consumes_column`.
-/

namespace IndexAdvisor.Filter

/-- Whether an instruction takes the column read just before it for output, for a record, or not at
all. -/
def consumesColumn : Opcode → Bool
  | .ifPositive | .rewind | .column | .resultRow | .rowid | .makeRecord => true
  | _ => false

/-- Records a lookup by row number. -/
def recordLookup (s : Scene) (l : Ledger) (pos : Nat) (i : Instr) : Ledger :=
  match s.openings.of? i pos with
  | none => l
  | some id =>
    let own := match (l.usage? id).bind (·.rowidColumn? s.schema) with
      | none => l
      | some key =>
        let l := l.record id .filter key
        match i.n3.bind (s.valueIn? pos) with
        | some constant => l.recordFilter id (comparisonText key "=" constant)
        | none => l
    let fed := do
      let writer ← s.program.lastWriter pos (← i.n3)
      if (s.program.opcodeAt? writer) == some .column then s.columnRead? own writer else none
    match fed with
    | some (source, column) => own.record source .filter column
    | none => own

/-- Records a column that is read for a test. -/
def recordColumn (s : Scene) (l : Ledger) (pos : Nat) (i : Instr) : Ledger :=
  match s.program.opcodeAt? (pos + 1) with
  | none => l
  | some following =>
    if consumesColumn following then l
    else match s.columnReadBy? l i pos with
      | some (id, column) => l.record id .filter column
      | none => l

end IndexAdvisor.Filter
