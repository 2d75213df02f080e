import IndexAdvisor.Ledger.Cursor
import IndexAdvisor.Program.Value
import IndexAdvisor.Sql.Token

/-!
# A program in its surroundings

What the searches for findings look at and never change: the program of a statement, the schema it
runs against, what its cursors mean, and the tokens of the statement.

Models `TraceScope` with `unit_of`, `column_name`, `rowid_column` and `column_read`.
-/

namespace IndexAdvisor

/-- A program with the schema, the openings and the tokens that give it meaning. -/
structure Scene where
  program : Program
  schema : Schema
  openings : Openings
  tokens : List Sql.Token

namespace Scene

/-- The entry that the instruction at a position addresses through its first operand. -/
def entryAt? (s : Scene) (pos : Nat) : Option Nat :=
  (s.program.at? pos).bind fun i => s.openings.of? i pos

/-- The entry and the column that an instruction reads. -/
def columnReadBy? (s : Scene) (l : Ledger) (i : Instr) (pos : Nat) : Option (Nat × String) := do
  let id ← s.openings.of? i pos
  let u ← l.usage? id
  match i.opcode with
  | .column => return (id, ← u.columnAt? s.schema (← i.n2))
  | .rowid => return (id, ← u.rowidColumn? s.schema)
  | _ => none

/-- The entry and the column that the instruction at a position reads. -/
def columnRead? (s : Scene) (l : Ledger) (pos : Nat) : Option (Nat × String) :=
  (s.program.at? pos).bind fun i => s.columnReadBy? l i pos

/-- The entry and the column whose value a register holds at a position, if the instruction that
wrote the register last is a read of a column. -/
def columnIn? (s : Scene) (l : Ledger) (pos : Nat) (register : Int) : Option (Nat × String) :=
  (s.program.lastWriter pos register).bind fun writer => s.columnRead? l writer

/-- The constant that a register holds at a position. -/
def valueIn? (s : Scene) (pos : Nat) (register : Int) : Option String :=
  s.program.valueAt? pos register

end Scene

end IndexAdvisor
