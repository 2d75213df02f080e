/-!
# What the instructions of a compiled statement do

The engine compiles a statement into a program of some hundred and eighty kinds of instruction. The
advisor tells apart the ones that open, move, read, compare, load, copy, record and sort; every
other one is `other` and carries no information. `Opcode.ofName` is one table, so that the name of
an instruction is looked at in one place only.

Models `SeekOp`, `CompareOp`, `LiteralKind`, `NullTestOp` and `OpcodeKind` with `classify`.
-/

namespace IndexAdvisor

/-- The side of a key range that a seek or a bound describes. -/
inductive Edge where
  | ge | gt | le | lt
  deriving DecidableEq, Repr

/-- A comparison of two values. -/
inductive Relation where
  | eq | ne | lt | le | gt | ge
  deriving DecidableEq, Repr

namespace Relation

/-- The relation that holds exactly when the given one does not. -/
def negate : Relation → Relation
  | eq => ne | ne => eq | lt => ge | le => gt | gt => le | ge => lt

/-- The same relation with its two sides exchanged. -/
def flip : Relation → Relation
  | eq => eq | ne => ne | lt => gt | le => ge | gt => lt | ge => le

/-- The relation as SQL writes it. -/
def sql : Relation → String
  | eq => "=" | ne => "!=" | lt => "<" | le => "<=" | gt => ">" | ge => ">="

end Relation

/-- The comparison an edge stands for: the entries on its near side satisfy it. -/
def Edge.relation : Edge → Relation
  | .ge => .ge | .gt => .gt | .le => .le | .lt => .lt

/-- How an instruction writes the constant it loads. -/
inductive Constant where
  | integer | int64 | real | string8 | string | blob | null | variable
  deriving DecidableEq, Repr

/-- The tests that may come from `IS NULL` in the statement. -/
inductive Truth where
  | ifTrue | ifFalse | isNull | notNull
  deriving DecidableEq, Repr

/-- The kinds of instruction the advisor tells apart. -/
inductive Opcode where
  /-- Opens cursor P1 on the object whose root page is P2. -/
  | openObject
  | openEphemeral
  | openSorter
  /-- Opens cursor P1 on the row unpacked into register P2. -/
  | openPseudo
  /-- Reads column P2 of cursor P1 into register P3. -/
  | column
  /-- Reads the row number of cursor P1 into register P2. -/
  | rowid
  /-- Moves cursor P1 to the edge of a key range: P4 registers from P3 on. -/
  | seek (edge : Edge)
  /-- Ends a scan at the edge of a key range; operands as for `seek`. -/
  | bound (edge : Edge)
  /-- Jumps to P2 when the content of P3 stands in the relation to the content of P1. -/
  | compare (relation : Relation)
  /-- Moves cursor P1 to the row whose number is in register P3. -/
  | rowidLookup
  | truth (test : Truth)
  /-- Loads a constant into register P2. -/
  | constant (kind : Constant)
  /-- Copies register P1 to register P2. -/
  | copy
  | affinity
  | cast
  /-- Packs P2 registers from P1 on into a record in register P3. -/
  | makeRecord
  | indexInsert
  | sorterInsert
  | sort
  | sorterSort
  /-- Unpacks the current row of sorter P1 into register P2 for pseudo cursor P3. -/
  | sorterData
  /-- Compares two runs of registers value by value. -/
  | compareKeys
  | aggregateStep
  | rewind
  | last
  | seekEnd
  | next
  | prev
  | resultRow
  | ifPositive
  | other
  deriving DecidableEq, Repr

namespace Opcode

/-- The names of the instructions that carry information, with what they do. -/
def names : List (String × Opcode) := [
  ("OpenRead", openObject), ("OpenWrite", openObject), ("ReopenIdx", openObject),
  ("OpenEphemeral", openEphemeral), ("OpenAutoindex", openEphemeral),
  ("SorterOpen", openSorter), ("OpenPseudo", openPseudo),
  ("Column", column), ("Rowid", rowid), ("IdxRowid", rowid),
  ("SeekGE", seek .ge), ("SeekGT", seek .gt), ("SeekLE", seek .le), ("SeekLT", seek .lt),
  ("IdxGE", bound .ge), ("IdxGT", bound .gt), ("IdxLE", bound .le), ("IdxLT", bound .lt),
  ("Eq", compare .eq), ("Ne", compare .ne), ("Lt", compare .lt), ("Le", compare .le),
  ("Gt", compare .gt), ("Ge", compare .ge),
  ("SeekRowid", rowidLookup), ("NotExists", rowidLookup),
  ("If", truth .ifTrue), ("IfNot", truth .ifFalse), ("IsNull", truth .isNull),
  ("NotNull", truth .notNull),
  ("Integer", constant .integer), ("Int64", constant .int64), ("Real", constant .real),
  ("String8", constant .string8), ("String", constant .string), ("Blob", constant .blob),
  ("Null", constant .null), ("Variable", constant .variable),
  ("Copy", copy), ("SCopy", copy), ("IntCopy", copy),
  ("Affinity", affinity), ("Cast", cast), ("MakeRecord", makeRecord),
  ("IdxInsert", indexInsert), ("SorterInsert", sorterInsert),
  ("Sort", sort), ("SorterSort", sorterSort), ("SorterData", sorterData),
  ("Compare", compareKeys), ("AggStep", aggregateStep), ("AggStep1", aggregateStep),
  ("Rewind", rewind), ("Last", last), ("SeekEnd", seekEnd),
  ("Next", next), ("SorterNext", next), ("Prev", prev),
  ("ResultRow", resultRow), ("IfPos", ifPositive)]

/-- What the instruction of a given name does; names are spelled exactly. -/
def ofName (name : String) : Opcode := (names.lookup name).getD other

/-- Whether the instruction reads a column of a table or an index into a register. -/
def readsColumn : Opcode → Bool
  | column | rowid => true
  | _ => false

/-- Whether the instruction moves a cursor to the edge of a key range. -/
def isSeek : Opcode → Bool
  | seek _ => true
  | _ => false

/-- Whether the instruction ends a scan at the edge of a key range. -/
def isBound : Opcode → Bool
  | bound _ => true
  | _ => false

end Opcode

end IndexAdvisor
