import IndexAdvisor.Scene
import IndexAdvisor.Sql.OrderBy
import IndexAdvisor.Sql.Source

/-!
# Rows that come in order

A table or an index that is walked in its stored order needs no sort step. A walk backwards is
always taken for that; a walk forwards only if the program sorts nothing. The columns of such an
object that the `ORDER BY` names are then sorted by, if they are its own: a qualified term must mean
its table.

Models `ordered_walks` and `natural_order`.
-/

namespace IndexAdvisor.Sort

/-- Whether an instruction starts a walk that the given one advances. `forward` admits walks
forwards, and walks that start at the edge of a key range. -/
def startsWalk (forward : Bool) (advance : Opcode) (cursor : Int) (i : Instr) : Bool :=
  let starts := match advance with
    | .prev => i.opcode == .last || i.opcode == .seekEnd
    | _ => i.opcode == .rewind
  (starts || (forward && i.opcode.isSeek)) && i.n1 == some cursor

/-- The entry whose stored order an instruction follows. -/
def walkedEntry? (s : Scene) (forward : Bool) (pos : Nat) (i : Instr) : Option Nat :=
  if i.opcode == .prev || (i.opcode == .next && forward) then do
    let cursor ← i.n1
    let start ← s.program.searchBack pos (startsWalk forward i.opcode cursor) Program.noEdge
    s.entryAt? start
  else none

/-- The entries that are walked in stored order, each at its first walk. -/
def walks (s : Scene) (forward : Bool) : List Nat :=
  s.program.visit [] fun found pos i =>
    match walkedEntry? s forward pos i with
    | some id => if found.contains id then found else found ++ [id]
    | none => found

/-- Whether a term can be about the rows of a table: it is unqualified, or its qualifier means the
table. -/
def concerns (refs : List Sql.TableRef) (table : String) (term : Sql.ColumnRef) : Bool :=
  match term.qualifier with
  | none => true
  | some qualifier => (Sql.resolveQualifier? refs qualifier).any (sameName · table)

/-- The columns of a usage that some terms sort by, in the order of the terms and as the schema
spells them. -/
def orderedBy (schema : Schema) (refs : List Sql.TableRef) (u : Usage) (terms : List Sql.SortTerm) :
    List String :=
  terms.filterMap fun term => term.bind fun ref =>
    if concerns refs u.rowTable ref then declared? (u.orderedColumns schema) ref.column else none

/-- Records the order of the entries that are walked in stored order. Entries that are sorted by
some column already stay as they are. -/
def recordWalks (s : Scene) (l : Ledger) (terms : List Sql.SortTerm) (forward : Bool) : Ledger :=
  if terms.all Option.isNone then l
  else
    let refs := Sql.tableRefs s.tokens
    (walks s forward).foldl (fun l id =>
      match l.usage? id with
      | none => l
      | some u =>
        if u.sortColumns.isEmpty then
          (orderedBy s.schema refs u terms).foldl (fun l column => l.record id .sort column) l
        else l) l

end IndexAdvisor.Sort
