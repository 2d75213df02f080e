import IndexAdvisor.Ledger.Basic
import IndexAdvisor.Program.Instr
import IndexAdvisor.Program.Word

/-!
# Opening tables and indexes

An instruction that opens a root page leads to the entry of the table or index that owns the page.
An object that is opened again keeps its entry and takes the new cursor. An index brings its table
with it: a table that has not been opened itself stands under the negated cursor of the index until
it is.

Models `resolve_open_read` and `link_index_to_table`.
-/

namespace IndexAdvisor

namespace Ledger

/-- Makes sure that the table of the index at a place has an entry, makes it the owner and notes the
index as used. Nothing happens when the schema does not know the table. -/
def link (l : Ledger) (schema : Schema) (id : Nat) : Ledger × Option Nat :=
  match l.usage? id with
  | none => (l, none)
  | some u =>
    let attach (l : Ledger) (table : Nat) : Ledger × Option Nat :=
      ((l.setOwner id table).modify table (·.addIndex ⟨u.cursor, u.name⟩), some table)
    match l.find? u.table .table with
    | some table => attach l table
    | none =>
      match schema.rootPageOf? u.table with
      | none => (l, none)
      | some rootPage =>
        attach
          (l.add
            { cursor := wrap (-u.cursor), rootPage, kind := .table, name := u.table, table := "" })
          l.size

/-- Puts a schema object that is opened under a cursor into the ledger, or moves its entry to the
cursor, and links an index to its table. The place of the entry is returned. -/
def place (l : Ledger) (schema : Schema) (object : SchemaObject) (cursor : Int) : Ledger × Nat :=
  let placed := match l.find? object.name object.kind with
    | some id => (l.modify id fun u => { u with cursor }, id)
    | none =>
      (l.add { cursor, rootPage := object.rootPage, kind := object.kind, name := object.name,
               table := object.table }, l.size)
  match object.kind with
  | .table => placed
  | .index => ((placed.1.link schema placed.2).1, placed.2)

/-- The object an instruction opens, and the cursor it opens it under. -/
def opened? (schema : Schema) (i : Instr) : Option (SchemaObject × Int) := do
  let cursor ← i.n1
  let page ← i.n2
  if page < 0 then none
  let object ← schema.objectAt? page.toNat
  return (object, cursor)

/-- Follows an instruction that opens a root page. `none` when its operands name no known object. -/
def openObject (l : Ledger) (schema : Schema) (i : Instr) : Ledger × Option Nat :=
  match opened? schema i with
  | none => (l, none)
  | some (object, cursor) =>
    let placed := l.place schema object cursor
    (placed.1, some placed.2)

end Ledger

end IndexAdvisor
