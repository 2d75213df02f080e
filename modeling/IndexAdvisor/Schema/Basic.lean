import IndexAdvisor.Text.Ascii

/-!
# The schema a program runs against

Tables and indexes in the order of their declaration. All lookups by name ignore ASCII case and take
the first match; a lookup that misses has an empty answer, never an error, because the advisor drops
what it cannot attribute and goes on.

Models `CatalogSnapshot`, `TableDef`, `IndexDef` and the lookups of `Catalog`.
-/

namespace IndexAdvisor

/-- What a root page belongs to. -/
inductive ObjectKind where
  | table | index
  deriving DecidableEq, Repr

/-- A table: its columns in declared order, and the column that holds its row number, if one
does. -/
structure Table where
  name : String
  rootPage : Nat
  columns : List String
  primaryKey : Option String := none
  deriving DecidableEq, Repr

/-- An index: the table it belongs to and the columns it is ordered by. -/
structure Index where
  name : String
  table : String
  rootPage : Nat
  unique : Bool := false
  columns : List String
  deriving DecidableEq, Repr

/-- The table or index that a root page belongs to. -/
structure SchemaObject where
  name : String
  kind : ObjectKind
  /-- The table of an index; empty for a table. -/
  table : String
  rootPage : Nat
  deriving DecidableEq, Repr

/-- The tables and indexes of a database. -/
structure Schema where
  tables : List Table := []
  indexes : List Index := []
  deriving DecidableEq, Repr

/-- The place of a column in a list of columns. -/
def columnPlace? (columns : List String) (column : String) : Option Nat :=
  columns.findIdx? (sameName · column)

/-- A column as a list of columns spells it. -/
def declared? (columns : List String) (column : String) : Option String :=
  columns.find? (sameName · column)

namespace Schema

/-- The schema with one more table. -/
def addTable (s : Schema) (t : Table) : Schema := { s with tables := s.tables ++ [t] }

/-- The schema with one more index. -/
def addIndex (s : Schema) (i : Index) : Schema := { s with indexes := s.indexes ++ [i] }

/-- The table of a name. -/
def table? (s : Schema) (name : String) : Option Table := s.tables.find? (sameName ·.name name)

/-- The index of a name. -/
def index? (s : Schema) (name : String) : Option Index := s.indexes.find? (sameName ·.name name)

/-- The indexes of a table, in declared order. -/
def indexesOf (s : Schema) (table : String) : List Index :=
  s.indexes.filter (sameName ·.table table)

/-- The object that owns a root page; of a table and an index on one page, the table. -/
def objectAt? (s : Schema) (rootPage : Nat) : Option SchemaObject :=
  match s.tables.find? (·.rootPage == rootPage) with
  | some t => some ⟨t.name, .table, "", rootPage⟩
  | none => (s.indexes.find? (·.rootPage == rootPage)).map fun i => ⟨i.name, .index,
    i.table, rootPage⟩

/-- The root page of a table. -/
def rootPageOf? (s : Schema) (table : String) : Option Nat := (s.table? table).map Table.rootPage

/-- The columns of a table. -/
def columnsOfTable (s : Schema) (table : String) : List String :=
  ((s.table? table).map Table.columns).getD []

/-- The columns of an index. -/
def columnsOfIndex (s : Schema) (index : String) : List String :=
  ((s.index? index).map Index.columns).getD []

/-- The names of the indexes of a table, in declared order. -/
def indexNamesOf (s : Schema) (table : String) : List String := (s.indexesOf table).map Index.name

/-- The column that holds a table's row number, as the table spells it. A key that is none of the
table's columns counts as absent. -/
def primaryKeyOf? (s : Schema) (table : String) : Option String := do
  let t ← s.table? table
  declared? t.columns (← t.primaryKey)

end Schema

end IndexAdvisor
