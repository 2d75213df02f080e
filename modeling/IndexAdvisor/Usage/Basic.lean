import IndexAdvisor.OrderedSet
import IndexAdvisor.Schema.Basic

/-!
# How a statement uses one table or index

A `Usage` collects what is found out about one table or index of a statement: the columns it is
filtered by and sorted by, the comparisons that could be reconstructed, the indexes used on the way,
and whether some index covers it all. Findings that came through an index carry the cursor of that
index.

Models `AnalysisUnit`, `IndexRef`, `IndexColumn` and `merge_columns`.
-/

namespace IndexAdvisor

/-- An index seen in use, with the cursor it was opened under. -/
structure IndexUse where
  cursor : Int
  index : String
  deriving DecidableEq, Repr

/-- A column found through the cursor of an index. -/
structure IndexColumn where
  cursor : Int
  column : String
  deriving DecidableEq, Repr

/-- The part of a statement that a column is used in. -/
inductive Clause where
  | filter | sort
  deriving DecidableEq, Repr

/-- What is known about the use of one table or index. -/
structure Usage where
  cursor : Int
  rootPage : Nat
  kind : ObjectKind
  name : String
  /-- The table of an index; empty for a table. -/
  table : String
  indexes : OrderedSet IndexUse := .empty
  filterColumns : OrderedSet String := .empty
  sortColumns : OrderedSet String := .empty
  filterIndexColumns : OrderedSet IndexColumn := .empty
  sortIndexColumns : OrderedSet IndexColumn := .empty
  filters : OrderedSet String := .empty
  columns : OrderedSet String := .empty
  coveringIndex : String := ""
  coveringColumns : OrderedSet IndexColumn := .empty
  deriving DecidableEq

namespace Usage

/-- Whether the usage is that of an index. -/
def isIndex (u : Usage) : Bool := u.kind == .index

/-- Whether the usage is that of the object with the given name and kind. -/
def isOf (u : Usage) (name : String) (kind : ObjectKind) : Bool :=
  u.kind == kind && sameName u.name name

/-- The table whose rows are read: the table itself, or the table of the index. -/
def rowTable (u : Usage) : String := if u.isIndex then u.table else u.name

/-- The usage with no findings but the same identity. -/
def bare (u : Usage) : Usage :=
  { cursor := u.cursor, rootPage := u.rootPage, kind := u.kind, name := u.name, table := u.table }

/-- Adds a column to a clause, and under the cursor of an index if it came through one. -/
def addColumn (u : Usage) (clause : Clause) (column : String) (through : Option Int) : Usage :=
  match clause with
  | .filter => { u with
      filterColumns := u.filterColumns.insert column
      filterIndexColumns := match through with
        | some cursor => u.filterIndexColumns.insert ⟨cursor, column⟩
        | none => u.filterIndexColumns }
  | .sort => { u with
      sortColumns := u.sortColumns.insert column
      sortIndexColumns := match through with
        | some cursor => u.sortIndexColumns.insert ⟨cursor, column⟩
        | none => u.sortIndexColumns }

/-- Adds a reconstructed comparison. -/
def addFilter (u : Usage) (text : String) : Usage := { u with filters := u.filters.insert text }

/-- Adds an index seen in use. -/
def addIndex (u : Usage) (use : IndexUse) : Usage := { u with indexes := u.indexes.insert use }

/-- Sets `columns` to the columns filtered by, followed by the columns sorted by. -/
def joinColumns (u : Usage) : Usage :=
  { u with columns := OrderedSet.ofList (u.filterColumns.toList ++ u.sortColumns.toList) }

/-- The columns of a stored entry by position: those of the table, or those of the index followed by
the row number of its table. -/
def entryColumns (u : Usage) (schema : Schema) : List String :=
  if u.isIndex then schema.columnsOfIndex u.name ++ (schema.primaryKeyOf? u.table).toList
  else schema.columnsOfTable u.name

/-- The columns the usage is ordered by when it is read in stored order. -/
def orderedColumns (u : Usage) (schema : Schema) : List String :=
  if u.isIndex then schema.columnsOfIndex u.name else schema.columnsOfTable u.name

/-- The column at a position of a stored entry. -/
def columnAt? (u : Usage) (schema : Schema) (position : Int) : Option String :=
  if position < 0 then none else (u.entryColumns schema)[position.toNat]?

/-- The column that holds the row number. -/
def rowidColumn? (u : Usage) (schema : Schema) : Option String := schema.primaryKeyOf? u.rowTable

end Usage

end IndexAdvisor
