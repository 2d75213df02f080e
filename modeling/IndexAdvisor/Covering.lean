import IndexAdvisor.Ledger.Basic
import IndexAdvisor.Text.Quoted

/-!
# Covering indexes

An index covers the use of a table when its columns are exactly the columns filtered by followed by
the columns sorted by, in this order. Indexes already in use are tried first, then all indexes of
the table. For a table with such columns and no such index, an index that would cover them can be
suggested.

Models `covers`, `match_covering`, `apply` and `suggest_index_ddl`.
-/

namespace IndexAdvisor

/-- The name of an index and its columns. -/
structure IndexShape where
  name : String
  columns : List String
  deriving DecidableEq, Repr

namespace Covering

/-- Whether two lists of columns are the same, column by column. -/
def covers (wanted columns : List String) : Bool :=
  wanted.length == columns.length && (wanted.zip columns).all fun c => sameName c.1 c.2

/-- The indexes in use that are among the given ones, in order of use. -/
def shapesInUse (u : Usage) (shapes : List IndexShape) : List IndexShape :=
  u.indexes.toList.filterMap fun use => shapes.find? (sameName ·.name use.index)

/-- The first index that covers a usage. -/
def covering? (u : Usage) (shapes : List IndexShape) : Option IndexShape :=
  if u.columns.isEmpty then none
  else (shapesInUse u shapes ++ shapes).find? fun shape => covers u.columns.toList shape.columns

/-- The indexes of a table with their columns. -/
def shapesOf (schema : Schema) (table : String) : List IndexShape :=
  (schema.indexNamesOf table).map fun name => ⟨name, schema.columnsOfIndex name⟩

/-- The cursor that an index is used under; the cursor of the table where it is not in use. -/
def cursorFor (u : Usage) (index : String) : Int :=
  ((u.indexes.toList.find? (sameName ·.index index)).map IndexUse.cursor).getD u.cursor

/-- A usage with its columns joined and, for a table, with the index that covers them. -/
def judge (schema : Schema) (u : Usage) : Usage :=
  let u := u.joinColumns
  if u.isIndex then u
  else match covering? u (shapesOf schema u.name) with
    | none => u
    | some shape =>
      { u with
        coveringIndex := shape.name
        coveringColumns := OrderedSet.ofList (shape.columns.map (⟨cursorFor u shape.name, ·⟩)) }

/-- The name of the suggested index for a table and its columns. -/
def suggestedName (table : String) (columns : List String) : String :=
  "idx_" ++ table ++ "_" ++ String.intercalate "_" columns

/-- The statement that creates an index on columns of a table. -/
def createIndex (table : String) (columns : List String) : String :=
  "CREATE INDEX " ++ quoteName (suggestedName table columns) ++ " ON " ++ quoteName table ++ " (" ++
    String.intercalate ", " (columns.map quoteName) ++ ")"

/-- The statement that creates a covering index for a table that has columns to cover and no index
that does. -/
def suggestion? (u : Usage) : Option String :=
  if u.isIndex || !u.coveringIndex.isEmpty || u.columns.isEmpty then none
  else some (createIndex u.name u.columns.toList)

end Covering

namespace Ledger

/-- Judges every usage of the ledger. -/
def judge (l : Ledger) (schema : Schema) : Ledger := l.mapUsages (Covering.judge schema)

end Ledger

end IndexAdvisor
