import IndexAdvisor.Schema.Json
import IndexAdvisor.Usage.Basic

/-!
# Usages in JSON

A usage is a record of fourteen fields, none of which may be left out. Sets are arrays in the order
of the set; when they are read, repeats are dropped.

Models the documents of `AnalysisUnit`.
-/

namespace IndexAdvisor

/-- An index in use as a record. -/
def IndexUse.toJson (u : IndexUse) : Json :=
  .object [("cursor_no", .number u.cursor), ("index_name", .string u.index)]

/-- The index in use that a record stands for. -/
def IndexUse.ofJson? (v : Json) : Option IndexUse := do
  let [cursor, index] ← v.record? [.required "cursor_no", .required "index_name"] | none
  return { cursor := ← cursor.int64?, index := ← index.string? }

/-- A column found through an index as a record. -/
def IndexColumn.toJson (c : IndexColumn) : Json :=
  .object [("cursor_no", .number c.cursor), ("column", .string c.column)]

/-- The column found through an index that a record stands for. -/
def IndexColumn.ofJson? (v : Json) : Option IndexColumn := do
  let [cursor, column] ← v.record? [.required "cursor_no", .required "column"] | none
  return { cursor := ← cursor.int64?, column := ← column.string? }

/-- A set as an array. -/
def OrderedSet.toJson {α : Type} (write : α → Json) (s : OrderedSet α) : Json :=
  .array (s.toList.map write)

/-- The set of the items of an array. -/
def OrderedSet.ofJson? {α : Type} [DecidableEq α] (read : Json → Option α) (v : Json) :
    Option (OrderedSet α) :=
  (v.list? read).map OrderedSet.ofList

namespace Usage

/-- The fields of a usage. -/
def fields : List Json.Field := [
  .required "cursor_no", .required "root_page", .required "kind", .required "name",
  .required "owning_table_name", .required "used_indexes", .required "where_columns",
  .required "order_columns", .required "where_index_columns", .required "order_index_columns",
  .required "where_expressions", .required "merged_columns", .required "covering_index_name",
  .required "covering_index_columns"]

/-- A usage as the fields of a record. -/
def toFields (u : Usage) : List (String × Json) := [
  ("cursor_no", .number u.cursor),
  ("root_page", .ofNat u.rootPage),
  ("kind", .string u.kind.name),
  ("name", .string u.name),
  ("owning_table_name", .string u.table),
  ("used_indexes", u.indexes.toJson IndexUse.toJson),
  ("where_columns", u.filterColumns.toJson .string),
  ("order_columns", u.sortColumns.toJson .string),
  ("where_index_columns", u.filterIndexColumns.toJson IndexColumn.toJson),
  ("order_index_columns", u.sortIndexColumns.toJson IndexColumn.toJson),
  ("where_expressions", u.filters.toJson .string),
  ("merged_columns", u.columns.toJson .string),
  ("covering_index_name", .string u.coveringIndex),
  ("covering_index_columns", u.coveringColumns.toJson IndexColumn.toJson)]

/-- A usage as a record. -/
def toJson (u : Usage) : Json := .object u.toFields

/-- The usage that a record stands for. -/
def ofJson? (v : Json) : Option Usage := do
  let [cursor, rootPage, kind, name, table, indexes, filterColumns, sortColumns, filterIndexColumns,
    sortIndexColumns, filters, columns, coveringIndex, coveringColumns] ← v.record? fields | none
  return {
    cursor := ← cursor.int64?
    rootPage := ← rootPage.nat64?
    kind := ← kind.choice?.bind ObjectKind.ofName?
    name := ← name.string?
    table := ← table.string?
    indexes := ← OrderedSet.ofJson? IndexUse.ofJson? indexes
    filterColumns := ← OrderedSet.ofJson? Json.string? filterColumns
    sortColumns := ← OrderedSet.ofJson? Json.string? sortColumns
    filterIndexColumns := ← OrderedSet.ofJson? IndexColumn.ofJson? filterIndexColumns
    sortIndexColumns := ← OrderedSet.ofJson? IndexColumn.ofJson? sortIndexColumns
    filters := ← OrderedSet.ofJson? Json.string? filters
    columns := ← OrderedSet.ofJson? Json.string? columns
    coveringIndex := ← coveringIndex.string?
    coveringColumns := ← OrderedSet.ofJson? IndexColumn.ofJson? coveringColumns }

end Usage

end IndexAdvisor
