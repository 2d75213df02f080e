import IndexAdvisor.Json.Record
import IndexAdvisor.Schema.Basic

/-!
# Schemas in JSON

A schema is a record of its tables and indexes, each of them a record too. Only the primary key of a
table may be null or left out.

Models the documents of `CatalogSnapshot`.
-/

namespace IndexAdvisor

/-- The fields of a table. -/
def Table.fields : List Json.Field := [
  .required "name", .required "root_page", .required "columns", .nullable "primary_key"]

/-- A table as a record. -/
def Table.toJson (t : Table) : Json := .object [
  ("name", .string t.name), ("root_page", .ofNat t.rootPage), ("columns", .ofStrings t.columns),
  ("primary_key", .ofString? t.primaryKey)]

/-- The table that a record stands for. -/
def Table.ofJson? (v : Json) : Option Table := do
  let [name, rootPage, columns, primaryKey] ← v.record? Table.fields | none
  return {
    name := ← name.string?
    rootPage := ← rootPage.nat64?
    columns := ← columns.list? Json.string?
    primaryKey := ← primaryKey.nullOr? Json.string? }

/-- The fields of an index. -/
def Index.fields : List Json.Field := [
  .required "name", .required "table", .required "root_page", .required "unique",
  .required "columns"]

/-- An index as a record. -/
def Index.toJson (i : Index) : Json := .object [
  ("name", .string i.name), ("table", .string i.table), ("root_page", .ofNat i.rootPage),
  ("unique", .bool i.unique), ("columns", .ofStrings i.columns)]

/-- The index that a record stands for. -/
def Index.ofJson? (v : Json) : Option Index := do
  let [name, table, rootPage, unique, columns] ← v.record? Index.fields | none
  return {
    name := ← name.string?
    table := ← table.string?
    rootPage := ← rootPage.nat64?
    unique := ← unique.bool?
    columns := ← columns.list? Json.string? }

/-- The fields of a schema. -/
def Schema.fields : List Json.Field := [.required "tables", .required "indexes"]

/-- A schema as a record. -/
def Schema.toJson (s : Schema) : Json := .object [
  ("tables", .array (s.tables.map Table.toJson)), ("indexes", .array (s.indexes.map Index.toJson))]

/-- The schema that a record stands for. -/
def Schema.ofJson? (v : Json) : Option Schema := do
  let [tables, indexes] ← v.record? Schema.fields | none
  return {
    tables := ← tables.list? Table.ofJson?
    indexes := ← indexes.list? Index.ofJson? }

/-- The name of a kind of object. -/
def ObjectKind.name : ObjectKind → String
  | .table => "Table"
  | .index => "Index"

/-- The kind of object of a name. -/
def ObjectKind.ofName? (name : String) : Option ObjectKind :=
  if name = "Table" then some .table else if name = "Index" then some .index else none

end IndexAdvisor
