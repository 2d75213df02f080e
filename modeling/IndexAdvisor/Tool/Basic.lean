import IndexAdvisor.Json.Basic

/-!
# Tools

What the advisor offers to a client: three tools, each with a name, a description and the form of
its arguments, and what the service says of itself.

Models `get_info`, `list_tools` and the forms of `sqlite_analyze_query`, `sqlite_explain` and
`sqlite_schema_info`.
-/

namespace IndexAdvisor

/-- What a client can ask for. -/
inductive Tool where
  /-- The usages of a statement, and the indexes that would cover them. -/
  | analyzeQuery
  /-- The program of a statement. -/
  | explain
  /-- The columns and indexes of a table. -/
  | schemaInfo
  deriving DecidableEq, Repr

/-- An argument of a tool. -/
structure Argument where
  name : String
  /-- The kind of its value, as a JSON schema names it. -/
  kind : String
  description : String
  required : Bool := false
  deriving DecidableEq, Repr

namespace Tool

/-- All tools, in the order in which they are listed. -/
def all : List Tool := [analyzeQuery, explain, schemaInfo]

/-- The name of a tool. -/
def name : Tool → String
  | analyzeQuery => "sqlite_analyze_query"
  | explain => "sqlite_explain"
  | schemaInfo => "sqlite_schema_info"

/-- The tool of a name. -/
def ofName? (name : String) : Option Tool := all.find? (·.name == name)

/-- What a client is told of a tool. -/
def description : Tool → String
  | analyzeQuery =>
    "Analyze a SELECT without running it. " ++
    "Returns one unit per table or index the plan touches: where_columns, order_columns, " ++
    "where_expressions (reconstructed comparisons), used_indexes, and covering_index_name " ++
    "(empty when no index covers the filter+sort columns in order). " ++
    "Optional: suggestions (CREATE INDEX statements for tables without a covering index)."
  | explain => "Return the raw EXPLAIN opcode trace of a SELECT: addr, opcode, p1..p5, comment."
  | schemaInfo =>
    "Get columns, primary key, root page and indexes (with ordered columns) of a table. " ++
    "Pass refresh:true after schema changes."

/-- The arguments of a tool. -/
def arguments : Tool → List Argument
  | analyzeQuery => [
      ⟨"sql", "string",
        "The SELECT statement to analyze. It is compiled with EXPLAIN, never executed.", true⟩,
      ⟨"suggest_index", "boolean",
        "Include a CREATE INDEX suggestion for each table with filter/sort columns but no " ++
        "covering index (default: server setting, normally true).", false⟩]
  | explain => [⟨"sql", "string", "The SELECT statement to explain", true⟩]
  | schemaInfo => [
      ⟨"table", "string", "Table name (case-insensitive)", true⟩,
      ⟨"refresh", "boolean", "Drop the cached schema snapshot before reading (default: false)",
        false⟩]

/-- The form of the arguments of a tool, as a JSON schema. -/
def inputSchema (tool : Tool) : Json := .object [
  ("type", .string "object"),
  ("properties", .object (tool.arguments.map fun a =>
    (a.name, .object [("type", .string a.kind), ("description", .string a.description)]))),
  ("required", .ofStrings ((tool.arguments.filter Argument.required).map Argument.name))]

/-- A tool as it is listed. -/
def toJson (tool : Tool) : Json := .object [
  ("name", .string tool.name), ("description", .string tool.description),
  ("inputSchema", tool.inputSchema)]

end Tool

/-- What a service says of itself. -/
structure Service where
  name : String
  title : String
  version : String
  description : String
  /-- What a client should use it for. -/
  instructions : String
  deriving DecidableEq, Repr

/-- The advisor as a service. -/
def advisorService : Service where
  name := "sqlite-index-mcp"
  title := "SQLite Index Advisor"
  version := "0.1.0"
  description :=
    "Reads SQLite EXPLAIN bytecode to report per-table filter/sort columns and covering indexes"
  instructions :=
    "Use sqlite_analyze_query to see which columns a SELECT filters and sorts on, per table and " ++
    "index, and whether an index covers them."

end IndexAdvisor
