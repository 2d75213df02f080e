import IndexAdvisor.Analysis
import IndexAdvisor.Program.Json
import IndexAdvisor.Redaction
import IndexAdvisor.Settings.Basic
import IndexAdvisor.Statement.Basic
import IndexAdvisor.Tool.Basic
import IndexAdvisor.Usage.Json

/-!
# Calling a tool

A call checks its arguments before anything is explained: a statement must be there, must not be too
long, and must be one query. What the engine or the schema then has against the call is told with
paths and addresses taken out, because it may quote what the client must not see; complaints about
the arguments quote nothing but the first word of the statement.

Models `call_tool`, `check_sql_length`, `select_argument`, `handle_analyze_query`, `handle_explain`
and `handle_schema_info`.
-/

namespace IndexAdvisor

/-- What the tools work with. -/
structure Advisor where
  settings : Settings := {}
  schema : Except Causes Schema
  explain : Explain

/-- Why a tool has no answer. -/
inductive ToolError where
  | noStatement
  | tooLong (bytes : Nat)
  | unfit (reason : StatementError)
  | notSelect (tool : Tool) (kind : StatementKind)
  | unanalyzed (reason : AnalysisError)
  | unexplained (causes : Causes)
  | noTableName
  | noTableInfo (table reason : String)
  deriving DecidableEq, Repr

/-- The largest number of bytes in a statement. -/
def maxStatementBytes : Nat := 1000000

/-- The message that goes with an error, as a client sees it. -/
def ToolError.message : ToolError → String
  | noStatement => "Missing required argument: sql"
  | tooLong bytes =>
    "SQL too large: " ++ toString bytes ++ " bytes (max " ++ toString maxStatementBytes ++
      " bytes / 1 MB)"
  | unfit reason => "SQL parse error: " ++ reason.message
  | notSelect tool kind => tool.name ++ " only supports SELECT statements, got: " ++ kind.name
  | unanalyzed reason => Redaction.redact reason.message
  | unexplained causes => Redaction.redact ("EXPLAIN failed: " ++ causesText causes)
  | noTableName => Redaction.redact "Missing required parameter: table"
  | noTableInfo table reason =>
    Redaction.redact ("Schema info error for '" ++ table ++ "': " ++ reason)

namespace Tool

/-- The value of an argument; null if there is none. -/
def argument (arguments : Json) (name : String) : Json :=
  match arguments with
  | .object fields => (fields.lookup name).getD .null
  | _ => .null

/-- The statement that a tool is called with, if it is one query. -/
def statement (tool : Tool) (arguments : Json) : Except ToolError String := do
  let .string sql := argument arguments "sql" | throw .noStatement
  if allBlank sql then throw .noStatement
  if maxStatementBytes < sql.utf8ByteSize then throw (.tooLong sql.utf8ByteSize)
  match StatementKind.ofText sql with
  | .error reason => throw (.unfit reason)
  | .ok kind => if kind.isReadOnly then return sql else throw (.notSelect tool kind)

/-- The name of the table that a tool is called with. -/
def tableName (arguments : Json) : Except ToolError String :=
  match argument arguments "table" with
  | .string name => if name.isEmpty then .error .noTableName else .ok name
  | _ => .error .noTableName

end Tool

/-- The suggestions for some usages, each with the table it is for. -/
def suggestionsJson (usages : List Usage) : List Json :=
  usages.filterMap fun u => (Covering.suggestion? u).map fun statement =>
    .object [("table", .string u.name), ("create_index", .string statement)]

/-- A table and its indexes as they are told to a client. -/
def Schema.tableJson (s : Schema) (t : Table) : Json := .object [
  ("table", .string t.name), ("root_page", .ofNat t.rootPage), ("columns", .ofStrings t.columns),
  ("primary_key", .ofString? (s.primaryKeyOf? t.name)),
  ("indexes", .array ((s.indexesOf t.name).map fun i => .object [
    ("name", .string i.name), ("unique", .bool i.unique), ("columns", .ofStrings i.columns)]))]

namespace Advisor

/-- The usages of a statement. -/
def usages (a : Advisor) (sql : String) : Except AnalysisError (List Usage) :=
  match a.schema with
  | .error causes => .error (.noSchema causes)
  | .ok schema => (Analysis.ofStatement schema a.explain a.settings.advisor.subselects sql).1

/-- The usages of a statement, and suggestions if they are wanted and there are any. -/
def analyzeQuery (a : Advisor) (arguments : Json) : Except ToolError Json := do
  let sql ← Tool.analyzeQuery.statement arguments
  let wanted := (Tool.argument arguments "suggest_index").bool?.getD a.settings.advisor.suggestions
  let usages ← (a.usages sql).mapError .unanalyzed
  let suggestions := if wanted then suggestionsJson usages else []
  return .object (("units", .array (usages.map Usage.toJson)) ::
    if suggestions.isEmpty then [] else [("suggestions", .array suggestions)])

/-- The program of a statement. -/
def explainQuery (a : Advisor) (arguments : Json) : Except ToolError Json := do
  let sql ← Tool.explain.statement arguments
  let instrs ← (a.explain sql).mapError .unexplained
  return .object [("row_count", .ofNat instrs.length), ("rows", .array (instrs.map Instr.toJson)),
    ("note", .string "Bytecode only; the statement was not executed")]

/-- The columns and indexes of a table. Only the outermost cause is told if there is no schema. -/
def schemaInfo (a : Advisor) (arguments : Json) : Except ToolError Json := do
  let name ← Tool.tableName arguments
  let schema ← a.schema.mapError fun causes => .noTableInfo name (causes.headD "")
  match schema.table? name with
  | some t => return schema.tableJson t
  | none => throw (.noTableInfo name ("Table '" ++ name ++ "' not found"))

/-- What a tool answers when it is called with some arguments. -/
def call (a : Advisor) : Tool → Json → Except ToolError Json
  | .analyzeQuery => a.analyzeQuery
  | .explain => a.explainQuery
  | .schemaInfo => a.schemaInfo

/-- Why a call reaches no tool. -/
structure UnknownTool where
  name : String
  deriving DecidableEq, Repr

/-- The number of this error in the protocol by which tools are called: there is no such method. -/
def UnknownTool.code : Int := -32601

/-- The message that goes with an unknown name. -/
def UnknownTool.message (e : UnknownTool) : String := "Unknown tool: " ++ e.name

/-- What the tool of a name answers when it is called with some arguments. -/
def callNamed (a : Advisor) (name : String) (arguments : Json) :
    Except UnknownTool (Except ToolError Json) :=
  match Tool.ofName? name with
  | some tool => .ok (a.call tool arguments)
  | none => .error ⟨name⟩

end Advisor

end IndexAdvisor
