import IndexAdvisor.Settings.Json
import IndexAdvisor.Text.Numeral
import IndexAdvisor.Toml

/-!
# Where settings come from

Settings have three layers: the usual values, a settings file in TOML, and variables of the
environment, each of which sets one field. Variables that the environment does not have are taken
from a file of variables, if there is one; a variable that is empty there or in the environment
counts as set, but sets no field. A variable whose text does not fit its field sets nothing either.
Only a settings file that cannot be understood is an error.

Models `load_config`, `load_default_config`, `load_toml_config`, `load_env_config` and `apply_to`.
-/

namespace IndexAdvisor

/-- Texts under names: the files of a directory, or the variables of an environment. -/
abbrev Texts := List (String × String)

/-- A settings file that is not a plain document, or in which a value does not fit. -/
structure BadSettingsFile where
  file : String
  deriving DecidableEq, Repr

namespace Settings

/-- The name of the file of variables. -/
def variablesFile : String := ".env"

/-- The name of the settings file, unless a variable names another one. -/
def usualFile : String := "sqlite-index-mcp.toml"

/-- The variable that names the settings file. -/
def fileVariable : String := "MCP_CONFIG_FILE"

/-- A variable and its value, as a line of a file of variables has them. -/
def assignment? (line : List Char) : Option (String × String) :=
  let name := trimBlanks (line.takeWhile (· != '='))
  match line.dropWhile (· != '=') with
  | _ :: value =>
    if name.isEmpty || name.head? == some '#' then none
    else some (String.ofList name, String.ofList (trimBlanks value))
  | [] => none

/-- The variables in a file of variables. -/
def variablesIn (text : String) : Texts := (splitLines text.toList).filterMap assignment?

/-- An environment with the variables it does not have from the file of variables. The first value
of a variable counts. -/
def withFile (files env : Texts) : Texts :=
  env ++ ((files.lookup variablesFile).map variablesIn).getD []

/-- The text of a variable that is set and not empty. -/
def text? (env : Texts) (name : String) : Option String := (env.lookup name).filter (· != "")

/-- The number up to `max` that a variable holds. -/
def number? (max : Nat) (env : Texts) (name : String) : Option Nat :=
  (text? env name).bind (parseNat? max)

/-- The truth value that a text stands for, in any case. -/
def switchOf? (text : String) : Option Bool :=
  match lowerCase text with
  | "true" | "1" | "yes" => some true
  | "false" | "0" | "no" => some false
  | _ => none

/-- The truth value that a variable holds. -/
def switch? (env : Texts) (name : String) : Option Bool := (text? env name).bind switchOf?

/-- Settings with the fields that variables of an environment set. -/
def override (env : Texts) (s : Settings) : Settings where
  database := {
    path := (text? env "SQLITE_DB_PATH").getD s.database.path
    readOnly := (switch? env "SQLITE_READ_ONLY").getD s.database.readOnly
    createIfMissing := (switch? env "SQLITE_CREATE_IF_MISSING").getD s.database.createIfMissing }
  pool := {
    size := (number? maxWord32 env "SQLITE_POOL_SIZE").getD s.pool.size
    queryLimit := (number? maxWord64 env "SQLITE_QUERY_TIMEOUT").getD s.pool.queryLimit
    connectLimit := (number? maxWord64 env "SQLITE_CONNECT_TIMEOUT").getD s.pool.connectLimit
    schemaLifetime := (number? maxWord64 env "SQLITE_CACHE_TTL").getD s.pool.schemaLifetime
    maxRetries := (number? maxWord32 env "SQLITE_MAX_RETRIES").getD s.pool.maxRetries }
  advisor := {
    subselects := (switch? env "SQLITE_ANALYZE_SUBQUERIES").getD s.advisor.subselects
    suggestions := (switch? env "SQLITE_SUGGEST_COVERING").getD s.advisor.suggestions }
  log := { level := (text? env "SQLITE_LOG_LEVEL").getD s.log.level }

/-- The settings in a settings file; the usual ones if there is no such file. -/
def ofFile (files : Texts) (file : String) : Except BadSettingsFile Settings :=
  match files.lookup file with
  | none => .ok {}
  | some text =>
    match (Toml.parse? text).bind Settings.ofJson? with
    | some s => .ok s
    | none => .error ⟨file⟩

/-- The settings of a directory and an environment. -/
def load (files env : Texts) : Except BadSettingsFile Settings :=
  let env := withFile files env
  (ofFile files ((env.lookup fileVariable).getD usualFile)).map (override env)

end Settings

end IndexAdvisor
