import IndexAdvisor.Text.Ascii
import IndexAdvisor.Text.Blank
import IndexAdvisor.Text.Escaped

/-!
# Settings

What can be set, with what holds when nothing is set, and what makes settings unusable. The checks
run in a fixed order and the first one that fails is reported.

Models `Config` with `validate` and `is_in_memory`.
-/

namespace IndexAdvisor

/-- Where the database is and how it is opened. -/
structure DatabaseSettings where
  path : String := ""
  readOnly : Bool := true
  createIfMissing : Bool := false
  deriving DecidableEq, Repr

/-- The connections and their limits. -/
structure PoolSettings where
  size : Nat := 4
  /-- In milliseconds. -/
  queryLimit : Nat := 30000
  /-- In milliseconds. -/
  connectLimit : Nat := 10000
  /-- For how many seconds a schema is kept. -/
  schemaLifetime : Nat := 60
  maxRetries : Nat := 2
  deriving DecidableEq, Repr

/-- What is analysed and suggested. -/
structure AdvisorSettings where
  subselects : Bool := true
  suggestions : Bool := true
  deriving DecidableEq, Repr

/-- What is logged. -/
structure LogSettings where
  level : String := "info"
  deriving DecidableEq, Repr

/-- All settings. -/
structure Settings where
  database : DatabaseSettings := {}
  pool : PoolSettings := {}
  advisor : AdvisorSettings := {}
  log : LogSettings := {}
  deriving DecidableEq, Repr

/-- What can be wrong with settings. -/
inductive SettingsFault where
  | noPath
  | noConnections
  | tooManyConnections (size : Nat)
  | shortQueryLimit (limit : Nat)
  | shortConnectLimit (limit : Nat)
  | unknownLevel (level : String)
  deriving DecidableEq, Repr

namespace Settings

/-- The levels of logging. -/
def levels : List String := ["trace", "debug", "info", "warn", "error"]

/-- The largest number of connections. -/
def maxConnections : Nat := 64

/-- The shortest time limit in milliseconds. -/
def minLimit : Nat := 100

/-- The first thing that is wrong with settings, if anything is. -/
def fault? (s : Settings) : Option SettingsFault :=
  if allBlank s.database.path then some .noPath
  else if s.pool.size = 0 then some .noConnections
  else if maxConnections < s.pool.size then some (.tooManyConnections s.pool.size)
  else if s.pool.queryLimit < minLimit then some (.shortQueryLimit s.pool.queryLimit)
  else if s.pool.connectLimit < minLimit then some (.shortConnectLimit s.pool.connectLimit)
  else if lowerCase s.log.level ∉ levels then some (.unknownLevel s.log.level)
  else none

/-- Whether every connection would see a database of its own, in memory. -/
def isInMemory (s : Settings) : Bool :=
  let path := trim s.database.path
  path == ":memory:" || "file::memory:".isPrefixOf path

end Settings

/-- The message that goes with a fault. -/
def SettingsFault.message (fault : SettingsFault) : String :=
  "Config error: " ++ match fault with
    | noPath => "database.path / SQLITE_DB_PATH is not set"
    | noConnections => "SQLITE_POOL_SIZE cannot be 0 (got 0)"
    | tooManyConnections size =>
      "SQLITE_POOL_SIZE unreasonably large: " ++ toString size ++ " (max " ++
        toString Settings.maxConnections ++ ")"
    | shortQueryLimit limit => tooShort "SQLITE_QUERY_TIMEOUT" limit
    | shortConnectLimit limit => tooShort "SQLITE_CONNECT_TIMEOUT" limit
    | unknownLevel level =>
      "unknown log level " ++ quoteSetting level ++ " (expected one of " ++
        String.intercalate ", " Settings.levels ++ ")"
where
  /-- What is said of a time limit that is too short. -/
  tooShort (name : String) (limit : Nat) : String :=
    name ++ " must be at least " ++ toString Settings.minLimit ++ "ms (got " ++
      toString limit ++ "ms)"

end IndexAdvisor
