import IndexAdvisor.Json.Record
import IndexAdvisor.Settings.Basic

/-!
# Settings in JSON

Settings are a record of four sections, each of them a record too. Every section and every field may
be left out and has its usual value then; none of them may be null.

Models the documents of `Config`.
-/

namespace IndexAdvisor

/-- The database section as a record. -/
def DatabaseSettings.toJson (s : DatabaseSettings) : Json := .object [
  ("path", .string s.path), ("read_only", .bool s.readOnly),
  ("create_if_missing", .bool s.createIfMissing)]

/-- The pool section as a record. -/
def PoolSettings.toJson (s : PoolSettings) : Json := .object [
  ("size", .ofNat s.size), ("query_timeout_ms", .ofNat s.queryLimit),
  ("connect_timeout_ms", .ofNat s.connectLimit), ("cache_ttl_secs", .ofNat s.schemaLifetime),
  ("max_retries", .ofNat s.maxRetries)]

/-- The section of the advisor as a record. -/
def AdvisorSettings.toJson (s : AdvisorSettings) : Json := .object [
  ("analyze_subqueries", .bool s.subselects), ("suggest_covering", .bool s.suggestions)]

/-- The section of the log as a record. -/
def LogSettings.toJson (s : LogSettings) : Json := .object [("log_level", .string s.level)]

/-- Settings as a record. -/
def Settings.toJson (s : Settings) : Json := .object [
  ("database", s.database.toJson), ("pool", s.pool.toJson), ("analyzer", s.advisor.toJson),
  ("monitoring", s.log.toJson)]

/-- The fields of a record that all have the values of a given one when they are left out. -/
def Json.fieldsOf : Json → List Json.Field
  | .object fields => fields.map fun field => .defaulted field.1 field.2
  | _ => []

/-- The database section that a record stands for. -/
def DatabaseSettings.ofJson? (v : Json) : Option DatabaseSettings := do
  let [path, readOnly, createIfMissing] ← v.record? (toJson {}).fieldsOf | none
  return {
    path := ← path.string?
    readOnly := ← readOnly.bool?
    createIfMissing := ← createIfMissing.bool? }

/-- The pool section that a record stands for. -/
def PoolSettings.ofJson? (v : Json) : Option PoolSettings := do
  let [size, queryLimit, connectLimit, schemaLifetime,
      maxRetries] ← v.record? (toJson {}).fieldsOf | none
  return {
    size := ← size.nat32?
    queryLimit := ← queryLimit.nat64?
    connectLimit := ← connectLimit.nat64?
    schemaLifetime := ← schemaLifetime.nat64?
    maxRetries := ← maxRetries.nat32? }

/-- The section of the advisor that a record stands for. -/
def AdvisorSettings.ofJson? (v : Json) : Option AdvisorSettings := do
  let [subselects, suggestions] ← v.record? (toJson {}).fieldsOf | none
  return { subselects := ← subselects.bool?, suggestions := ← suggestions.bool? }

/-- The section of the log that a record stands for. -/
def LogSettings.ofJson? (v : Json) : Option LogSettings := do
  let [level] ← v.record? (toJson {}).fieldsOf | none
  return { level := ← level.string? }

/-- The settings that a record stands for. -/
def Settings.ofJson? (v : Json) : Option Settings := do
  let [database, pool, advisor, log] ← v.record? (toJson {}).fieldsOf | none
  return {
    database := ← DatabaseSettings.ofJson? database
    pool := ← PoolSettings.ofJson? pool
    advisor := ← AdvisorSettings.ofJson? advisor
    log := ← LogSettings.ofJson? log }

end IndexAdvisor
