import IndexAdvisor.Proofs.Json.Record
import IndexAdvisor.Settings.Layers

/-!
# Settings, one by one

Every setting has a variable of its own, and a key of its own in a section of the settings file.
Seen from one setting, the layers are simple: the variable counts if it holds a text that stands for
a value, otherwise the file counts if it has the key, and otherwise the usual value holds
(`Setting.layered?`).

> `load_per_setting`: this is what loading comes to for each setting, and a variable has no part in
> any other setting.

The reader of the settings file is a parameter of `loadWith`, as nothing here depends on how a
document is written.
-/

namespace IndexAdvisor

/-- The kinds of value that a setting may have. -/
inductive SettingKind where
  | text
  | switch
  | number (max : Nat)

namespace SettingKind

/-- The values of a kind. -/
def Value : SettingKind → Type
  | text => String
  | switch => Bool
  | number _ => Nat

/-- The value that the text of a variable stands for. -/
def ofText? : (kind : SettingKind) → String → Option kind.Value
  | text, s => some s
  | switch, s => Settings.switchOf? s
  | number max, s => parseNat? max s

/-- The value that is written in a settings file. -/
def ofJson? : (kind : SettingKind) → Json → Option kind.Value
  | text, v => v.string?
  | switch, v => v.bool?
  | number max, v => v.nat? max

/-- A value as a settings file writes it. -/
def toJson : (kind : SettingKind) → kind.Value → Json
  | text, s => .string s
  | switch, b => .bool b
  | number _, n => .ofNat n

end SettingKind

/-- What can be set. -/
inductive Setting where
  | path | readOnly | createIfMissing
  | size | queryLimit | connectLimit | schemaLifetime | maxRetries
  | subselects | suggestions
  | level
  deriving DecidableEq

namespace Setting

/-- The kind of value that a setting has. -/
def kind : Setting → SettingKind
  | path | level => .text
  | readOnly | createIfMissing | subselects | suggestions => .switch
  | size | maxRetries => .number maxWord32
  | queryLimit | connectLimit | schemaLifetime => .number maxWord64

/-- The name of the variable of a setting. -/
def variableName : Setting → String
  | path => "SQLITE_DB_PATH"
  | readOnly => "SQLITE_READ_ONLY"
  | createIfMissing => "SQLITE_CREATE_IF_MISSING"
  | size => "SQLITE_POOL_SIZE"
  | queryLimit => "SQLITE_QUERY_TIMEOUT"
  | connectLimit => "SQLITE_CONNECT_TIMEOUT"
  | schemaLifetime => "SQLITE_CACHE_TTL"
  | maxRetries => "SQLITE_MAX_RETRIES"
  | subselects => "SQLITE_ANALYZE_SUBQUERIES"
  | suggestions => "SQLITE_SUGGEST_COVERING"
  | level => "SQLITE_LOG_LEVEL"

/-- The place and the name of the section of a setting. -/
def group : Setting → Nat × String
  | path | readOnly | createIfMissing => (0, "database")
  | size | queryLimit | connectLimit | schemaLifetime | maxRetries => (1, "pool")
  | subselects | suggestions => (2, "analyzer")
  | level => (3, "monitoring")

/-- The place and the name of a setting in its section. -/
def key : Setting → Nat × String
  | path => (0, "path")
  | readOnly => (1, "read_only")
  | createIfMissing => (2, "create_if_missing")
  | size => (0, "size")
  | queryLimit => (1, "query_timeout_ms")
  | connectLimit => (2, "connect_timeout_ms")
  | schemaLifetime => (3, "cache_ttl_secs")
  | maxRetries => (4, "max_retries")
  | subselects => (0, "analyze_subqueries")
  | suggestions => (1, "suggest_covering")
  | level => (0, "log_level")

/-- What the document of a settings file says about a setting. -/
def inDocument? (f : Setting) (document : Json) : Option Json :=
  (document.part? f.group.1 f.group.2).bind (Json.part? f.key.1 f.key.2)

/-- The value of a setting. -/
def get : (f : Setting) → Settings → f.kind.Value
  | path, s => s.database.path
  | readOnly, s => s.database.readOnly
  | createIfMissing, s => s.database.createIfMissing
  | size, s => s.pool.size
  | queryLimit, s => s.pool.queryLimit
  | connectLimit, s => s.pool.connectLimit
  | schemaLifetime, s => s.pool.schemaLifetime
  | maxRetries, s => s.pool.maxRetries
  | subselects, s => s.advisor.subselects
  | suggestions, s => s.advisor.suggestions
  | level, s => s.log.level

end Setting

namespace Settings

/-! ## The layers -/

/-- The text of a variable: that of the environment, or that of the file of variables if the
environment does not have the variable. -/
def effective? (files env : Texts) (name : String) : Option String :=
  (env.lookup name).or ((((files.lookup variablesFile).map variablesIn).getD []).lookup name)

/-- The settings file of a directory and an environment. -/
def settingsFile (files env : Texts) : String := (effective? files env fileVariable).getD usualFile

/-- The settings in a settings file whose document is read by `toml`. -/
def ofFileWith (toml : String → Option Json) (files : Texts) (file : String) :
    Except BadSettingsFile Settings :=
  match files.lookup file with
  | none => .ok {}
  | some text =>
    match (toml text).bind Settings.ofJson? with
    | some s => .ok s
    | none => .error ⟨file⟩

/-- The settings of a directory and an environment, where `toml` reads the document of a settings
file. -/
def loadWith (toml : String → Option Json) (files env : Texts) : Except BadSettingsFile Settings :=
  (ofFileWith toml files (settingsFile files env)).map (override (withFile files env))

theorem lookup_withFile (files env : Texts) (name : String) :
    (withFile files env).lookup name = effective? files env name := by
  rw [withFile, effective?]
  exact List.lookup_append ..

theorem load_eq_loadWith (files env : Texts) : load files env = loadWith Toml.parse? files env := by
  rw [load, loadWith, settingsFile, ← lookup_withFile]
  rfl

end Settings

namespace Setting

/-- The value that the variable of a setting stands for. -/
def fromVariable? (files env : Texts) (f : Setting) : Option f.kind.Value :=
  ((Settings.effective? files env f.variableName).filter (· != "")).bind f.kind.ofText?

/-- What the settings file says about a setting. -/
def inFile? (toml : String → Option Json) (files env : Texts) (f : Setting) : Option Json :=
  ((files.lookup (Settings.settingsFile files env)).bind toml).bind f.inDocument?

/-- The value of a setting by its layers: that of the variable, that of the settings file, and the
usual one. What is written in the file has no value if it does not fit. -/
def layered? (toml : String → Option Json) (files env : Texts) (f : Setting) :
    Option f.kind.Value :=
  match f.fromVariable? files env with
  | some value => some value
  | none =>
    match f.inFile? toml files env with
    | some written => f.kind.ofJson? written
    | none => some (f.get {})

/-- A variable sets its own setting and no other. -/
theorem get_override (files env : Texts) (s : Settings) (f : Setting) :
    f.get (Settings.override (Settings.withFile files env) s) =
      (f.fromVariable? files env).getD (f.get s) := by
  have htext (name : String) : (Settings.effective? files env name).filter (· != "") =
      Settings.text? (Settings.withFile files env) name := by
    rw [Settings.text?, Settings.lookup_withFile]
  rw [fromVariable?, htext]
  cases f with
  -- a text stands for itself
  | path => exact congrArg (Option.getD · s.database.path) (Option.bind_fun_some _).symm
  | level => exact congrArg (Option.getD · s.log.level) (Option.bind_fun_some _).symm
  | _ => rfl

end Setting

/-! ## The settings file -/

section Document

variable {v : Json} {values : List Json}

/-- The values of a record all of whose fields may be left out. -/
theorem Json.record?_fieldsOf {usual : List (String × Json)}
    (h : v.record? (object usual).fieldsOf = some values) :
    values = usual.zipIdx.map fun entry => (v.part? entry.2 entry.1.1).getD entry.1.2 := by
  apply List.ext_getElem?
  intro place
  rw [List.getElem?_map, List.getElem?_zipIdx, Nat.zero_add]
  rcases hplace : usual[place]? with _ | field
  · have hlength : values.length = usual.length := (length_record? h).trans (List.length_map ..)
    rw [List.getElem?_eq_none_iff] at hplace
    exact List.getElem?_eq_none (hlength ▸ hplace)
  · refine record?_defaulted h ?_
    rw [fieldsOf, List.getElem?_map, hplace]
    rfl

theorem DatabaseSettings.of_ofJson? {s : DatabaseSettings} (h : ofJson? v = some s) :
    ((v.part? 0 "path").getD (.string "")).string? = some s.path ∧
      ((v.part? 1 "read_only").getD (.bool true)).bool? = some s.readOnly ∧
      ((v.part? 2 "create_if_missing").getD (.bool false)).bool? = some s.createIfMissing := by
  obtain ⟨values, hrecord, h⟩ := Option.bind_eq_some_iff.1 h
  obtain rfl := Json.record?_fieldsOf hrecord
  obtain ⟨path, hpath, h⟩ := Option.bind_eq_some_iff.1 h
  obtain ⟨readOnly, hreadOnly, h⟩ := Option.bind_eq_some_iff.1 h
  obtain ⟨createIfMissing, hcreateIfMissing, h⟩ := Option.bind_eq_some_iff.1 h
  obtain rfl := Option.some.inj h
  exact ⟨hpath, hreadOnly, hcreateIfMissing⟩

theorem PoolSettings.of_ofJson? {s : PoolSettings} (h : ofJson? v = some s) :
    ((v.part? 0 "size").getD (.ofNat 4)).nat32? = some s.size ∧
      ((v.part? 1 "query_timeout_ms").getD (.ofNat 30000)).nat64? = some s.queryLimit ∧
      ((v.part? 2 "connect_timeout_ms").getD (.ofNat 10000)).nat64? = some s.connectLimit ∧
      ((v.part? 3 "cache_ttl_secs").getD (.ofNat 60)).nat64? = some s.schemaLifetime ∧
      ((v.part? 4 "max_retries").getD (.ofNat 2)).nat32? = some s.maxRetries := by
  obtain ⟨values, hrecord, h⟩ := Option.bind_eq_some_iff.1 h
  obtain rfl := Json.record?_fieldsOf hrecord
  obtain ⟨size, hsize, h⟩ := Option.bind_eq_some_iff.1 h
  obtain ⟨queryLimit, hqueryLimit, h⟩ := Option.bind_eq_some_iff.1 h
  obtain ⟨connectLimit, hconnectLimit, h⟩ := Option.bind_eq_some_iff.1 h
  obtain ⟨schemaLifetime, hschemaLifetime, h⟩ := Option.bind_eq_some_iff.1 h
  obtain ⟨maxRetries, hmaxRetries, h⟩ := Option.bind_eq_some_iff.1 h
  obtain rfl := Option.some.inj h
  exact ⟨hsize, hqueryLimit, hconnectLimit, hschemaLifetime, hmaxRetries⟩

theorem AdvisorSettings.of_ofJson? {s : AdvisorSettings} (h : ofJson? v = some s) :
    ((v.part? 0 "analyze_subqueries").getD (.bool true)).bool? = some s.subselects ∧
      ((v.part? 1 "suggest_covering").getD (.bool true)).bool? = some s.suggestions := by
  obtain ⟨values, hrecord, h⟩ := Option.bind_eq_some_iff.1 h
  obtain rfl := Json.record?_fieldsOf hrecord
  obtain ⟨subselects, hsubselects, h⟩ := Option.bind_eq_some_iff.1 h
  obtain ⟨suggestions, hsuggestions, h⟩ := Option.bind_eq_some_iff.1 h
  obtain rfl := Option.some.inj h
  exact ⟨hsubselects, hsuggestions⟩

theorem LogSettings.of_ofJson? {s : LogSettings} (h : ofJson? v = some s) :
    ((v.part? 0 "log_level").getD (.string "info")).string? = some s.level := by
  obtain ⟨values, hrecord, h⟩ := Option.bind_eq_some_iff.1 h
  obtain rfl := Json.record?_fieldsOf hrecord
  obtain ⟨level, hlevel, h⟩ := Option.bind_eq_some_iff.1 h
  obtain rfl := Option.some.inj h
  exact hlevel

theorem Settings.of_ofJson? {s : Settings} (h : ofJson? v = some s) :
    DatabaseSettings.ofJson? ((v.part? 0 "database").getD (DatabaseSettings.toJson {})) =
      some s.database ∧
      PoolSettings.ofJson? ((v.part? 1 "pool").getD (PoolSettings.toJson {})) = some s.pool ∧
      AdvisorSettings.ofJson? ((v.part? 2 "analyzer").getD (AdvisorSettings.toJson {})) =
        some s.advisor ∧
      LogSettings.ofJson? ((v.part? 3 "monitoring").getD (LogSettings.toJson {})) = some s.log := by
  obtain ⟨values, hrecord, h⟩ := Option.bind_eq_some_iff.1 h
  obtain rfl := Json.record?_fieldsOf hrecord
  obtain ⟨database, hdatabase, h⟩ := Option.bind_eq_some_iff.1 h
  obtain ⟨pool, hpool, h⟩ := Option.bind_eq_some_iff.1 h
  obtain ⟨advisor, hadvisor, h⟩ := Option.bind_eq_some_iff.1 h
  obtain ⟨log, hlog, h⟩ := Option.bind_eq_some_iff.1 h
  obtain rfl := Option.some.inj h
  exact ⟨hdatabase, hpool, hadvisor, hlog⟩

/-- A section that is left out says the usual. -/
theorem part?_getD {found : Option Json} {usualSection usual : Json} {place : Nat} {name : String}
    (h : usualSection.part? place name = some usual) :
    ((found.getD usualSection).part? place name).getD usual =
      (found.bind (Json.part? place name)).getD usual := by
  rcases found with _ | v
  · rw [Option.getD_none, h]
    rfl
  · rfl

/-- The settings of a document have the values that are written there, and the usual ones else. -/
theorem Setting.ofJson?_get {s : Settings} (h : Settings.ofJson? v = some s) (f : Setting) :
    f.kind.ofJson? ((f.inDocument? v).getD (f.kind.toJson (f.get {}))) = some (f.get s) := by
  obtain ⟨hdatabase, hpool, hadvisor, hlog⟩ := Settings.of_ofJson? h
  obtain ⟨hpath, hreadOnly, hcreateIfMissing⟩ := DatabaseSettings.of_ofJson? hdatabase
  obtain ⟨hsize, hqueryLimit, hconnectLimit, hschemaLifetime, hmaxRetries⟩ :=
    PoolSettings.of_ofJson? hpool
  obtain ⟨hsubselects, hsuggestions⟩ := AdvisorSettings.of_ofJson? hadvisor
  have hlevel := LogSettings.of_ofJson? hlog
  rw [part?_getD rfl] at hpath hreadOnly hcreateIfMissing
  rw [part?_getD rfl] at hsize hqueryLimit hconnectLimit hschemaLifetime hmaxRetries
  rw [part?_getD rfl] at hsubselects hsuggestions hlevel
  cases f with
  | path => exact hpath
  | readOnly => exact hreadOnly
  | createIfMissing => exact hcreateIfMissing
  | size => exact hsize
  | queryLimit => exact hqueryLimit
  | connectLimit => exact hconnectLimit
  | schemaLifetime => exact hschemaLifetime
  | maxRetries => exact hmaxRetries
  | subselects => exact hsubselects
  | suggestions => exact hsuggestions
  | level => exact hlevel

end Document

namespace Settings

/-! ## All layers -/

variable {toml : String → Option Json} {files env files' env' : Texts} {s : Settings}

/-- The usual value of a setting may also be written in a settings file. -/
theorem ofJson?_usual (f : Setting) :
    f.kind.ofJson? (f.kind.toJson (f.get {})) = some (f.get {}) := by
  cases f <;> rfl

/-- A settings file gives a setting the value that is written there, and the usual one if none
is. -/
theorem get_of_ofFileWith {file : String} (h : ofFileWith toml files file = .ok s) (f : Setting) :
    (match ((files.lookup file).bind toml).bind f.inDocument? with
      | some written => f.kind.ofJson? written
      | none => some (f.get {})) = some (f.get s) := by
  rw [ofFileWith] at h
  rcases hfile : files.lookup file with _ | text
  · rw [hfile] at h
    obtain rfl := Except.ok.inj h
    rfl
  · rw [hfile] at h
    dsimp only at h
    split at h
    · next s' hread =>
      obtain rfl := Except.ok.inj h
      obtain ⟨document, hdocument, hread⟩ := Option.bind_eq_some_iff.1 hread
      have hget := Setting.ofJson?_get hread f
      rw [Option.bind_some, hdocument, Option.bind_some]
      rcases hwritten : f.inDocument? document with _ | written
      · rw [hwritten] at hget
        exact (ofJson?_usual f).symm.trans hget
      · rw [hwritten] at hget
        exact hget
    · cases h

/-- Where loading succeeds, the layers of every setting have a value, and this is the value that is
loaded. -/
theorem layered?_of_loadWith (h : loadWith toml files env = .ok s) (f : Setting) :
    f.layered? toml files env = some (f.get s) := by
  rw [loadWith] at h
  rcases hbase : ofFileWith toml files (settingsFile files env) with _ | base
  · rw [hbase] at h
    cases h
  · rw [hbase] at h
    obtain rfl := Except.ok.inj h
    rw [Setting.layered?, Setting.get_override]
    rcases f.fromVariable? files env with _ | value
    · exact get_of_ofFileWith hbase f
    · rfl

theorem variableName_injective {f g : Setting} (h : f.variableName = g.variableName) : f = g := by
  cases f <;> cases g <;> first | rfl | exact absurd h (by decide)

theorem variableName_ne_fileVariable (f : Setting) : fileVariable ≠ f.variableName := by
  cases f <;> decide

/-- Changing one variable leaves all settings but its own as they are, and whether loading
succeeds. -/
theorem loadWith_of_one_variable (f : Setting)
    (hothers : ∀ name, name ≠ f.variableName →
      effective? files' env' name = effective? files env name)
    (hfile : files'.lookup (settingsFile files env) = files.lookup (settingsFile files env))
    {g : Setting} (hg : g ≠ f) :
    (loadWith toml files' env').map g.get = (loadWith toml files env).map g.get := by
  have hselected : settingsFile files' env' = settingsFile files env := by
    rw [settingsFile, settingsFile, hothers _ (variableName_ne_fileVariable f)]
  have hbase : ofFileWith toml files' (settingsFile files' env') =
      ofFileWith toml files (settingsFile files env) := by
    rw [hselected, ofFileWith, ofFileWith, hfile]
  have hvariable : g.fromVariable? files' env' = g.fromVariable? files env := by
    rw [Setting.fromVariable?, Setting.fromVariable?,
      hothers _ fun h => hg (variableName_injective h)]
  rw [loadWith, loadWith, hbase]
  rcases ofFileWith toml files (settingsFile files env) with fault | base
  · rfl
  · have hget : g.get (override (withFile files' env') base) =
        g.get (override (withFile files env) base) := by
      rw [Setting.get_override, Setting.get_override, hvariable]
    exact congrArg Except.ok hget

/-- The settings of a directory and an environment, whatever reads the document of the settings
file: where loading succeeds, every setting has the value of its own layers; and to change the
variable of one setting, by the environment or by the file of variables, changes no other setting
and not the success, whatever the other variables hold. -/
theorem load_per_setting (toml : String → Option Json) (files env : Texts) :
    load files env = loadWith Toml.parse? files env ∧
      (∀ s, loadWith toml files env = .ok s → ∀ f : Setting,
        f.layered? toml files env = some (f.get s)) ∧
      ∀ (f : Setting) (files' env' : Texts),
        (∀ name, name ≠ f.variableName → effective? files' env' name = effective? files env name) →
        files'.lookup (settingsFile files env) = files.lookup (settingsFile files env) →
        ∀ g : Setting, g ≠ f →
          (loadWith toml files' env').map g.get = (loadWith toml files env).map g.get := by
  refine ⟨load_eq_loadWith files env, fun s h f => layered?_of_loadWith h f, ?_⟩
  intro f files' env' hothers hfile g hg
  exact loadWith_of_one_variable f hothers hfile hg

/-- A directory with a settings file and a file of variables, which names it. -/
def directory : Texts := [
  (".env", "MCP_CONFIG_FILE=advisor.toml\nSQLITE_DB_PATH=/srv/a.db\nSQLITE_POOL_SIZE=9\n"),
  ("advisor.toml",
    "[pool]\nsize = 2\nquery_timeout_ms = 5000\n\n[analyzer]\nanalyze_subqueries = false\n")]

/-- An environment with an empty variable, one that is a truth value, and one with a given text. -/
def environment (lifetime : String) : Texts :=
  [("SQLITE_CACHE_TTL", lifetime), ("SQLITE_POOL_SIZE", ""), ("SQLITE_READ_ONLY", "No")]

/-- The empty variable hides the one in the file of variables, so that the settings file decides; a
lifetime that is no number is passed over; and to make it one changes the lifetime only. -/
theorem load_per_setting_hidden :
    load directory (environment "soon") = .ok {
      database := { path := "/srv/a.db", readOnly := false }
      pool := { size := 2, queryLimit := 5000 }
      advisor := { subselects := false } } ∧
    Setting.size.layered? Toml.parse? directory (environment "soon") = some (2 : Nat) ∧
    ∀ g : Setting, g ≠ .schemaLifetime →
      (loadWith Toml.parse? directory (environment "5")).map g.get =
        (loadWith Toml.parse? directory (environment "soon")).map g.get := by
  obtain ⟨heq, hlayers, hothers⟩ := load_per_setting Toml.parse? directory (environment "soon")
  have hload : load directory (environment "soon") = .ok {
      database := { path := "/srv/a.db", readOnly := false }
      pool := { size := 2, queryLimit := 5000 }
      advisor := { subselects := false } } := by decide +kernel
  refine ⟨hload, hlayers _ (heq.symm.trans hload) .size, fun g hg => ?_⟩
  refine hothers .schemaLifetime directory (environment "5") (fun name hname => ?_) rfl g hg
  have hne : (name == "SQLITE_CACHE_TTL") = false := beq_false_of_ne hname
  simp only [effective?, environment, List.lookup_cons, hne]

end Settings

end IndexAdvisor
