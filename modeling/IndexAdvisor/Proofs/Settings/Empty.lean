import IndexAdvisor.Proofs.Settings.Layers

/-!
# Empty variables

A variable that is empty sets nothing, so where no file of variables stands behind the environment
it should not matter whether a variable is empty or not there at all. For the variables of settings
it does not: they are read through `text?`, which passes over the empty text.

The variable that names the settings file is read in another way. Empty, it names a file that cannot
exist, and a settings file that does not exist is no error: the usual file is not looked at, and all
settings keep the usual values that no variable changes.

> `load_emptied_iff`: an empty variable of a setting is as good as none; an empty name of the
> settings file is if and only if the usual file is understood and says nothing new about any
> setting that no variable sets.
-/

namespace IndexAdvisor.Settings

/-- The second environment is the first with a variable, which is not in it, set to the empty
text. -/
structure Emptied (name : String) (env env' : Texts) : Prop where
  unset : env.lookup name = none
  empty : env'.lookup name = some ""
  others : ∀ other, other ≠ name → env'.lookup other = env.lookup other

variable {files env env' : Texts} {name : String} {s t : Settings}

/-- An empty variable holds no text, like one that is not there. -/
theorem Emptied.text?_eq (h : Emptied name env env') (other : String) :
    text? env' other = text? env other := by
  by_cases hother : other = name
  · subst hother
    rw [text?, text?, h.unset, h.empty]
    rfl
  · rw [text?, text?, h.others other hother]

/-- A variable that is not there may be put in front. -/
theorem emptied_cons (hunset : env.lookup name = none) : Emptied name env ((name, "") :: env) := by
  refine ⟨hunset, List.lookup_cons_self, ?_⟩
  intro other hother
  rw [List.lookup_cons, beq_false_of_ne hother]

/-- Settings are changed by nothing but the texts of variables. -/
theorem override_congr (h : ∀ name, text? env' name = text? env name) :
    override env' = override env := by
  funext s
  simp only [override, switch?, number?, h]

theorem withFile_of_plain (hplain : files.lookup variablesFile = none) (env : Texts) :
    withFile files env = env := by
  rw [withFile, hplain]
  exact List.append_nil env

/-- Without a file of variables the environment alone names the settings file. -/
theorem load_of_plain (hplain : files.lookup variablesFile = none) (env : Texts) :
    load files env = (ofFile files ((env.lookup fileVariable).getD usualFile)).map
    (override env) := by
  rw [load, withFile_of_plain hplain]

/-- Settings are told apart by their values. -/
theorem eq_of_get_eq (h : ∀ f : Setting, f.get s = f.get t) : s = t := by
  obtain ⟨⟨path, readOnly, createIfMissing⟩,
      ⟨size, queryLimit, connectLimit, schemaLifetime, maxRetries⟩,
    ⟨subselects, suggestions⟩, ⟨level⟩⟩ := s
  have hdatabase : DatabaseSettings.mk path readOnly createIfMissing = t.database := by
    rw [show path = t.database.path from h .path,
      show readOnly = t.database.readOnly from h .readOnly,
      show createIfMissing = t.database.createIfMissing from h .createIfMissing]
  have hpool : PoolSettings.mk size queryLimit connectLimit schemaLifetime maxRetries = t.pool := by
    rw [show size = t.pool.size from h .size,
      show queryLimit = t.pool.queryLimit from h .queryLimit,
      show connectLimit = t.pool.connectLimit from h .connectLimit,
      show schemaLifetime = t.pool.schemaLifetime from h .schemaLifetime,
      show maxRetries = t.pool.maxRetries from h .maxRetries]
  have hadvisor : AdvisorSettings.mk subselects suggestions = t.advisor := by
    rw [show subselects = t.advisor.subselects from h .subselects,
      show suggestions = t.advisor.suggestions from h .suggestions]
  have hlog : LogSettings.mk level = t.log := by
    rw [show level = t.log.level from h .level]
  rw [hdatabase, hpool, hadvisor, hlog]

/-- Two settings become the same under the variables if they agree in every setting that no variable
sets. -/
theorem override_eq_iff (hplain : files.lookup variablesFile = none) :
    override env s = override env t ↔ ∀ f : Setting, f.fromVariable? files env = none →
      f.get s = f.get t := by
  have hget (s : Settings) (f : Setting) :
      f.get (override env s) = (f.fromVariable? files env).getD (f.get s) := by
    rw [← Setting.get_override, withFile_of_plain hplain]
  constructor
  · intro h f hf
    have hvalue := congrArg f.get h
    rw [hget, hget, hf] at hvalue
    exact hvalue
  · intro h
    apply eq_of_get_eq
    intro f
    rw [hget, hget]
    rcases hf : f.fromVariable? files env with _ | value
    · exact h f hf
    · rfl

/-- The variable of a setting may be empty or not there. -/
theorem load_emptied_setting (hplain : files.lookup variablesFile = none) (f : Setting)
    (h : Emptied f.variableName env env') : load files env' = load files env := by
  rw [load_of_plain hplain, load_of_plain hplain, h.others _ (variableName_ne_fileVariable f),
    override_congr h.text?_eq]

/-- An empty name of the settings file leads to no file. -/
theorem load_emptied_file (hplain : files.lookup variablesFile = none)
    (hnamed : files.lookup "" = none) (h : Emptied fileVariable env env') :
    load files env' = .ok (override env {}) := by
  rw [load_of_plain hplain, h.empty, Option.getD_some, ofFile, hnamed, override_congr h.text?_eq]
  rfl

/-- In a directory without a file of variables, where every file has a name: to set the variable of
a setting to the empty text is the same as not to set it. To set the variable that names the
settings file to the empty text discards the usual file, and is the same as not to set it exactly if
that file, or its absence, gives every setting that no variable sets its usual value. -/
theorem load_emptied_iff (hplain : files.lookup variablesFile = none)
    (hnamed : files.lookup "" = none) :
    (∀ (f : Setting) (env env' : Texts),
      Emptied f.variableName env env' → load files env' = load files env) ∧
      ∀ env env' : Texts, Emptied fileVariable env env' →
        load files env' = .ok (override env {}) ∧
          load files env = (ofFile files usualFile).map (override env) ∧
          (load files env' = load files env ↔ ∃ s, ofFile files usualFile = .ok s ∧
            ∀ f : Setting, f.fromVariable? files env = none → f.get s = f.get {}) := by
  refine ⟨fun f env env' h => load_emptied_setting hplain f h, fun env env' h => ?_⟩
  have hempty := load_emptied_file hplain hnamed h
  have hunset : load files env = (ofFile files usualFile).map (override env) := by
    rw [load_of_plain hplain, h.unset, Option.getD_none]
  refine ⟨hempty, hunset, ?_⟩
  rw [hempty, hunset]
  constructor
  · intro heq
    rcases hfile : ofFile files usualFile with fault | s
    · rw [hfile] at heq
      cases heq
    · rw [hfile] at heq
      exact ⟨s, rfl, (override_eq_iff hplain).1 (Except.ok.inj heq).symm⟩
  · rintro ⟨s, hs, hsame⟩
    rw [hs]
    exact congrArg Except.ok ((override_eq_iff hplain).2 hsame).symm

/-- A directory with the usual settings file, which sets the number of connections. -/
def pooled : Texts := [("sqlite-index-mcp.toml", "[pool]\nsize = 2\n")]

/-- An environment that sets the number of connections too. -/
def widened : Texts := [("SQLITE_POOL_SIZE", "8"), ("SQLITE_READ_ONLY", "no")]

/-- Where a variable sets all that the settings file does, the file may be discarded; and an empty
limit is none. -/
theorem load_emptied_iff_pooled :
    load pooled (("MCP_CONFIG_FILE", "") :: widened) = load pooled widened ∧
      load pooled (("SQLITE_QUERY_TIMEOUT", "") :: widened) = load pooled widened := by
  have hplain : pooled.lookup variablesFile = none := by decide +kernel
  have hnamed : pooled.lookup "" = none := by decide +kernel
  obtain ⟨hsetting, hfile⟩ := load_emptied_iff hplain hnamed
  constructor
  · obtain ⟨-, -, hiff⟩ := hfile widened _ (emptied_cons (by decide +kernel))
    refine hiff.2 ⟨{ pool := { size := 2 } }, by decide +kernel, fun f hf => ?_⟩
    cases f with
    | size => exact absurd hf (by decide +kernel)
    | _ => rfl
  · exact hsetting .queryLimit widened _ (emptied_cons (by decide +kernel))

/-- An empty name of the settings file is not the same as none: the usual file is there, and the
number of connections it sets is lost without an error. -/
theorem load_emptied_discards :
    ¬∀ files env env' : Texts, files.lookup variablesFile = none → files.lookup "" = none →
      Emptied fileVariable env env' → load files env' = load files env := by
  intro h
  have hsame :=
    h pooled [] [(fileVariable, "")] (by decide +kernel) (by decide +kernel) (emptied_cons rfl)
  have hempty : load pooled [(fileVariable, "")] = .ok {} := by decide +kernel
  have hunset : load pooled [] = .ok { pool := { size := 2 } } := by decide +kernel
  rw [hempty, hunset] at hsame
  exact absurd hsame (by decide)

end IndexAdvisor.Settings
