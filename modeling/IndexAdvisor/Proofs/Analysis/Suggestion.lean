import IndexAdvisor.Proofs.Analysis.Bubbling
import IndexAdvisor.Proofs.Analysis.Verdict
import IndexAdvisor.Proofs.Sql.Quoting

/-!
# Names of suggested indexes

A suggested index is named after its table and the columns, all of them with an underscore between.
Names of tables and columns may contain underscores themselves, so the name does not tell where the
table ends: two tables can be suggested indexes of one name if the name of one of them continues the
name of the other (`Straddles`), and this is the only way (`sameName_suggestedName_iff`).

> `suggestions_named`: of the indexes that an analysis suggests for different tables, two have one
> name exactly if their tables and columns straddle the same text; and an index that is there
> already under the name of a suggested one does not cover what the suggested one is for.

Nothing is done about names that are taken: `suggested_name_taken`.
-/

namespace IndexAdvisor

theorem nameKey_append (a b : String) : nameKey (a ++ b) = nameKey a ++ nameKey b := by
  rw [nameKey, String.toList_append, List.map_append]
  rfl

/-- Two texts with a mark in each are the same if the marks stand at one place, or if one of the
texts goes on over the mark of the other one up to its own. -/
theorem append_mark_eq_iff {α : Type} {mark : α} {a b c d : List α} :
    a ++ mark :: b = c ++ mark :: d ↔
    a = c ∧ b = d ∨ (∃ middle, c = a ++ mark :: middle ∧ b = middle ++ mark :: d) ∨
      ∃ middle, a = c ++ mark :: middle ∧ d = middle ++ mark :: b := by
  constructor
  · intro h
    obtain ⟨m, hc, hm⟩ | ⟨m, ha, hm⟩ := List.append_eq_append_iff.1 h
    · rcases m with _ | ⟨x, m⟩
      · rw [List.append_nil] at hc
        exact .inl ⟨hc.symm, (List.cons.inj hm).2⟩
      · obtain ⟨rfl, hb⟩ := List.cons.inj hm
        exact .inr (.inl ⟨m, hc, hb⟩)
    · rcases m with _ | ⟨x, m⟩
      · rw [List.append_nil] at ha
        exact .inl ⟨ha, (List.cons.inj hm).2.symm⟩
      · obtain ⟨rfl, hd⟩ := List.cons.inj hm
        exact .inr (.inr ⟨m, ha, hd⟩)
  · intro h
    obtain ⟨rfl, rfl⟩ | ⟨m, rfl, rfl⟩ | ⟨m, rfl, rfl⟩ := h
    · rfl
    · simp
    · simp

namespace Covering

/-! ## Names -/

/-- The columns of an index as its name tells them. -/
def joinedNames (columns : List String) : String := String.intercalate "_" columns

/-- The name of the second table is that of the first one, an underscore and some text, and the
columns of the first table begin with this text, before the columns of the second one. -/
def Straddles (table : String) (columns : List String) (table' : String) (columns' : List String) :
    Prop :=
  ∃ middle : String, sameName table' (table ++ "_" ++ middle) = true ∧
    sameName (joinedNames columns) (middle ++ "_" ++ joinedNames columns') = true

variable {table table' : String} {columns columns' : List String}

theorem nameKey_suggestedName (table : String) (columns : List String) :
    nameKey (suggestedName table columns) =
    nameKey "idx_" ++ (nameKey table ++ '_' :: nameKey (joinedNames columns)) := by
  rw [suggestedName, nameKey_append, nameKey_append, nameKey_append, List.append_assoc,
    List.append_assoc]
  rfl

theorem nameKey_underscore (a b : String) :
    nameKey (a ++ "_" ++ b) = nameKey a ++ '_' :: nameKey b := by
  rw [nameKey_append, nameKey_append, List.append_assoc]
  rfl

theorem straddles_iff : Straddles table columns table' columns' ↔
    ∃ middle, nameKey table' = nameKey table ++ '_' :: middle ∧
      nameKey (joinedNames columns) = middle ++ '_' :: nameKey (joinedNames columns') := by
  unfold Straddles
  simp only [sameName_iff, nameKey_underscore]
  constructor
  · intro h
    obtain ⟨middle, htable, hcolumns⟩ := h
    exact ⟨nameKey middle, htable, hcolumns⟩
  · intro h
    obtain ⟨middle, htable, hcolumns⟩ := h
    -- the text in between, as the second table spells it
    have hmiddle : nameKey (String.ofList (table'.toList.drop ((nameKey table).length + 1))) =
        middle := by
      rw [nameKey, String.toList_ofList, List.map_drop, ← nameKey, htable, List.drop_append]
      simp
    exact ⟨_, hmiddle.symm ▸ htable, hmiddle.symm ▸ hcolumns⟩

/-- Two suggested names are the same exactly if table and columns are, or if the tables and columns
straddle. -/
theorem sameName_suggestedName_iff :
    sameName (suggestedName table columns) (suggestedName table' columns') = true ↔
      sameName table table' = true ∧ sameName (joinedNames columns) (joinedNames columns') = true ∨
        Straddles table columns table' columns' ∨ Straddles table' columns' table columns := by
  rw [straddles_iff, straddles_iff, sameName_iff, sameName_iff, sameName_iff, nameKey_suggestedName,
    nameKey_suggestedName, List.append_cancel_left_eq, append_mark_eq_iff]

/-! ## Suggestions -/

/-- The name of the index that a statement creates. -/
def indexName? (ddl : String) : Option String :=
  match Sql.tokenize? ddl with
  | some (_ :: _ :: .word (some .double) body :: _) => some (String.ofList (halved '"' body.toList))
  | _ => none

/-- An index of a name is suggested for a usage. -/
def Suggests (u : Usage) (name : String) : Prop :=
  ∃ ddl, suggestion? u = some ddl ∧ indexName? ddl = some name

theorem indexName?_createIndex (table : String) (hcolumns : columns ≠ []) :
    indexName? (createIndex table columns) = some (suggestedName table columns) := by
  obtain ⟨body, hbody, hname⟩ := Sql.nameToken_names (suggestedName table columns)
  rw [indexName?, Sql.tokenize?_createIndex table hcolumns, hbody]
  exact congrArg some hname

theorem suggests_iff {u : Usage} {name : String} : Suggests u name ↔
    u.isIndex = false ∧ u.coveringIndex = "" ∧ u.columns.toList ≠ [] ∧
      name = suggestedName u.name u.columns.toList := by
  unfold Suggests
  simp only [suggestion?_eq_some_iff]
  constructor
  · intro h
    obtain ⟨ddl, ⟨hindex, hcovering, hcolumns, rfl⟩, hname⟩ := h
    rw [indexName?_createIndex _ hcolumns] at hname
    exact ⟨hindex, hcovering, hcolumns, (Option.some.inj hname).symm⟩
  · intro h
    obtain ⟨hindex, hcovering, hcolumns, rfl⟩ := h
    exact ⟨_, ⟨hindex, hcovering, hcolumns, rfl⟩, indexName?_createIndex _ hcolumns⟩

/-- What holds of the names under which indexes are suggested for some usages. -/
structure Named (schema : Schema) (us : List Usage) : Prop where
  /-- Two suggestions have one name exactly if their tables and columns have, or straddle. -/
  same_iff : ∀ u ∈ us, ∀ v ∈ us, ∀ a b, Suggests u a → Suggests v b → (sameName a b = true ↔
    sameName u.name v.name = true ∧
      sameName (joinedNames u.columns.toList) (joinedNames v.columns.toList) = true ∨
      Straddles u.name u.columns.toList v.name v.columns.toList ∨
      Straddles v.name v.columns.toList u.name u.columns.toList)
  /-- Suggestions for two usages are for two tables, if no two tables of the schema have one
  name. -/
  tables : schema.Distinct → ∀ (i j : Nat) (u v : Usage) (a b : String), i ≠ j →
    us[i]? = some u → us[j]? = some v → Suggests u a → Suggests v b → sameName u.name v.name = false
  /-- A name is taken by something whose own name begins like those of suggested indexes of the
  table. -/
  taken : ∀ u ∈ us, ∀ a, Suggests u a → ∀ name, sameName name a = true →
    nameKey ("idx_" ++ u.name ++ "_") <+: nameKey name
  /-- No index, so none by which a name is taken either, covers what an index is suggested for. -/
  uncovered : schema.Distinct → (∀ i ∈ schema.indexes, i.name ≠ "") → ∀ u ∈ us, ∀ a, Suggests u a →
    ∀ i ∈ schema.indexes, ¬Qualifies u.name u.columns.toList i

theorem prefix_of_suggestedName {name : String}
    (h : sameName name (suggestedName table columns) = true) :
    nameKey ("idx_" ++ table ++ "_") <+: nameKey name := by
  rw [sameName_iff.1 h, suggestedName, nameKey_append _ (String.intercalate _ _)]
  exact List.prefix_append _ _

/-- Nothing that covers is there if an index is suggested. -/
theorem not_qualifies_of_suggests {schema : Schema} {u : Usage} (h : Verdict schema u)
    {name : String} (hu : Suggests u name) {i : Index} (hi : i ∈ schema.indexes) :
    ¬Qualifies u.name u.columns.toList i := by
  intro hqualifies
  obtain ⟨ddl, hddl, -⟩ := hu
  obtain ⟨hindex, -, -, -⟩ := suggestion?_eq_some_iff.1 hddl
  obtain ⟨-, -, -, -, -, hnone⟩ := h.covered hindex ⟨i, hi, hqualifies⟩
  rw [hddl] at hnone
  cases hnone

end Covering

namespace Analysis

open Covering Ledger

variable {schema : Schema}

theorem Reached.named {l : Ledger} (h : Reached schema l) :
    Named schema (l.judge schema).usages where
  same_iff u _ v _ a b hua hvb := by
    obtain ⟨-, -, -, rfl⟩ := suggests_iff.1 hua
    obtain ⟨-, -, -, rfl⟩ := suggests_iff.1 hvb
    exact sameName_suggestedName_iff
  tables hs i j u v a b hij hu hv hua hvb := by
    rw [usages_getElem?] at hu hv
    obtain ⟨hindex, -⟩ := suggests_iff.1 hua
    obtain ⟨hindex', -⟩ := suggests_iff.1 hvb
    have hkind : u.kind = v.kind := by
      rw [Usage.isIndex] at hindex hindex'
      revert hindex hindex'
      cases u.kind <;> cases v.kind <;> decide
    refine Bool.eq_false_iff.2 fun hname => hij ?_
    exact (judge_linked (h.linked hs)).unique hu hv hkind hname
  taken u _ a hua name hname := by
    obtain ⟨-, -, -, rfl⟩ := suggests_iff.1 hua
    exact prefix_of_suggestedName hname
  uncovered hs hnonempty u hu a hua i hi := by
    obtain ⟨id, v, hv, rfl⟩ := mem_usages_judge hu
    exact not_qualifies_of_suggests
      (judge_verdict hs.indexes hnonempty (h.everywhere lasting_unjudged id v hv)) hua hi

/-- Whatever an analysis returns, the indexes it suggests for two tables have one name exactly if
the tables and columns straddle, and an index that has the name of a suggested one already does not
cover the columns in question. -/
theorem suggestions_named (schema : Schema) (explain : Explain) (subselects : Bool) (sql : String) :
    (∀ us, (ofStatement schema explain subselects sql).1 = .ok us → Named schema us) ∧
      ∀ instrs, Named schema (ofExplained schema explain subselects sql instrs).1 ∧
        Named schema (ofProgram schema sql instrs) := by
  constructor
  · intro us hus
    obtain ⟨l, hl, rfl⟩ := ofStatement_reached hus
    exact hl.named
  · intro instrs
    obtain ⟨l, hl, husages⟩ := ofExplained_reached schema explain subselects sql instrs
    rw [husages]
    exact ⟨hl.named, (Reached.read sql instrs).named⟩

/-! ## Names that are taken -/

/-- Two tables, the name of the second one going on where that of the first one ends, and an index
that is called like the one that is suggested for both. -/
def straddlingSchema : Schema where
  tables := [{ name := "t", rootPage := 2, columns := ["a_b", "c"] },
    { name := "t_a", rootPage := 3, columns := ["b"] }]
  indexes := [{ name := "IDX_T_A_B", rootPage := 4, table := "t", columns := ["c"] }]

/-- The program of `SELECT 1 FROM t, t_a WHERE a_b AND b`. -/
def straddlingJoin : List Instr := [
  { address := 0, name := "Init", p1 := some "0", p2 := some "14", p3 := some "0" },
  { address := 1, name := "OpenRead", p1 := some "0", p2 := some "2", p3 := some "0",
    p4 := some "1" },
  { address := 2, name := "OpenRead", p1 := some "1", p2 := some "3", p3 := some "0",
    p4 := some "1" },
  { address := 3, name := "Rewind", p1 := some "0", p2 := some "13", p3 := some "0" },
  { address := 4, name := "Column", p1 := some "0", p2 := some "0", p3 := some "1" },
  { address := 5, name := "IfNot", p1 := some "1", p2 := some "12", p3 := some "1" },
  { address := 6, name := "Rewind", p1 := some "1", p2 := some "13", p3 := some "0" },
  { address := 7, name := "Column", p1 := some "1", p2 := some "0", p3 := some "1" },
  { address := 8, name := "IfNot", p1 := some "1", p2 := some "11", p3 := some "1" },
  { address := 9, name := "Integer", p1 := some "1", p2 := some "2", p3 := some "0" },
  { address := 10, name := "ResultRow", p1 := some "2", p2 := some "1", p3 := some "0" },
  { address := 11, name := "Next", p1 := some "1", p2 := some "7", p3 := some "0" },
  { address := 12, name := "Next", p1 := some "0", p2 := some "4", p3 := some "0" },
  { address := 13, name := "Halt", p1 := some "0", p2 := some "0", p3 := some "0" },
  { address := 14, name := "Transaction", p1 := some "0", p2 := some "0", p3 := some "3",
    p4 := some "0" },
  { address := 15, name := "Goto", p1 := some "0", p2 := some "1", p3 := some "0" }]

/-- A table that is filtered by one column. -/
def filteredTable (cursor : Int) (rootPage : Nat) (name column : String) : Usage :=
  { cursor, rootPage, kind := .table, name, table := "", filterColumns := .ofList [column],
    columns := .ofList [column] }

theorem filteredTable_suggests (cursor : Int) (rootPage : Nat) (name column : String) :
    Suggests (filteredTable cursor rootPage name column) (suggestedName name [column]) :=
  suggests_iff.2 ⟨rfl, rfl, List.cons_ne_nil column [], rfl⟩

theorem straddlingSchema_distinct : straddlingSchema.Distinct :=
  ⟨by decide +kernel, by decide +kernel⟩

theorem straddlingJoin_usages :
    (ofStatement straddlingSchema (fun _ => .ok straddlingJoin) true
      "SELECT 1 FROM t, t_a WHERE a_b AND b").1 =
      .ok [filteredTable 0 2 "t" "a_b", filteredTable 1 3 "t_a" "b"] :=
  ofStatement_eq_ok_iff.2 ⟨straddlingJoin, rfl, by decide +kernel⟩

/-- The two suggestions have one name, so the tables and columns straddle; and the index of that
name is none that covers. -/
theorem suggestions_named_straddling :
    let explain : Explain := fun _ => .ok straddlingJoin
    let sql := "SELECT 1 FROM t, t_a WHERE a_b AND b"
    let u := filteredTable 0 2 "t" "a_b"
    let v := filteredTable 1 3 "t_a" "b"
    straddlingSchema.Distinct ∧ (∀ i ∈ straddlingSchema.indexes, i.name ≠ "") ∧
      (ofStatement straddlingSchema explain true sql).1 = .ok [u, v] ∧
      Suggests u "idx_t_a_b" ∧ Suggests v "idx_t_a_b" ∧ sameName u.name v.name = false ∧
      (Straddles u.name u.columns.toList v.name v.columns.toList ∨
        Straddles v.name v.columns.toList u.name u.columns.toList) ∧
      ∀ i ∈ straddlingSchema.indexes, ¬Qualifies u.name u.columns.toList i := by
  intro explain sql u v
  have hnonempty : ∀ i ∈ straddlingSchema.indexes, i.name ≠ "" := by decide +kernel
  have hu : Suggests u "idx_t_a_b" := filteredTable_suggests 0 2 "t" "a_b"
  have hv : Suggests v "idx_t_a_b" := filteredTable_suggests 1 3 "t_a" "b"
  have hnamed :=
    (suggestions_named straddlingSchema explain true sql).1 [u, v] straddlingJoin_usages
  have hdifferent :=
    hnamed.tables straddlingSchema_distinct 0 1 u v _ _ Nat.zero_ne_one rfl rfl hu hv
  refine ⟨straddlingSchema_distinct, hnonempty, straddlingJoin_usages, hu, hv, hdifferent, ?_, ?_⟩
  · have hsame_iff :=
      hnamed.same_iff u (List.mem_cons_self ..) v (List.mem_of_mem_getLast? rfl) _ _ hu hv
    obtain ⟨hsame, -⟩ | hstraddles := hsame_iff.1 (sameName_refl _)
    · rw [hdifferent] at hsame
      cases hsame
    · exact hstraddles
  · exact hnamed.uncovered straddlingSchema_distinct hnonempty u (List.mem_cons_self ..) _ hu

/-- Indexes of one name are suggested for two tables of one statement, and the schema has an index
of that name. -/
theorem suggested_name_taken :
    let u := filteredTable 0 2 "t" "a_b"
    let v := filteredTable 1 3 "t_a" "b"
    straddlingSchema.Distinct ∧
      (ofStatement straddlingSchema (fun _ => .ok straddlingJoin) true
        "SELECT 1 FROM t, t_a WHERE a_b AND b").1 =
        .ok [u, v] ∧
      sameName u.name v.name = false ∧ Suggests u "idx_t_a_b" ∧ Suggests v "idx_t_a_b" ∧
      ∃ i ∈ straddlingSchema.indexes, sameName i.name "idx_t_a_b" = true :=
  ⟨straddlingSchema_distinct, straddlingJoin_usages, rfl, filteredTable_suggests 0 2 "t" "a_b",
    filteredTable_suggests 1 3 "t_a" "b", _, List.mem_singleton_self _, by decide⟩

end Analysis

end IndexAdvisor
