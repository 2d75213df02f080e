import IndexAdvisor.Proofs.Analysis.Verdict

/-!
# No column is made up

Every column that is found out for a table is one of the table, as the schema spells it, and every
column that is found out for an index is one of the index or the row number of its table:
`Attributed`. Notes name such columns only (`Note.Fits`), and what is noted for an index is noted
for its table as well, so the schema must not let an index have columns that its table has not
(`Schema.Sound`). A merge keeps the columns, and the entry they come to stands for the same object
(`Attributed.merge`).

So what is judged in the end are columns of the schema (`Judged`): the joined columns of a usage,
which repeat no name, and the columns of a suggested index among them.
-/

namespace IndexAdvisor

/-- Every index is over columns of its table, as the table spells them, and no table has two columns
of one name. -/
structure Schema.Sound (s : Schema) : Prop where
  indexed : ∀ i ∈ s.indexes, ∀ c ∈ i.columns, c ∈ s.columnsOfTable i.table
  distinct : ∀ t ∈ s.tables, (t.columns.map nameKey).Nodup

/-- The column that a finding is about. -/
def Finding.column? : Finding → Option String
  | .column _ name => some name
  | .indexColumn _ c => some c.column
  | .filter _ | .index _ => none

/-- Cursors are translated, columns are not. -/
theorem Finding.column?_inParent (parent : Ledger) (names : List (Int × String)) (f : Finding) :
    (f.inParent parent names).column? = f.column? := by
  cases f <;> rfl

namespace Usage

variable {schema : Schema} {u v : Usage} {c : String}

/-! ## The columns of an entry -/

/-- The columns of an index of the schema are those that it has there. -/
theorem mem_columnsOfIndex (hs : schema.Distinct) (hu : u.Known schema) (hindex : u.isIndex = true)
    (hc : c ∈ schema.columnsOfIndex u.name) :
    ∃ i ∈ schema.indexes, i.table = u.table ∧ c ∈ i.columns := by
  obtain ⟨-, i, hi, -, hname, htable⟩ := hu.index (isIndex_iff.1 hindex)
  rw [Schema.columnsOfIndex, ← hname, Schema.index?_of_mem hs.indexes hi] at hc
  exact ⟨i, hi, htable, hc⟩

/-- The columns of the entry of an index are columns of its table. -/
theorem mem_columnsOfTable_of_index (hs : schema.Distinct) (hsound : schema.Sound)
    (hu : u.Known schema) (hindex : u.isIndex = true) (hc : c ∈ u.entryColumns schema) :
    c ∈ schema.columnsOfTable u.table := by
  rw [entryColumns, if_pos hindex] at hc
  rcases List.mem_append.1 hc with hc | hc
  · obtain ⟨i, hi, htable, hc⟩ := mem_columnsOfIndex hs hu hindex hc
    rw [← htable]
    exact hsound.indexed i hi c hc
  · exact mem_columnsOfTable_of_primaryKeyOf? (Option.mem_toList.1 hc)

theorem columnsOfTable_congr (schema : Schema) {a b : String} (h : sameName a b = true) :
    schema.columnsOfTable a = schema.columnsOfTable b := by
  rw [Schema.columnsOfTable, Schema.columnsOfTable, Schema.table?_congr schema h]

/-- The table of an index has the columns of its entry. -/
theorem mem_entryColumns_of_index (hs : schema.Distinct) (hsound : schema.Sound)
    (hu : u.Known schema) (hindex : u.isIndex = true) (hof : v.isOf u.table .table = true)
    (hc : c ∈ u.entryColumns schema) :
    c ∈ v.entryColumns schema := by
  rw [entryColumns, isIndex_of_isOf_table hof, if_neg Bool.false_ne_true,
    columnsOfTable_congr schema (isOf_iff.1 hof).2]
  exact mem_columnsOfTable_of_index hs hsound hu hindex hc

/-- Usages of one object have the same columns. -/
theorem entryColumns_of_matches (hv : v.Known schema) (hu : u.Known schema)
    (h : Merge.Matches v u) :
    v.entryColumns schema = u.entryColumns schema := by
  have hkind := h.kind_eq hv hu
  rw [entryColumns, entryColumns, isIndex, isIndex, hkind]
  by_cases hindex : (u.kind == .index) = true
  · obtain ⟨-, hname, htable⟩ := h.index_eq hu hv (by rw [isIndex, hkind]; exact hindex)
    rw [hname, htable]
  · rw [if_neg hindex, if_neg hindex]
    exact columnsOfTable_congr schema h.name

/-- The columns of an entry repeat no name. -/
theorem nodup_of_entryColumns (hs : schema.Distinct) (hsound : schema.Sound) (hu : u.Known schema)
    {columns : List String} (hnodup : columns.Nodup)
    (hc : ∀ c ∈ columns, c ∈ u.entryColumns schema) :
    (columns.map nameKey).Nodup := by
  -- of an index or of a table, the columns all belong to one table
  have htable : ∃ name, ∀ c ∈ columns, c ∈ schema.columnsOfTable name := by
    by_cases hindex : u.isIndex = true
    · exact ⟨u.table, fun c h => mem_columnsOfTable_of_index hs hsound hu hindex (hc c h)⟩
    · refine ⟨u.name, fun c h => ?_⟩
      have hc := hc c h
      rw [entryColumns, if_neg hindex] at hc
      exact hc
  obtain ⟨name, hcolumns⟩ := htable
  apply List.Nodup.map_on _ hnodup
  intro a ha b hb hab
  have ha := hcolumns a ha
  have hb := hcolumns b hb
  rw [Schema.columnsOfTable] at ha hb
  rcases htable : schema.table? name with _ | t
  · rw [htable] at ha
    cases ha
  · rw [htable] at ha hb
    exact List.inj_on_of_nodup_map (hsound.distinct t (List.mem_of_find?_eq_some htable)) ha hb hab

end Usage

namespace Ledger

variable {schema : Schema} {l parent sub : Ledger}

/-! ## Attribution -/

/-- Every column that is found out for an entry is one of its own. -/
def Attributed (schema : Schema) (l : Ledger) : Prop :=
  ∀ id u f c, l.usage? id = some u → u.Has f → f.column? = some c → c ∈ u.entryColumns schema

theorem attributed_of_unnoted (schema : Schema) (h : Everywhere Unnoted l) :
    Attributed schema l := by
  intro id u f c hu hf hc
  obtain ⟨use, rfl⟩ := h id u hu f hf
  cases hc

/-- Entering a fitting note names columns of the entry it is for, which its owner has too. -/
theorem Attributed.enter (hs : schema.Distinct) (hsound : schema.Sound) (hl : Linked schema l)
    (h : Attributed schema l) {n : Note} (hfits : n.Fits schema l) :
    Attributed schema (l.enter n) := by
  intro j w f c hw hf hc
  obtain ⟨v, hv, hbare, hhas⟩ := usage?_enter hw
  rw [Usage.entryColumns_of_bare_eq hbare]
  -- a note reaches its entry, which has the column, and the owner, whose columns include those of
  -- the index
  have hreaches {id : Nat} {name : String} (hreaches : l.Reaches id j)
      (hfits : ∀ u, l.usage? id = some u → name ∈ u.entryColumns schema) :
      name ∈ v.entryColumns schema := by
    rcases hreaches with rfl | ho
    · exact hfits v hv
    · obtain ⟨u, hu, hindex, ho⟩ := ownerOfIndex?_eq_some ho
      obtain ⟨-, x, hx, hof, -⟩ := hl.owner hu ho
      obtain rfl := Option.some.inj (hv.symm.trans hx)
      exact Usage.mem_entryColumns_of_index hs hsound (hl.known hu) hindex hof (hfits u hu)
  rcases (hhas f).1 hf with hf | hgives
  · exact h j v f c hv hf hc
  · cases hgives with
    | column hj =>
      obtain rfl := Option.some.inj hc
      exact hreaches hj hfits
    | indexColumn hj hu hindex =>
      obtain rfl := Option.some.inj hc
      exact hreaches hj hfits
    | filter hj => cases hc

theorem Attributed.merge (hs : schema.Distinct) (hparent : Linked schema parent)
    (hsub : Linked schema sub) (h : Attributed schema parent)
    (hsubattributed : Attributed schema sub) :
    Attributed schema (parent.merge sub) := by
  intro id p f c hp hf hc
  rcases (merge_has hs hparent hsub hp).1 hf with ⟨v, hv, hf⟩ | ⟨u, hu, hmatch, g, hg, rfl⟩
  · obtain ⟨p', hp', hbare⟩ := merge_kept hs hparent hsub hv
    obtain rfl := Option.some.inj (hp.symm.trans hp')
    rw [Usage.entryColumns_of_bare_eq hbare]
    exact h id v f c hv hf hc
  · obtain ⟨i, hi⟩ := mem_usages.1 hu
    rw [Finding.column?_inParent] at hc
    rw [Usage.entryColumns_of_matches ((merge_linked hs hparent hsub).known hp)
      (hsub.known hi) hmatch]
    exact hsubattributed i u g c hi hg hc

end Ledger

/-! ## What is returned -/

/-- A column that is named anywhere in a usage. -/
inductive Usage.Names (u : Usage) : String → Prop where
  | filter {c} (h : c ∈ u.filterColumns.toList) : Names u c
  | sort {c} (h : c ∈ u.sortColumns.toList) : Names u c
  | joined {c} (h : c ∈ u.columns.toList) : Names u c
  | filterIndex {e} (h : e ∈ u.filterIndexColumns.toList) : Names u e.column
  | sortIndex {e} (h : e ∈ u.sortIndexColumns.toList) : Names u e.column
  | covering {e} (h : e ∈ u.coveringColumns.toList) : Names u e.column

/-- What is returned about a usage makes no column up. -/
structure Usage.Judged (schema : Schema) (u : Usage) : Prop where
  table : u.isIndex = false → ∀ c, u.Names c → c ∈ schema.columnsOfTable u.name
  index : u.isIndex = true → ∀ c, u.Names c →
    c ∈ schema.columnsOfIndex u.name ∨ schema.primaryKeyOf? u.table = some c
  joined : (u.columns.toList.map nameKey).Nodup
  suggestion : ∀ ddl, Covering.suggestion? u = some ddl →
    ∃ columns, ddl = Covering.createIndex u.name columns ∧
    (columns.map nameKey).Nodup ∧ ∀ c ∈ columns, c ∈ schema.columnsOfTable u.name

namespace Covering

variable {schema : Schema} {u : Usage}

/-- The columns of a covering index are columns of the table. -/
theorem mem_columnsOfTable_of_covering (hs : schema.Distinct) (hsound : schema.Sound)
    {shape : IndexShape} (h : covering? u (shapesOf schema u.name) = some shape) {c : String}
    (hc : c ∈ shape.columns) :
    c ∈ schema.columnsOfTable u.name := by
  obtain ⟨i, rfl, hi, hfirst⟩ := covering?_some hs.indexes h
  have htable : sameName i.table u.name = true := by
    rcases hfirst with ⟨-, -, -, -, -, -, hqualifies, -⟩ | ⟨-, -, -, -, hqualifies, -⟩
    · exact hqualifies.1
    · exact hqualifies.1
  rw [← Usage.columnsOfTable_congr schema htable]
  exact hsound.indexed i hi c hc

/-- A judgement lists the columns of a covering index, for tables only. -/
theorem covering_of_judge (hu : Unjudged u) {e : IndexColumn}
    (he : e ∈ (judge schema u).coveringColumns.toList) :
    u.isIndex = false ∧ ∃ shape, covering? u.joinColumns (shapesOf schema u.name) = some shape ∧
      e.column ∈ shape.columns := by
  have hnone : e ∉ u.coveringColumns.toList := by
    rw [hu.2]
    exact List.not_mem_nil
  unfold judge at he
  extract_lets joined at he
  split at he
  · exact absurd he hnone
  · next hindex =>
    rw [Bool.not_eq_true] at hindex
    split at he
    · exact absurd he hnone
    · next shape hshape =>
      refine ⟨hindex, shape, hshape, ?_⟩
      rcases OrderedSet.mem_insertAll.1 he with he | he
      · cases he
      · obtain ⟨c, hc, rfl⟩ := List.mem_map.1 he
        exact hc

/-- Judging names columns of the entry only. -/
theorem mem_entryColumns_of_judge (hs : schema.Distinct) (hsound : schema.Sound)
    (hunjudged : Unjudged u)
    (hattributed : ∀ f c, u.Has f → f.column? = some c → c ∈ u.entryColumns schema) {c : String}
    (hc : (judge schema u).Names c) : c ∈ u.entryColumns schema := by
  cases hc with
  | filter h => exact hattributed (.column .filter c) c ((judge_has schema u _).1 h) rfl
  | sort h => exact hattributed (.column .sort c) c ((judge_has schema u _).1 h) rfl
  | joined h =>
    rw [columns_judge, toList_joinColumns] at h
    rcases List.mem_append.1 h with h | h
    · exact hattributed (.column .filter c) c h rfl
    · exact hattributed (.column .sort c) c (List.mem_of_mem_filter h) rfl
  | @filterIndex e h =>
    exact hattributed (.indexColumn .filter e) e.column ((judge_has schema u _).1 h) rfl
  | @sortIndex e h =>
    exact hattributed (.indexColumn .sort e) e.column ((judge_has schema u _).1 h) rfl
  | covering h =>
    obtain ⟨hindex, shape, hshape, hc⟩ := covering_of_judge hunjudged h
    rw [Usage.entryColumns, hindex, if_neg Bool.false_ne_true]
    exact mem_columnsOfTable_of_covering (u := u.joinColumns) hs hsound hshape hc

theorem judge_judged (hs : schema.Distinct) (hsound : schema.Sound) (hu : u.Known schema)
    (hunjudged : Unjudged u)
    (hattributed : ∀ f c, u.Has f → f.column? = some c → c ∈ u.entryColumns schema) :
    (judge schema u).Judged schema := by
  have hmem {c : String} (hc : (judge schema u).Names c) :
      c ∈ (judge schema u).entryColumns schema := by
    rw [Usage.entryColumns_of_bare_eq (bare_judge schema u)]
    exact mem_entryColumns_of_judge hs hsound hunjudged hattributed hc
  have htable (hindex : (judge schema u).isIndex = false) (c : String)
      (hc : (judge schema u).Names c) :
      c ∈ schema.columnsOfTable (judge schema u).name := by
    have hc := hmem hc
    rw [Usage.entryColumns, hindex, if_neg Bool.false_ne_true] at hc
    exact hc
  have hjoined : ((judge schema u).columns.toList.map nameKey).Nodup :=
    Usage.nodup_of_entryColumns hs hsound (hu.of_bare_eq (bare_judge schema u))
      (judge schema u).columns.nodup
      fun c hc => hmem (.joined hc)
  refine ⟨htable, ?_, hjoined, ?_⟩
  · intro hindex c hc
    have hc := hmem hc
    rw [Usage.entryColumns, if_pos hindex] at hc
    exact (List.mem_append.1 hc).imp_right Option.mem_toList.1
  · intro ddl hddl
    obtain ⟨hindex, -, -, rfl⟩ := suggestion?_eq_some_iff.1 hddl
    exact ⟨_, rfl, hjoined, fun c hc => htable hindex c (.joined hc)⟩

end Covering

namespace Analysis

open Ledger

variable {schema : Schema}

/-- In every ledger an analysis comes to, columns are attributed to entries that have them. -/
theorem Reached.attributed (hs : schema.Distinct) (hsound : schema.Sound) {l : Ledger}
    (h : Reached schema l) : Attributed schema l := by
  induction h with
  | read sql instrs =>
    have hlinked := scan_linked hs (empty_linked schema) ⟨instrs⟩
    have hopened := attributed_of_unnoted schema (scan_unnoted schema ⟨instrs⟩)
    refine ((readInto_enters ..).induction (P := fun l => Linked schema l ∧ Attributed schema l)
      ⟨hlinked, hopened⟩ ?_).2
    rintro l n hfits ⟨hlinked, hattributed⟩
    exact ⟨enter_linked hlinked n, hattributed.enter hs hsound hlinked hfits⟩
  | merge hparent hsub ihparent ihsub =>
    exact ihparent.merge hs (hparent.linked hs) (hsub.linked hs) ihsub

theorem Reached.judged (hs : schema.Distinct) (hsound : schema.Sound) {l : Ledger}
    (h : Reached schema l) :
    ∀ u ∈ (Ledger.judge l schema).usages, u.Judged schema := by
  intro u hu
  obtain ⟨id, v, hv, rfl⟩ := mem_usages_judge hu
  exact Covering.judge_judged hs hsound ((h.linked hs).known hv)
    (h.everywhere lasting_unjudged id v hv)
    fun f c hf hc => h.attributed hs hsound id v f c hv hf hc

/-- No analysis makes a column up: whatever is returned for a table names columns of the table,
whatever is returned for an index names columns of the index or the row number of its table, no
joined columns are of one name, and a suggested index is over columns of the table, each once. -/
theorem columns_attributed (hs : schema.Distinct) (hsound : schema.Sound) (explain : Explain)
    (subselects : Bool) (sql : String) :
    (∀ us, (ofStatement schema explain subselects sql).1 = .ok us → ∀ u ∈ us, u.Judged schema) ∧
      ∀ instrs, (∀ u ∈ (ofExplained schema explain subselects sql instrs).1, u.Judged schema) ∧
        ∀ u ∈ ofProgram schema sql instrs, u.Judged schema := by
  constructor
  · intro us hus
    obtain ⟨l, hl, rfl⟩ := ofStatement_reached hus
    exact hl.judged hs hsound
  · intro instrs
    obtain ⟨l, hl, husages⟩ := ofExplained_reached schema explain subselects sql instrs
    rw [husages]
    exact ⟨hl.judged hs hsound, (Reached.read sql instrs).judged hs hsound⟩

/-- The case of an index that is searched and then read one place past its columns, where the row
number stands. -/
theorem columns_attributed_rowid :
    let users : Table :=
      { name := "users", rootPage := 2, columns := ["id", "name"], primaryKey := some "ID" }
    let byName : Index :=
      { name := "users_name", table := "Users", rootPage := 3, columns := ["name"] }
    let schema : Schema := { tables := [users], indexes := [byName] }
    let instrs : List Instr := [
      { address := 0, name := "OpenRead", p1 := some "1", p2 := some "3" },
      { address := 1, name := "String8", p2 := some "1", p4 := some "ann" },
      { address := 2, name := "SeekGE", p1 := some "1", p3 := some "1", p4 := some "1" },
      { address := 3, name := "Column", p1 := some "1", p2 := some "1", p3 := some "2" },
      { address := 4, name := "IfNot", p1 := some "2", p2 := some "5" }]
    let sql := "SELECT 1 FROM users WHERE name >= 'ann' AND id"
    schema.Distinct ∧ schema.Sound ∧
      (ofProgram schema sql instrs).map (fun u => (u.name, u.columns.toList,
        Covering.suggestion? u)) =
        [("users_name", ["name", "id"], none), ("Users", ["name", "id"],
          some "CREATE INDEX \"idx_Users_name_id\" ON \"Users\" (\"name\", \"id\")")] ∧
      ∀ u ∈ ofProgram schema sql instrs, u.Judged schema := by
  intro users byName schema instrs sql
  have hs : schema.Distinct := ⟨List.nodup_singleton _, List.nodup_singleton _⟩
  have hsound : schema.Sound := ⟨by decide +kernel, by decide +kernel⟩
  have hjudged := columns_attributed hs hsound (fun _ => .ok []) false sql
  exact ⟨hs, hsound, by decide +kernel, (hjudged.2 instrs).2⟩

end Analysis

end IndexAdvisor
