import IndexAdvisor.Proofs.Analysis.Cursors
import IndexAdvisor.Proofs.Sql.Case

/-!
# Letter case

Nothing that is found out depends on the case in which the words of a statement are written: the
searches find the same for the statement in small letters (`Filter.record_lower`,
`Sort.record_lower`), so they find the same for any two spellings.

> `letter_case_is_ignored`: statements that differ in the case of words lead to the same ledger,
> whose columns are all spelled as in the schema.

A test for NULL that is repeated in other letters is recorded twice, but the second time it adds
nothing (`enterAll_nullTests`).
-/

namespace IndexAdvisor

open Sql (Token TableRef ColumnRef NullTest)

/-! ## Names of the schema -/

@[simp]
theorem declared?_lowerCase (columns : List String) (column : String) :
    declared? columns (lowerCase column) = declared? columns column := by
  simp only [declared?, sameName_lowerCase_right]

@[simp]
theorem Ledger.find?_lowerCase (l : Ledger) (name : String) (kind : ObjectKind) :
    l.find? (lowerCase name) kind = l.find? name kind := by
  simp only [Ledger.find?, Usage.isOf, sameName_lowerCase_right]

/-- The scene with the words of the statement in small letters. -/
def Scene.lower (s : Scene) : Scene := { s with tokens := s.tokens.map Token.lower }

namespace Scene

variable (s : Scene)

@[simp] theorem lower_program : s.lower.program = s.program := rfl

@[simp] theorem columnRead?_lower : s.lower.columnRead? = s.columnRead? := rfl

end Scene

/-! ## Filters -/

namespace Filter

variable (s : Scene) (l : Ledger)

theorem nullTarget?_lower (refs : List TableRef) (ref : ColumnRef) :
    nullTarget? s.lower l (refs.map TableRef.lower) ref.lower = nullTarget? s l refs ref := by
  have hcolumn (id : Nat) (column : String) : tableColumn? s.lower l id (lowerCase column) =
      tableColumn? s l id column := by
    simp only [tableColumn?, declared?_lowerCase]
    rfl
  unfold nullTarget?
  rw [ColumnRef.lower]
  rcases ref.qualifier with _ | qualifier
  · dsimp only [Option.map_none]
    simp only [tablesWith, hcolumn]
  · dsimp only [Option.map_some]
    rw [Sql.resolveQualifier?_lower]
    simp only [Option.bind_eq_bind, Option.bind_map, Function.comp_def,
      Ledger.find?_lowerCase, hcolumn]

/-- What is entered for a test for NULL. -/
def testNotes (refs : List TableRef) (test : NullTest) : List Note :=
  (nullTarget? s l refs test.column).elim [] fun r =>
    [.column r.1 .filter r.2, .filter r.1 (nullTestText r.2 test.negated)]

theorem testNotes_lower (refs : List TableRef) (test : NullTest) :
    testNotes s.lower l (refs.map TableRef.lower) test.lower = testNotes s l refs test := by
  rw [testNotes, testNotes]
  congr 1
  exact nullTarget?_lower s l refs test.column

/-- A test that is repeated adds nothing, so it does not matter whether repetitions are dropped. -/
theorem enterAll_nullTests (notes : NullTest → List Note) (before : List Token)
    (found : List NullTest) (ts : List Token) :
    l.enterAll ((Sql.nullTestsFrom before found ts).flatMap notes) =
      l.enterAll ((found ++ Sql.allNullTestsFrom before ts).flatMap notes) := by
  induction ts generalizing before found with
  | nil => rw [Sql.nullTestsFrom, Sql.allNullTestsFrom, List.append_nil]
  | cons t ts ih =>
    rw [Sql.nullTestsFrom_cons, Sql.allNullTestsFrom, ih]
    rcases Sql.nullTestBehind? before (t :: ts) with _ | test
    · rfl
    · rw [Option.elim_some, Option.toList_some, List.singleton_append]
      rcases hmem : found.contains test with _ | _
      · rw [if_neg Bool.false_ne_true, List.append_assoc, List.singleton_append]
      · -- what is noted for the test is held by what was found before
        have hheld : (l.enterAll (found.flatMap notes)).enterAll (notes test) =
            l.enterAll (found.flatMap notes) := by
          apply Ledger.enterAll_eq_of_holds
          intro n hn
          exact Ledger.holds_enterAll (List.mem_flatMap.2 ⟨test, List.contains_iff_mem.1 hmem, hn⟩)
        rw [if_pos rfl, List.flatMap_append, List.flatMap_append, List.flatMap_cons,
          Ledger.enterAll_append, Ledger.enterAll_append, Ledger.enterAll_append, hheld]

theorem recordNullTests_eq : recordNullTests s l =
    l.enterAll ((Sql.allNullTests s.tokens).flatMap (testNotes s l (Sql.tableRefs s.tokens))) := by
  have hnotes : (nullTestsSeen s l 0).map Sighting.note =
      (Sql.nullTests s.tokens).flatMap (testNotes s l (Sql.tableRefs s.tokens)) := by
    rw [nullTestsSeen, List.map_flatMap]
    congr 1
    funext test
    rw [testNotes]
    rcases nullTarget? s l (Sql.tableRefs s.tokens) test.column with _ | r
    · rfl
    · rfl
  rw [(recordNullTests_sees s l 0).sighted.eq, hnotes]
  exact enterAll_nullTests l _ [] [] s.tokens

theorem recordNullTests_lower : recordNullTests s.lower l = recordNullTests s l := by
  have hnotes : (fun test => testNotes s.lower l (Sql.tableRefs s.lower.tokens)
      (NullTest.lower test)) =
      testNotes s l (Sql.tableRefs s.tokens) := by
    funext test
    rw [Scene.lower, Sql.tableRefs_lower, ← Scene.lower, testNotes_lower]
  rw [recordNullTests_eq, recordNullTests_eq, ← hnotes]
  congr 1
  rw [Scene.lower, Sql.allNullTests_lower, List.flatMap_map]

theorem recordInstr_lower (pos : Nat) (i : Instr) :
    recordInstr s.lower l pos i = recordInstr s l pos i := by
  unfold recordInstr
  generalize i.opcode = opcode
  cases opcode with
  | truth test =>
    dsimp only
    rw [recordNullTests_lower]
    rfl
  | _ => rfl

theorem record_lower : record s.lower l = record s l := by
  have hinstr : recordInstr s.lower = recordInstr s := by
    funext l pos i
    exact recordInstr_lower s l pos i
  rw [record, record, hinstr]
  rfl

end Filter

end IndexAdvisor

/-! ## Orders -/

namespace IndexAdvisor.Sort

open Sql (TableRef ColumnRef SortTerm)

variable (s : Scene) (l : Ledger) (terms : List SortTerm)

theorem concerns_lower (refs : List TableRef) (table : String) (ref : ColumnRef) :
    concerns (refs.map TableRef.lower) table ref.lower = concerns refs table ref := by
  unfold concerns
  rw [ColumnRef.lower]
  rcases ref.qualifier with _ | qualifier
  · rfl
  · dsimp only [Option.map_some]
    rw [Sql.resolveQualifier?_lower, Option.any_map]
    simp only [sameName_lowerCase_left]

theorem orderedBy_lower (schema : Schema) (refs : List TableRef) (u : Usage) :
    orderedBy schema (refs.map TableRef.lower) u (terms.map (Option.map ColumnRef.lower)) =
      orderedBy schema refs u terms := by
  rw [orderedBy, orderedBy, List.filterMap_map]
  congr 1
  funext term
  rw [Function.comp_apply]
  rcases term with _ | ref
  · rfl
  · rw [Option.map_some, Option.bind_some, Option.bind_some, concerns_lower]
    rw [ColumnRef.lower]
    dsimp only
    rw [declared?_lowerCase]

theorem rows_lower (step : Step) :
    step.rows s.lower (terms.map (Option.map ColumnRef.lower)) = step.rows s terms := by
  have hexpression (field : Nat) : ((terms.map (Option.map ColumnRef.lower))[field]? == some none) =
      (terms[field]? == some none) := by
    rw [List.getElem?_map]
    rcases terms[field]? with _ | _ | ref
    · rfl
    · rfl
    · rfl
  rw [Step.rows, Step.rows, Step.width, Step.width, List.isEmpty_map, List.length_map]
  simp only [hexpression, Scene.lower_program]

theorem stepKeys?_lower (pos : Nat) (i : Instr) :
    stepKeys? s.lower l (terms.map (Option.map ColumnRef.lower)) pos i =
      stepKeys? s l terms pos i := by
  simp only [stepKeys?_eq, stepRows?, rows_lower, Scene.lower_program, Scene.columnRead?_lower]

theorem recordSteps_lower :
    recordSteps s.lower l (terms.map (Option.map ColumnRef.lower)) = recordSteps s l terms := by
  unfold recordSteps
  simp only [stepKeys?_lower, Scene.lower_program]

theorem recordWalks_lower (forward : Bool) :
    recordWalks s.lower l (terms.map (Option.map ColumnRef.lower)) forward =
      recordWalks s l terms forward := by
  have hall : (terms.map (Option.map ColumnRef.lower)).all Option.isNone =
      terms.all Option.isNone := by
    rw [List.all_map]
    congr 1
    funext term
    exact Option.isNone_map
  have hwalk : recordWalk s.lower (terms.map (Option.map ColumnRef.lower)) =
      recordWalk s terms := by
    funext l id
    unfold recordWalk
    simp only [Scene.lower, Sql.tableRefs_lower, orderedBy_lower]
  have hwalks : walks s.lower forward = walks s forward := rfl
  rw [recordWalks_eq, recordWalks_eq, hall, hwalk, hwalks]

theorem record_lower : record s.lower l = record s l := by
  unfold record
  have hterms : Sql.sortTerms s.lower.tokens = (Sql.sortTerms s.tokens).map
      (Option.map ColumnRef.lower) :=
    Sql.sortTerms_lower s.tokens
  have hempty : s.lower.tokens.isEmpty = s.tokens.isEmpty := List.isEmpty_map
  simp only [hterms, hempty, List.isEmpty_map, recordSteps_lower, recordWalks_lower]

end IndexAdvisor.Sort

/-! ## Statements -/

namespace IndexAdvisor

open Sql (Token)

/-- Two tokens are the same but for the case of letters in a word. -/
inductive Sql.Token.SameWord : Token → Token → Prop
  | word (quote : Option Sql.Quote) {a b : String} (h : sameName a b = true) :
      SameWord (.word quote a) (.word quote b)
  | refl (t : Token) : SameWord t t

theorem Sql.Token.SameWord.lower_eq {t u : Token} (h : t.SameWord u) : t.lower = u.lower := by
  cases h with
  | word quote h => rw [Token.lower, Token.lower, lowerCase_eq_iff.2 h]
  | refl => rfl

theorem map_lower_eq {ts us : List Token} (h : List.Forall₂ Token.SameWord ts us) :
    ts.map Token.lower = us.map Token.lower := by
  induction h with
  | nil => rfl
  | cons hword _ ih => rw [List.map_cons, List.map_cons, hword.lower_eq, ih]

/-- The columns of all tables and indexes, as the schema spells them. -/
def Schema.columns (s : Schema) : List String :=
  s.tables.flatMap Table.columns ++ s.indexes.flatMap Index.columns

/-- A finding names only columns of the schema, as the schema spells them. -/
def Finding.Spelled (schema : Schema) : Finding → Prop
  | .column _ name => name ∈ schema.columns
  | .indexColumn _ c => c.column ∈ schema.columns
  | .filter text => ∃ column ∈ schema.columns, ∃ rest, text = quoteName column ++ rest
  | .index _ => True

namespace Schema

variable {s : Schema} {column : String}

theorem mem_columns_of_table {table : String} (h : column ∈ s.columnsOfTable table) :
    column ∈ s.columns := by
  rw [columnsOfTable] at h
  rcases ht : s.table? table with _ | t
  · rw [ht] at h
    cases h
  · rw [ht] at h
    exact List.mem_append_left _ (List.mem_flatMap.2 ⟨t, List.mem_of_find?_eq_some ht, h⟩)

theorem mem_columns_of_index {index : String} (h : column ∈ s.columnsOfIndex index) :
    column ∈ s.columns := by
  rw [columnsOfIndex] at h
  rcases hi : s.index? index with _ | i
  · rw [hi] at h
    cases h
  · rw [hi] at h
    exact List.mem_append_right _ (List.mem_flatMap.2 ⟨i, List.mem_of_find?_eq_some hi, h⟩)

theorem mem_columns_of_entry {u : Usage} (h : column ∈ u.entryColumns s) : column ∈ s.columns := by
  rw [Usage.entryColumns] at h
  split at h
  · rcases List.mem_append.1 h with h | h
    · exact mem_columns_of_index h
    · exact mem_columns_of_table (Usage.mem_columnsOfTable_of_primaryKeyOf? (Option.mem_toList.1 h))
  · exact mem_columns_of_table h

end Schema

namespace Analysis

variable (schema : Schema) (program : Program) {tokens others : List Token}

theorem readInto_lower (l : Ledger) (tokens : List Token) :
    readInto l schema (tokens.map Token.lower) program = readInto l schema tokens program := by
  let s : Scene := { program, schema, openings := (Openings.scan l schema program).2, tokens }
  have hfilter := Filter.record_lower s (Openings.scan l schema program).1
  have hsort := Sort.record_lower s (Filter.record s (Openings.scan l schema program).1)
  exact (congrArg (Sort.record s.lower) hfilter).trans hsort

/-- What is found names columns as the schema spells them. -/
theorem readInto_spelled (tokens : List Token) {id : Nat} {u : Usage}
    (hu : (readInto .empty schema tokens program).usage? id = some u) {f : Finding} (hf : u.Has f) :
    f.Spelled schema := by
  have hsighted := readInto_sighted schema tokens program
  rw [hsighted.eq] at hu
  obtain ⟨v, hv, hhas⟩ := Ledger.has_enterAll hu
  rcases (hhas f).1 hf with hf | ⟨n, hn, hgives⟩
  · obtain ⟨use, rfl⟩ := Ledger.scan_unnoted schema program id v hv f hf
    trivial
  · obtain ⟨x, hx, rfl⟩ := List.mem_map.1 hn
    have hentry {j : Nat} (h : (Openings.scan .empty schema program).1.Reaches j id) :
        ∃ w, (Openings.scan .empty schema program).1.usage? j = some w := by
      rcases h with rfl | ho
      · exact ⟨v, hv⟩
      · obtain ⟨w, hw, -⟩ := Ledger.ownerOfIndex?_eq_some ho
        exact ⟨w, hw⟩
    have hfits := hsighted.fits x hx
    have hbegins := hsighted.begins x hx
    generalize hnote : x.note = n at hgives hfits
    cases hgives with
    | column hreaches =>
      obtain ⟨w, hw⟩ := hentry hreaches
      exact Schema.mem_columns_of_entry (hfits w hw)
    | indexColumn hreaches hw hindex => exact Schema.mem_columns_of_entry (hfits _ hw)
    | filter hreaches =>
      obtain ⟨w, hw⟩ := hentry hreaches
      obtain ⟨column, hcolumn, rest, rfl⟩ := hbegins _ _ w hnote hw
      exact ⟨column, Schema.mem_columns_of_entry hcolumn, rest, rfl⟩

/-- The case of letters in the words of a statement is ignored: whatever a ledger has, a program
adds the same to it under every spelling of the statement, and all columns that are found are
spelled as in the schema. -/
theorem letter_case_is_ignored (h : List.Forall₂ Token.SameWord tokens others) :
    (∀ l : Ledger, readInto l schema tokens program = readInto l schema others program) ∧
      ∀ id u f, (readInto .empty schema tokens program).usage? id = some u → u.Has f →
        f.Spelled schema := by
  refine ⟨fun l => ?_, fun id u f hu hf => readInto_spelled schema program tokens hu hf⟩
  rw [← readInto_lower, map_lower_eq h, readInto_lower]

/-- A statement that sorts by a name and tests it for NULL twice, whose words are spelled by `w`,
apart from the second test. -/
def testedTwice (w : String → String) : List Token := [
  .word none (w "select"), .word none (w "name"), .word none (w "from"), .word none (w "users"),
  .word none (w "where"), .word (some .double) (w "name"), .word none (w "is"),
  .word none (w "null"), .word none (w "or"), .word none "name", .word none "isnull",
  .word none (w "order"), .word none (w "by"), .word none (w "name")]

/-- The case of a test for NULL that is repeated in one spelling and in two. -/
theorem letter_case_is_ignored_repeated :
    let users : Table := { name := "Users", rootPage := 2, columns := ["Id", "Name"] }
    let schema : Schema := { tables := [users] }
    let program : Program := ⟨[
      { address := 0, name := "OpenRead", p1 := some "0", p2 := some "2" },
      { address := 1, name := "Rewind", p1 := some "0", p2 := some "6" },
      { address := 2, name := "Column", p1 := some "0", p2 := some "1", p3 := some "1" },
      { address := 3, name := "NotNull", p1 := some "1", p2 := some "5" },
      { address := 4, name := "ResultRow", p1 := some "1", p2 := some "1" },
      { address := 5, name := "Next", p1 := some "0", p2 := some "2" }]⟩
    (Sql.nullTests (testedTwice id)).length = 1 ∧
      (Sql.nullTests (testedTwice upperCase)).length = 2 ∧
      readInto .empty schema (testedTwice id) program =
        readInto .empty schema (testedTwice upperCase) program ∧
      ((readInto .empty schema (testedTwice upperCase) program).usage? 0).map (fun u =>
        (u.filterColumns.toList, u.sortColumns.toList, u.filters.toList)) =
          some (["Name"], ["Name"], ["\"Name\" IS NULL"]) := by
  intro users schema program
  have hwords : List.Forall₂ Token.SameWord (testedTwice id) (testedTwice upperCase) := by
    have hword (quote : Option Sql.Quote) (text : String)
        (h : sameName (id text) (upperCase text) = true) :
        Token.SameWord (.word quote (id text)) (.word quote (upperCase text)) := .word quote h
    refine .cons (hword _ _ ?_) (.cons (hword _ _ ?_) (.cons (hword _ _ ?_) (.cons (hword _ _ ?_)
      (.cons (hword _ _ ?_) (.cons (hword _ _ ?_)
        (.cons (hword _ _ ?_) (.cons (hword _ _ ?_) (.cons (hword _ _ ?_)
        (.cons (.refl _) (.cons (.refl _)
          (.cons (hword _ _ ?_) (.cons (hword _ _ ?_) (.cons (hword _ _ ?_)
          .nil)))))))))))))
    all_goals decide +kernel
  exact ⟨by decide +kernel, by decide +kernel,
    (letter_case_is_ignored schema program hwords).1 .empty, by decide +kernel⟩

end Analysis

end IndexAdvisor
