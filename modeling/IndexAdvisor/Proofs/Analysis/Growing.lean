import IndexAdvisor.Proofs.Analysis.Reached
import IndexAdvisor.Proofs.Covering.Judging
import IndexAdvisor.Proofs.Ledger.Union

/-!
# What sub-selects add

An analysis with sub-selects is one without them, grown: merging is all that is done for a
sub-select, each merge lets the ledger grow (`Ledger.merge_growsTo`), and judging touches no
finding. So whoever turns sub-selects on sees each usage at its old place, and in each of its sets
first what was there before.

Each merge is an ordered union where the sub-select holds no object twice
(`Ledger.merge_orderedUnion`).
-/

namespace IndexAdvisor

/-! ## Judging -/

namespace Covering

theorem growsTo_judge (schema : Schema) (u : Usage) : u.GrowsTo (judge schema u) := by
  unfold judge
  extract_lets joined
  have hjoined : u.GrowsTo joined := { Usage.GrowsTo.refl u with }
  split
  · exact hjoined
  · split
    · exact hjoined
    · exact { hjoined with }

theorem judge_growsTo (schema : Schema) (u : Usage) : (judge schema u).GrowsTo u := by
  unfold judge
  extract_lets joined
  have hjoined : joined.GrowsTo u := { Usage.GrowsTo.refl u with }
  split
  · exact hjoined
  · split
    · exact hjoined
    · exact { hjoined with }

end Covering

theorem Ledger.GrowsTo.judge {l k : Ledger} (h : l.GrowsTo k) (schema : Schema) :
    (l.judge schema).GrowsTo (k.judge schema) where
  usage {id u} hu := by
    rw [Ledger.judge, usage?_mapUsages] at hu
    obtain ⟨v, hv, rfl⟩ := Option.map_eq_some_iff.1 hu
    obtain ⟨w, hw, hvw⟩ := h.usage hv
    refine ⟨Covering.judge schema w,
      by rw [Ledger.judge, usage?_mapUsages, hw, Option.map_some], ?_⟩
    exact ((Covering.judge_growsTo schema v).trans hvw).trans (Covering.growsTo_judge schema w)
  owner ho := by
    rw [Ledger.judge, owner?_mapUsages] at ho ⊢
    exact h.owner ho

namespace Analysis

variable {schema : Schema}

/-! ## Sub-selects -/

/-- Reading the sub-selects adds to what the statement itself has, at every depth and whatever the
engine answers. -/
theorem read_growsTo (schema : Schema) (explain : Explain) (depth : Nat) (sql : String)
    (instrs : List Instr) :
    (read schema sql instrs).GrowsTo (readWithin schema explain depth sql instrs).1 := by
  cases depth with
  | zero => exact .refl _
  | succ depth =>
    apply Ledger.growsTo_foldl
    rintro l ⟨part, answer⟩
    cases answer with
    | none => exact .refl l
    | some found => exact Ledger.merge_growsTo l found.1

theorem ledger_growsTo (schema : Schema) (explain : Explain) (sql : String) (instrs : List Instr) :
    (ledger schema explain false sql instrs).GrowsTo (ledger schema explain true sql instrs) :=
  (read_growsTo schema explain _ sql instrs).judge schema

/-! ## The results -/

/-- A merge is an ordered union that leaves the enclosing statement as it is, up to what it appends;
and with sub-selects an analysis returns, at the place of each usage that it returns without them,
this usage grown. -/
theorem subselects_are_united (schema : Schema) (explain : Explain) (sql : String) :
    (∀ parent sub : Ledger, (sub.usages.Pairwise fun u v => ¬Merge.Matches u v) →
      Ledger.OrderedUnion parent sub (parent.merge sub)) ∧
    (∀ (instrs : List Instr) (i : Nat) (u : Usage),
      (ofExplained schema explain false sql instrs).1[i]? = some u →
      ∃ v, (ofExplained schema explain true sql instrs).1[i]? = some v ∧ u.GrowsTo v) ∧
    ∀ us, (ofStatement schema explain false sql).1 = .ok us →
      ∃ vs, (ofStatement schema explain true sql).1 = .ok vs ∧
        ∀ (i : Nat) (u : Usage), us[i]? = some u → ∃ v, vs[i]? = some v ∧ u.GrowsTo v := by
  have hgrows (instrs : List Instr) (i : Nat) (u : Usage)
      (hu : (ledger schema explain false sql instrs).usages[i]? = some u) :
      ∃ v, (ledger schema explain true sql instrs).usages[i]? = some v ∧ u.GrowsTo v := by
    rw [Ledger.usages_getElem?] at hu ⊢
    exact (ledger_growsTo schema explain sql instrs).usage hu
  refine ⟨fun parent sub hsub => Ledger.merge_orderedUnion hsub, fun instrs => ?_, fun us hus => ?_⟩
  · rw [ofExplained_usages, ofExplained_usages]
    exact hgrows instrs
  · obtain ⟨instrs, hinstrs, rfl⟩ := ofStatement_eq_ok_iff.1 hus
    exact ⟨_, ofStatement_eq_ok_iff.2 ⟨instrs, hinstrs, rfl⟩, hgrows instrs⟩

/-- A statement that opens a table, and a sub-select that opens an index of it. The merge finds the
table and appends the index; the statement alone has the table only. -/
theorem subselects_are_united_index :
    let items : Table := { name := "items", rootPage := 2, columns := ["a", "b"] }
    let byA : Index := { name := "by_a", table := "items", rootPage := 3, columns := ["a"] }
    let schema : Schema := { tables := [items], indexes := [byA] }
    let part := "SELECT 1 FROM items WHERE a = 7"
    let sql := "SELECT 1 FROM items WHERE EXISTS (SELECT 1 FROM items WHERE a = 7)"
    let outer : List Instr := [{ address := 0, name := "OpenRead", p1 := some "0", p2 := some "2" }]
    let inner : List Instr := [
      { address := 0, name := "OpenRead", p1 := some "1", p2 := some "3" },
      { address := 1, name := "Integer", p1 := some "7", p2 := some "1" },
      { address := 2, name := "SeekGE", p1 := some "1", p3 := some "1", p4 := some "1" }]
    let explain : Explain := fun s => .ok (if s = sql then outer else inner)
    let parent := read schema sql outer
    let sub := read schema part inner
    let found := fun u : Usage => (u.name, u.filterColumns.toList)
    ((sub.usages.Pairwise fun u v => ¬Merge.Matches u v) ∧
      Ledger.OrderedUnion parent sub (parent.merge sub)) ∧
      (parent.merge sub).usages.map found = [("items", ["a"]), ("by_a", ["a"])] ∧
      ∃ us vs, ((ofStatement schema explain false sql).1 = .ok us ∧
        us.map found = [("items", [])]) ∧
        (ofStatement schema explain true sql).1 = .ok vs ∧
        ∀ (i : Nat) (u : Usage), us[i]? = some u → ∃ v, vs[i]? = some v ∧ u.GrowsTo v := by
  intro items byA schema part sql outer inner explain parent sub found
  obtain ⟨hunion, -, hstatement⟩ := subselects_are_united schema explain sql
  have hsub : sub.usages.Pairwise fun u v => ¬Merge.Matches u v := by decide +kernel
  have hexplain : explain sql = .ok outer := congrArg Except.ok (if_pos rfl)
  have hus : (ofStatement schema explain false sql).1 =
      .ok (ledger schema explain false sql outer).usages :=
    ofStatement_eq_ok_iff.2 ⟨outer, hexplain, rfl⟩
  obtain ⟨vs, hvs, hgrows⟩ := hstatement _ hus
  exact ⟨⟨hsub, hunion parent sub hsub⟩, by decide +kernel, _, vs,
    ⟨hus, by decide +kernel⟩, hvs, hgrows⟩

end Analysis

end IndexAdvisor
