import IndexAdvisor.Proofs.Analysis.Reached
import IndexAdvisor.Proofs.Covering.Judging

/-!
# Findings bubble to the owning table

What an analysis returns for an index it returns for the table of the index too. Every ledger that
an analysis comes to has its links in order (`Reached.linked`), whatever the engine answers. Judging
adds to a ledger but takes nothing away (`judge_has`), and in a ledger whose links are in order

> `Bubbled`: an index of a table that the schema knows has that table beside it, and the table has
> all columns and comparisons of the index and the index itself among those used.
-/

namespace IndexAdvisor

/-- Every index of a table that the schema knows has its table beside it, with all that was found
for the index. -/
def Bubbled (schema : Schema) (us : List Usage) : Prop :=
  ∀ i ∈ us, i.isIndex = true → (schema.table? i.table).isSome = true →
    (∃ t ∈ us, t.isOf i.table .table = true) ∧
    ∀ t ∈ us, t.isOf i.table .table = true →
      (∀ c ∈ i.filterColumns.toList, c ∈ t.filterColumns.toList) ∧
      (∀ c ∈ i.sortColumns.toList, c ∈ t.sortColumns.toList) ∧
      (∀ e ∈ i.filters.toList, e ∈ t.filters.toList) ∧
      (∀ c ∈ i.filterIndexColumns.toList, c ∈ t.filterIndexColumns.toList) ∧
      (∀ c ∈ i.sortIndexColumns.toList, c ∈ t.sortIndexColumns.toList) ∧
      ⟨i.cursor, i.name⟩ ∈ t.indexes.toList

namespace Ledger

variable {schema : Schema} {l : Ledger}

theorem skeleton_judge (l : Ledger) (schema : Schema) : (l.judge schema).skeleton = l.skeleton := by
  have hbare (e : Entry) : (Covering.judge schema e.usage).bare = e.usage.bare :=
    Covering.bare_judge schema e.usage
  simp only [skeleton, judge, mapUsages, List.map_map, Function.comp_def, hbare]

theorem judge_linked (h : Linked schema l) : Linked schema (l.judge schema) := by
  apply h.of_skeleton_eq (skeleton_judge l schema) (fun _ hp => hp.elim)
  intro id t u v hu ho hv
  rw [owner?_of_skeleton_eq (skeleton_judge l schema)] at ho
  rw [judge, usage?_mapUsages] at hu hv
  obtain ⟨u', hu', rfl⟩ := Option.map_eq_some_iff.1 hu
  obtain ⟨v', hv', rfl⟩ := Option.map_eq_some_iff.1 hv
  obtain ⟨-, w, hw, -, hreflects, hnoted⟩ := h.owner hu' ho
  obtain rfl := Option.some.inj (hv'.symm.trans hw)
  obtain ⟨hcursor, -, -, hname, -⟩ := Usage.bare_eq_iff.1 (Covering.bare_judge schema u')
  constructor
  · intro f hf hhas
    rw [Covering.judge_has] at hhas ⊢
    exact hreflects f hf hhas
  · rw [Covering.judge_has, hcursor, hname]
    exact hnoted not_false

/-- The usages of a ledger whose links are in order. -/
theorem Linked.bubbled (h : Linked schema l) : Bubbled schema l.usages := by
  intro i hi hindex hknown
  obtain ⟨id, hi⟩ := mem_usages.1 hi
  rcases h.owned hi hindex hknown with ho | hno
  · obtain ⟨t, ho⟩ := Option.isSome_iff_exists.1 ho
    obtain ⟨-, v, hv, hof, hreflects, hnoted⟩ := h.owner hi ho
    refine ⟨⟨v, mem_usages.2 ⟨t, hv⟩, hof⟩, fun w hw hwof => ?_⟩
    obtain ⟨s, hw⟩ := mem_usages.1 hw
    obtain rfl := h.table_unique hv hof hw hwof
    obtain rfl := Option.some.inj (hv.symm.trans hw)
    refine ⟨?_, ?_, ?_, ?_, ?_, hnoted not_false⟩
    · exact fun c hc => hreflects (.column .filter c) nofun hc
    · exact fun c hc => hreflects (.column .sort c) nofun hc
    · exact fun e he => hreflects (.filter e) nofun he
    · exact fun c hc => hreflects (.indexColumn .filter c) nofun hc
    · exact fun c hc => hreflects (.indexColumn .sort c) nofun hc
  · exact hno.1.elim

end Ledger

namespace Analysis

variable {schema : Schema}

theorem ofExplained_bubbled (hs : schema.Distinct) (explain : Explain) (subselects : Bool)
    (sql : String) (instrs : List Instr) :
    Bubbled schema (ofExplained schema explain subselects sql instrs).1 := by
  obtain ⟨l, hl, husages⟩ := ofExplained_reached schema explain subselects sql instrs
  rw [husages]
  exact (Ledger.judge_linked (hl.linked hs)).bubbled

/-- The findings of every index bubble to its table, in all usages that an analysis returns: of a
program at hand, and of a statement. -/
theorem findings_bubble (hs : schema.Distinct) (explain : Explain) (subselects : Bool)
    (sql : String) :
    (∀ instrs, Bubbled schema (ofExplained schema explain subselects sql instrs).1) ∧
      ∀ us, (ofStatement schema explain subselects sql).1 = .ok us → Bubbled schema us := by
  refine ⟨ofExplained_bubbled hs explain subselects sql, fun us hus => ?_⟩
  unfold ofStatement at hus
  split at hus
  · cases hus
  · next instrs _ =>
    obtain rfl := Except.ok.inj hus
    exact ofExplained_bubbled hs explain subselects sql instrs

/-- The case of a statement whose sub-select searches an index, while its own program does so
too. -/
theorem findings_bubble_subselect :
    let users : Table := { name := "users", rootPage := 2, columns := ["id", "name"] }
    let byName : Index :=
      { name := "users_name", table := "Users", rootPage := 3, columns := ["name"] }
    let schema : Schema := { tables := [users], indexes := [byName] }
    let instrs : List Instr := [
      { address := 0, name := "OpenRead", p1 := some "1", p2 := some "3" },
      { address := 1, name := "String8", p2 := some "1", p4 := some "ann" },
      { address := 2, name := "SeekGE", p1 := some "1", p3 := some "1", p4 := some "1" },
      { address := 3, name := "IdxGT", p1 := some "1", p3 := some "1", p4 := some "1" }]
    let sql := "SELECT 1 WHERE EXISTS (SELECT 1 FROM users WHERE name = 'ann')"
    schema.Distinct ∧ ∃ us, (ofStatement schema (fun _ => .ok instrs) true sql).1 = .ok us ∧
      (us.find? Usage.isIndex).map (·.filters.toList) = some ["\"name\"='ann'"] ∧
        Bubbled schema us := by
  intro users byName schema instrs sql
  have hs : schema.Distinct := ⟨List.nodup_singleton _, List.nodup_singleton _⟩
  refine ⟨hs, _, rfl, ?_, (findings_bubble hs (fun _ => .ok instrs) true sql).2 _ rfl⟩
  decide +kernel

end Analysis

end IndexAdvisor
