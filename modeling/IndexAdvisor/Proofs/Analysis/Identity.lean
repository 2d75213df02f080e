import IndexAdvisor.Proofs.Analysis.Bubbling

/-!
# One usage for one object

Entries come into a ledger in three ways: for an object that is opened, for the table of an index
that is opened, and for a usage of a sub-select that has no match. Each way searches in its own
manner before it adds, by name and kind, by the name of the table as the index spells it, and by
name and root page. That the three searches agree is due to the schema: a usage stands for an object
of it (`Usage.Known`), so a name and a kind tell the page, and a name and a page tell the kind.
Hence every ledger whose links are in order is `OnePerObject`, and so is what an analysis returns.
-/

namespace IndexAdvisor

/-- Every usage stands for the table or the index of its name in the schema, on the page that this
has there; no two usages stand for the same one; and an owner is the table of the index that it
owns. -/
structure Ledger.OnePerObject (schema : Schema) (l : Ledger) : Prop where
  unique : (l.usages.map fun u => (nameKey u.name, u.kind)).Nodup
  table : ∀ u ∈ l.usages, u.kind = .table → ∃ t, schema.table? u.name = some t ∧
    t.rootPage = u.rootPage
  index : ∀ u ∈ l.usages, u.kind = .index → ∃ i, schema.index? u.name = some i ∧
    i.rootPage = u.rootPage ∧
    i.table = u.table
  owner : ∀ {id t}, l.owner? id = some t → ∃ u v, l.usage? id = some u ∧ l.usage? t = some v ∧
    u.kind = .index ∧ v.kind = .table ∧ sameName v.name u.table = true

namespace Ledger

variable {schema : Schema} {l : Ledger}

theorem Linked.onePerObject (hs : schema.Distinct) (h : Linked schema l) :
    OnePerObject schema l where
  unique := by
    rw [List.nodup_iff_getElem?_ne_getElem?]
    intro i j hij hj
    rw [List.length_map, length_usages] at hj
    obtain ⟨v, hv⟩ := exists_usage? hj
    obtain ⟨u, hu⟩ := exists_usage? (Nat.lt_trans hij hj)
    rw [List.getElem?_map, List.getElem?_map, usages_getElem?, usages_getElem?, hu, hv,
      Option.map_some, Option.map_some]
    intro heq
    obtain ⟨hname, hkind⟩ := Prod.mk.inj (Option.some.inj heq)
    exact Nat.ne_of_lt hij (h.unique hu hv hkind (sameName_iff.2 hname))
  table u hu hkind := by
    obtain ⟨id, hu⟩ := mem_usages.1 hu
    obtain ⟨t, -, ht, hpage⟩ := (h.known hu).table hkind
    exact ⟨t, ht, hpage⟩
  index u hu hkind := by
    obtain ⟨id, hu⟩ := mem_usages.1 hu
    obtain ⟨-, i, hi, hpage, hname, htable⟩ := (h.known hu).index hkind
    refine ⟨i, ?_, hpage, htable⟩
    rw [← hname]
    exact Schema.index?_of_mem hs.indexes hi
  owner {id t} ho := by
    have hlt : id < l.size := by
      refine Nat.lt_of_not_le fun hge => ?_
      rw [owner?_of_size_le hge] at ho
      cases ho
    obtain ⟨u, hu⟩ := exists_usage? hlt
    obtain ⟨hindex, v, hv, hof, -⟩ := h.owner hu ho
    obtain ⟨hkind, hname⟩ := Usage.isOf_iff.1 hof
    exact ⟨u, v, hu, hv, Usage.isIndex_iff.1 hindex, hkind, hname⟩

end Ledger

namespace Analysis

variable {schema : Schema}

/-- An analysis returns at most one usage for a table or an index, of a program at hand and of a
statement, whatever the text, the program and the answers of the engine. -/
theorem one_usage_per_object (hs : schema.Distinct) (explain : Explain) (subselects : Bool)
    (sql : String) :
    (∀ instrs, (ofExplained schema explain subselects sql instrs).1 =
        (ledger schema explain subselects sql instrs).usages ∧
      (ledger schema explain subselects sql instrs).OnePerObject schema) ∧
    ∀ us, (ofStatement schema explain subselects sql).1 = .ok us →
      ∃ instrs, explain sql = .ok instrs ∧
      us = (ledger schema explain subselects sql instrs).usages ∧
      (ledger schema explain subselects sql instrs).OnePerObject schema := by
  have hone (instrs : List Instr) :
      (ledger schema explain subselects sql instrs).OnePerObject schema := by
    obtain ⟨l, hl, hledger⟩ := ledger_reached schema explain subselects sql instrs
    rw [hledger]
    exact (Ledger.judge_linked (hl.linked hs)).onePerObject hs
  constructor
  · intro instrs
    exact ⟨ofExplained_usages .., hone instrs⟩
  · intro us hus
    obtain ⟨instrs, hinstrs, rfl⟩ := ofStatement_eq_ok_iff.1 hus
    exact ⟨instrs, hinstrs, rfl, hone instrs⟩

/-- A table that shares its name with an index, an index that spells the name of its table in its
own way, and another index on the page of the table. The statement opens the table, its sub-select
the page of the first index; two usages come out, and the table is the owner of the index. -/
theorem one_usage_per_object_shared_name :
    let items : Table := { name := "items", rootPage := 2, columns := ["a", "b"] }
    let namesake : Index := { name := "Items", table := "ITEMS", rootPage := 3, columns := ["a"] }
    let hidden : Index := { name := "hidden", table := "items", rootPage := 2, columns := ["b"] }
    let schema : Schema := { tables := [items], indexes := [namesake, hidden] }
    let sql := "SELECT 1 FROM items WHERE EXISTS (SELECT 1 FROM items WHERE a = 7)"
    let outer : List Instr := [{ address := 0, name := "OpenRead", p1 := some "0", p2 := some "2" }]
    let inner : List Instr := [
      { address := 0, name := "OpenRead", p1 := some "1", p2 := some "3" },
      { address := 1, name := "Integer", p1 := some "7", p2 := some "1" },
      { address := 2, name := "SeekGE", p1 := some "1", p3 := some "1", p4 := some "1" }]
    let explain : Explain := fun s => .ok (if s = sql then outer else inner)
    let found := ledger schema explain true sql outer
    schema.Distinct ∧ (ofStatement schema explain true sql).1 = .ok found.usages ∧
      found.usages.map (fun u => (u.name, u.kind, u.rootPage)) =
        [("items", .table, 2), ("Items", .index, 3)] ∧
      found.owner? 1 = some 0 ∧
      ∃ instrs, explain sql = .ok instrs ∧
        found.usages = (ledger schema explain true sql instrs).usages ∧
        (ledger schema explain true sql instrs).OnePerObject schema := by
  intro items namesake hidden schema sql outer inner explain found
  have hs : schema.Distinct := ⟨List.nodup_singleton _, by decide +kernel⟩
  have hexplain : explain sql = .ok outer := congrArg Except.ok (if_pos rfl)
  have hok : (ofStatement schema explain true sql).1 = .ok found.usages :=
    ofStatement_eq_ok_iff.2 ⟨outer, hexplain, rfl⟩
  refine ⟨hs, hok, ?_, ?_, (one_usage_per_object hs explain true sql).2 _ hok⟩
  · decide +kernel
  · decide +kernel

end Analysis

end IndexAdvisor
