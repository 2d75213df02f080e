import IndexAdvisor.Proofs.Ledger.View
import Mathlib.Data.List.Nodup

/-!
# Names that stand for one object

A schema is `Distinct` when no two of its tables and no two of its indexes have the same name. Then
a usage that was made from the schema (`Usage.Known`) can be told apart by its name and kind, and by
its name and root page as well: of one name and kind there is one page (`Known.rootPage_eq`), and a
table and an index never share a name and a page (`Known.kind_eq`), because a page that both claim
is taken for the table's.
-/

namespace IndexAdvisor

/-- No two tables have one name, and no two indexes, whatever the case of the letters. -/
structure Schema.Distinct (s : Schema) : Prop where
  tables : (s.tables.map (nameKey ·.name)).Nodup
  indexes : (s.indexes.map (nameKey ·.name)).Nodup

theorem sameName_symm {a b : String} (h : sameName a b = true) : sameName b a = true := by
  rw [sameName_comm]; exact h

/-- In a list without two elements of one name, the first of a name is the only one. -/
theorem eq_of_sameName {α : Type} {name : α → String} {as : List α} {a b : α}
    (h : (as.map (nameKey <| name ·)).Nodup) (ha : a ∈ as) (hb : b ∈ as)
    (hab : sameName (name a) (name b) = true) : a = b :=
  List.inj_on_of_nodup_map h ha hb (sameName_iff.1 hab)

namespace Schema

variable {s : Schema} {page : Nat} {object : SchemaObject}

/-- Looking a table up does not depend on how its name is spelled. -/
theorem table?_congr (s : Schema) {a b : String} (h : sameName a b = true) :
    s.table? a = s.table? b := by
  have hkey : (sameName ·.name a : Table → Bool) = (sameName ·.name b) := by
    funext t
    simp only [sameName, sameName_iff.1 h]
  simp only [table?, hkey]

theorem table?_of_mem (hs : s.Distinct) {t : Table} (ht : t ∈ s.tables) :
    s.table? t.name = some t := by
  rcases hf : s.tables.find? (sameName ·.name t.name) with _ | t'
  · exact absurd (sameName_refl t.name) (by simpa using List.find?_eq_none.1 hf t ht)
  · have hsame := List.find?_some hf
    rw [table?, hf, eq_of_sameName hs.tables (List.mem_of_find?_eq_some hf) ht hsame]

theorem index?_of_mem (hs : (s.indexes.map (nameKey ·.name)).Nodup) {i : Index}
    (hi : i ∈ s.indexes) :
    s.index? i.name = some i := by
  rcases hf : s.indexes.find? (sameName ·.name i.name) with _ | i'
  · exact absurd (sameName_refl i.name) (by simpa using List.find?_eq_none.1 hf i hi)
  · have hsame := List.find?_some hf
    rw [index?, hf, eq_of_sameName hs (List.mem_of_find?_eq_some hf) hi hsame]

/-- A page leads to a table, or to an index if no table stands on it. -/
theorem objectAt?_cases (h : s.objectAt? page = some object) :
    (∃ t ∈ s.tables, t.rootPage = page ∧ object = ⟨t.name, .table, "", page⟩) ∨
    ((∀ t ∈ s.tables, t.rootPage ≠ page) ∧
      ∃ i ∈ s.indexes, i.rootPage = page ∧ object = ⟨i.name, .index, i.table, page⟩) := by
  unfold objectAt? at h
  split at h
  · next t ht =>
    have hpage : t.rootPage = page := by simpa using List.find?_some ht
    exact .inl ⟨t, List.mem_of_find?_eq_some ht, hpage, (Option.some.inj h).symm⟩
  · next hnone =>
    obtain ⟨i, hi, hobject⟩ := Option.map_eq_some_iff.1 h
    have hpage : i.rootPage = page := by simpa using List.find?_some hi
    refine .inr ⟨fun t ht => ?_, i, List.mem_of_find?_eq_some hi, hpage, hobject.symm⟩
    simpa using List.find?_eq_none.1 hnone t ht

end Schema

namespace Usage

/-- A usage of an object that the schema knows, under its name and on its page. The page of an index
must lead to the index itself. -/
def Known (schema : Schema) (u : Usage) : Prop :=
  match u.kind with
  | .table => schema.rootPageOf? u.name = some u.rootPage
  | .index => schema.objectAt? u.rootPage = some ⟨u.name, .index, u.table, u.rootPage⟩

variable {schema : Schema} {u v : Usage}

theorem Known.of_bare_eq (h : u.Known schema) (hb : v.bare = u.bare) : v.Known schema := by
  obtain ⟨-, hpage, hkind, hname, htable⟩ := bare_eq_iff.1 hb
  unfold Known at h ⊢
  rw [hkind, hname, htable, hpage]
  exact h

theorem isOf_of_bare_eq (hb : v.bare = u.bare) (name : String) (kind : ObjectKind) :
    v.isOf name kind = u.isOf name kind := by
  obtain ⟨-, -, hkind, hname, -⟩ := bare_eq_iff.1 hb
  rw [isOf, isOf, hkind, hname]

theorem isIndex_of_bare_eq (hb : v.bare = u.bare) : v.isIndex = u.isIndex := by
  obtain ⟨-, -, hkind, -⟩ := bare_eq_iff.1 hb
  rw [isIndex, isIndex, hkind]

theorem isIndex_iff : u.isIndex = true ↔ u.kind = .index := by simp [isIndex]

theorem isOf_iff {name : String} {kind : ObjectKind} :
    u.isOf name kind = true ↔ u.kind = kind ∧ sameName u.name name = true := by
  simp [isOf]

theorem isIndex_of_isOf_table {name : String} (h : u.isOf name .table = true) :
    u.isIndex = false := by
  rw [isIndex, (isOf_iff.1 h).1]; rfl

/-- A known table stands in the schema, and on the page where it stands there. -/
theorem Known.table (h : u.Known schema) (hk : u.kind = .table) :
    ∃ t ∈ schema.tables, schema.table? u.name = some t ∧ t.rootPage = u.rootPage := by
  simp only [Known, hk] at h
  obtain ⟨t, ht, hpage⟩ := Option.map_eq_some_iff.1 h
  exact ⟨t, List.mem_of_find?_eq_some ht, ht, hpage⟩

theorem Known.table?_isSome (h : u.Known schema) {name : String} (hof : u.isOf name .table = true) :
    (schema.table? name).isSome = true := by
  obtain ⟨hkind, hname⟩ := isOf_iff.1 hof
  obtain ⟨t, -, ht, -⟩ := h.table hkind
  rw [← Schema.table?_congr schema hname, ht]
  rfl

/-- A known index stands in the schema, on a page that no table has. -/
theorem Known.index (h : u.Known schema) (hk : u.kind = .index) :
    (∀ t ∈ schema.tables, t.rootPage ≠ u.rootPage) ∧
      ∃ i ∈ schema.indexes, i.rootPage = u.rootPage ∧ i.name = u.name ∧ i.table = u.table := by
  simp only [Known, hk] at h
  rcases Schema.objectAt?_cases h with ⟨t, -, -, heq⟩ | ⟨hno, i, hi, hpage, heq⟩
  · rw [SchemaObject.mk.injEq] at heq
    cases heq.2.1
  · rw [SchemaObject.mk.injEq] at heq
    exact ⟨hno, i, hi, hpage, heq.1.symm, heq.2.2.1.symm⟩

/-- Of one name and kind there is one page. -/
theorem Known.rootPage_eq (hs : schema.Distinct) (hu : u.Known schema) (hv : v.Known schema)
    (hkind : u.kind = v.kind) (hname : sameName u.name v.name = true) :
    u.rootPage = v.rootPage := by
  rcases hk : v.kind with _ | _
  · obtain ⟨t, -, ht, htp⟩ := hu.table (hkind.trans hk)
    obtain ⟨t', -, ht', htp'⟩ := hv.table hk
    rw [Schema.table?_congr schema hname, ht'] at ht
    rw [← htp, ← htp', Option.some.inj ht]
  · obtain ⟨-, i, hi, hip, hin, -⟩ := hu.index (hkind.trans hk)
    obtain ⟨-, i', hi', hip', hin', -⟩ := hv.index hk
    rw [← hip, ← hip', eq_of_sameName hs.indexes hi hi' (by rw [hin, hin']; exact hname)]

/-- Usages of one page are of one kind. -/
theorem Known.kind_eq (hu : u.Known schema) (hv : v.Known schema)
    (hpage : u.rootPage = v.rootPage) :
    u.kind = v.kind := by
  rcases hku : u.kind with _ | _ <;> rcases hkv : v.kind with _ | _
  · rfl
  · obtain ⟨t, ht, -, htp⟩ := hu.table hku
    exact absurd (htp.trans hpage) ((hv.index hkv).1 t ht)
  · obtain ⟨t, ht, -, htp⟩ := hv.table hkv
    exact absurd (htp.trans hpage.symm) ((hu.index hku).1 t ht)
  · rfl

/-- The page of an index tells the index and its table. -/
theorem Known.index_eq (hu : u.Known schema) (hv : v.Known schema) (hk : v.kind = .index)
    (hpage : u.rootPage = v.rootPage) : u.name = v.name ∧ u.table = v.table := by
  have hku := (hu.kind_eq hv hpage).trans hk
  simp only [Known, hku, hk, hpage] at hu hv
  rw [hv, Option.some.injEq, SchemaObject.mk.injEq] at hu
  exact ⟨hu.1.symm, hu.2.2.1.symm⟩

end Usage

end IndexAdvisor
