import IndexAdvisor.Proofs.Covering.Judging
import IndexAdvisor.Proofs.Schema.Known
import Mathlib.Data.List.Forall2

/-!
# What a verdict says

An index qualifies for a table and some wanted columns if it is an index of the table and its
columns are the wanted ones, place by place. The verdict on a usage is said in these terms
(`Verdict`): if some index of the schema qualifies, the usage is covered by the first one, those in
use first, and there is nothing to suggest; if none does, the usage is not covered, and an index is
suggested exactly if there is something to cover.

`covering?_some` and `covering?_none` read the search for shapes back into the schema: a shape is an
index there, because no two indexes have one name. `judge_verdict` puts them together.
-/

namespace IndexAdvisor

namespace OrderedSet

variable {α β : Type} [DecidableEq α] [DecidableEq β]

/-- Repeats stay repeats under an injective change. -/
theorem toList_insertAll_map {f : α → β} (hf : ∀ a b, f a = f b → a = b) (s : OrderedSet α)
    {t : OrderedSet β} (h : t.toList = s.toList.map f) (as : List α) :
    (t.insertAll (as.map f)).toList = (s.insertAll as).toList.map f := by
  unfold insertAll
  induction as generalizing s t with
  | nil => exact h
  | cons a as ih =>
    rw [List.map_cons, List.foldl_cons, List.foldl_cons]
    apply ih
    have hmem : f a ∈ s.toList.map f ↔ a ∈ s.toList := by
      constructor
      · intro hfa
        obtain ⟨b, hb, hba⟩ := List.mem_map.1 hfa
        rw [← hf b a hba]
        exact hb
      · exact List.mem_map_of_mem
    rw [toList_insert, toList_insert, h]
    by_cases ha : a ∈ s.toList
    · rw [if_pos (hmem.2 ha), if_pos ha]
    · rw [if_neg fun hfa => ha (hmem.1 hfa), if_neg ha, List.map_append]
      rfl

end OrderedSet

namespace Covering

variable {schema : Schema} {table : String} {wanted : List String} {uses : List IndexUse}
  {i j : Index} {u : Usage} {shape : IndexShape}

/-! ## Indexes that qualify -/

/-- An index of a table whose columns are the wanted ones, place by place. -/
def Qualifies (table : String) (wanted : List String) (i : Index) : Prop :=
  sameName i.table table = true ∧ wanted ≠ [] ∧
    List.Forall₂ (fun a b => sameName a b = true) wanted i.columns

/-- No index in use qualifies. -/
def NoneUsed (schema : Schema) (table : String) (wanted : List String) (uses : List IndexUse) :
    Prop :=
  ∀ use ∈ uses, ∀ i ∈ schema.indexes, sameName i.name use.index = true → ¬Qualifies table wanted i

/-- The first index in use that qualifies. -/
def FirstUsed (schema : Schema) (table : String) (wanted : List String) (uses : List IndexUse)
    (i : Index) : Prop :=
  ∃ before use after, uses = before ++ use :: after ∧ i ∈ schema.indexes ∧
    sameName i.name use.index = true ∧ Qualifies table wanted i ∧
      NoneUsed schema table wanted before

/-- The first index of the schema that qualifies. -/
def FirstDeclared (schema : Schema) (table : String) (wanted : List String) (i : Index) : Prop :=
  ∃ before after, schema.indexes = before ++ i :: after ∧ Qualifies table wanted i ∧
    ∀ j ∈ before, ¬Qualifies table wanted j

/-- What the search should find: the first index in use that qualifies, or else the first one of the
schema. -/
def FirstChoice (schema : Schema) (table : String) (wanted : List String) (uses : List IndexUse)
    (i : Index) : Prop :=
  FirstUsed schema table wanted uses i ∨
    NoneUsed schema table wanted uses ∧ FirstDeclared schema table wanted i

theorem covers_iff {columns : List String} :
    covers wanted columns = true ↔
      List.Forall₂ (fun a b => sameName a b = true) wanted columns := by
  rw [covers, Bool.and_eq_true, beq_iff_eq, List.all_eq_true, List.forall₂_iff_zip]
  constructor
  · rintro ⟨hlength, hall⟩
    exact ⟨hlength, fun h => hall _ h⟩
  · rintro ⟨hlength, hall⟩
    exact ⟨hlength, fun c hc => hall hc⟩

/-! ## Shapes are indexes -/

/-- An index as a shape. -/
def shapeOf (i : Index) : IndexShape := ⟨i.name, i.columns⟩

variable (hnames : (schema.indexes.map (nameKey ·.name)).Nodup)
include hnames

theorem shapesOf_eq (table : String) :
    shapesOf schema table = (schema.indexesOf table).map shapeOf := by
  rw [shapesOf, Schema.indexNamesOf, List.map_map]
  apply List.map_congr_left
  intro i hi
  have hcolumns : schema.columnsOfIndex i.name = i.columns := by
    rw [Schema.columnsOfIndex, Schema.index?_of_mem hnames (List.mem_of_mem_filter hi)]
    rfl
  rw [Function.comp_apply, hcolumns]
  rfl

theorem find?_shapesOf (table : String) (p : IndexShape → Bool) :
    (shapesOf schema table).find? p =
      (schema.indexes.find? fun i => sameName i.table table && p (shapeOf i)).map shapeOf := by
  rw [shapesOf_eq hnames, List.find?_map, Schema.indexesOf, List.find?_filter]
  congr 2
  funext i
  rw [Function.comp_apply, Bool.decide_and, Bool.decide_eq_true, Bool.decide_eq_true]

/-- A shape is found by its name if its table has an index of that name. -/
theorem find?_shapesOf_name (hi : i ∈ schema.indexes) (htable : sameName i.table table = true)
    {name : String} (hname : sameName i.name name = true) :
    (shapesOf schema table).find? (sameName ·.name name) = some (shapeOf i) := by
  rw [find?_shapesOf hnames]
  rcases hfind : schema.indexes.find? fun i => sameName i.table table &&
    sameName (shapeOf i).name name with
    _ | j
  · have hno := List.find?_eq_none.1 hfind i hi
    rw [htable, shapeOf, hname] at hno
    exact absurd rfl hno
  · have hj := List.find?_some hfind
    obtain ⟨-, hjname⟩ := (Bool.and_eq_true ..).mp hj
    have hsame : sameName j.name i.name = true := sameName_trans hjname (sameName_symm hname)
    rw [hfind, eq_of_sameName hnames (List.mem_of_find?_eq_some hfind) hi hsame, Option.map_some]

/-- No shape in use covers the wanted columns: no index in use qualifies. -/
theorem noneUsed (h : ∀ use ∈ uses, ((shapesOf schema table).find? (sameName ·.name use.index)).any
      (fun shape => covers wanted shape.columns) = false) : NoneUsed schema table wanted uses := by
  intro use huse i hi hname hqualifies
  have hno := h use huse
  rw [find?_shapesOf_name hnames hi hqualifies.1 hname, Option.any_some, shapeOf,
    covers_iff.2 hqualifies.2.2] at hno
  cases hno

/-- What the search for a covering index finds is the first choice. -/
theorem covering?_some (h : covering? u (shapesOf schema u.name) = some shape) :
    ∃ i, shape = shapeOf i ∧ i ∈ schema.indexes ∧
      FirstChoice schema u.name u.columns.toList u.indexes.toList i := by
  rw [covering?] at h
  split at h
  · cases h
  next hempty =>
  have hwanted : u.columns.toList ≠ [] := by
    intro hnil
    rw [OrderedSet.isEmpty, hnil] at hempty
    exact hempty rfl
  rw [List.find?_append, shapesInUse, List.find?_filterMap] at h
  rcases huse : u.indexes.toList.find? (fun use =>
      ((shapesOf schema u.name).find? (sameName ·.name use.index)).any
        fun shape => covers u.columns.toList shape.columns) with _ | use
  · -- no index in use qualifies, so the shape is the first of the table
    rw [huse, Option.bind_none, Option.none_or, find?_shapesOf hnames] at h
    obtain ⟨i, hfind, rfl⟩ := Option.map_eq_some_iff.1 h
    obtain ⟨hi, before, after, hsplit, hbefore⟩ := List.find?_eq_some_iff_append.1 hfind
    obtain ⟨htable, hcovers⟩ := (Bool.and_eq_true ..).mp hi
    refine ⟨i, rfl, List.mem_of_find?_eq_some hfind, .inr ⟨?_, before, after, hsplit, ?_, ?_⟩⟩
    · apply noneUsed hnames
      intro use hmem
      have hno := List.find?_eq_none.1 huse use hmem
      rw [Bool.not_eq_true] at hno
      exact hno
    · exact ⟨htable, hwanted, covers_iff.1 hcovers⟩
    · intro j hj hqualifies
      have hno := hbefore j hj
      rw [hqualifies.1, shapeOf, covers_iff.2 hqualifies.2.2] at hno
      cases hno
  · -- some index in use qualifies, and the shape is that of the first one
    rw [huse, Option.bind_some] at h
    obtain ⟨hany, before, after, hsplit, hbefore⟩ := List.find?_eq_some_iff_append.1 huse
    obtain ⟨found, hfound, hcovers⟩ := (Option.any_eq_true ..).mp hany
    rw [hfound, Option.some_or] at h
    obtain rfl := Option.some.inj h
    rw [find?_shapesOf hnames] at hfound
    obtain ⟨i, hfind, rfl⟩ := Option.map_eq_some_iff.1 hfound
    have hboth := List.find?_some hfind
    obtain ⟨htable, hname⟩ := (Bool.and_eq_true ..).mp hboth
    have hi := List.mem_of_find?_eq_some hfind
    refine ⟨i, rfl, hi, .inl ⟨before, use, after, hsplit, hi, hname, ?_, ?_⟩⟩
    · exact ⟨htable, hwanted, covers_iff.1 hcovers⟩
    · apply noneUsed hnames
      intro earlier hearlier
      have hno := hbefore earlier hearlier
      rw [Bool.not_eq_true'] at hno
      exact hno

/-- If nothing is found, no index qualifies. -/
theorem covering?_none (h : covering? u (shapesOf schema u.name) = none) (hi : i ∈ schema.indexes) :
    ¬Qualifies u.name u.columns.toList i := by
  rintro ⟨htable, hwanted, hcolumns⟩
  rw [covering?] at h
  split at h
  · next hempty =>
    rw [OrderedSet.isEmpty, List.isEmpty_iff] at hempty
    exact hwanted hempty
  · rw [List.find?_append, Option.or_eq_none_iff, find?_shapesOf hnames,
      Option.map_eq_none_iff] at h
    have hno := List.find?_eq_none.1 h.2 i hi
    rw [htable, shapeOf, covers_iff.2 hcolumns] at hno
    exact hno rfl

/-! ## Verdicts -/

omit hnames

/-- An index is suggested for a table that is not covered and has columns to cover. -/
theorem suggestion?_eq_some_iff {ddl : String} : suggestion? u = some ddl ↔
    u.isIndex = false ∧ u.coveringIndex = "" ∧ u.columns.toList ≠ [] ∧
      ddl = createIndex u.name u.columns.toList := by
  rw [suggestion?, OrderedSet.isEmpty, ← String.isEmpty_iff, Ne, ← List.isEmpty_iff]
  cases u.isIndex <;> cases u.coveringIndex.isEmpty <;>
    cases u.columns.toList.isEmpty <;> simp [eq_comm]

/-- What is returned about the columns of a usage: they are joined; a table is covered by the first
choice among the indexes that qualify, with the columns of the index in their order, each at its
first place; a table for which none qualifies is not covered, and an index is suggested exactly if
there is something to cover; nothing of the kind is said of an index. -/
structure Verdict (schema : Schema) (u : Usage) : Prop where
  columns : u.columns.toList =
    u.filterColumns.toList ++ u.sortColumns.toList.filter (· ∉ u.filterColumns.toList)
  covered : u.isIndex = false → (∃ i ∈ schema.indexes, Qualifies u.name u.columns.toList i) →
    ∃ i ∈ schema.indexes, FirstChoice schema u.name u.columns.toList u.indexes.toList i ∧
      u.coveringIndex = i.name ∧
      u.coveringColumns.toList.map IndexColumn.column = (OrderedSet.ofList i.columns).toList ∧
      suggestion? u = none
  uncovered : u.isIndex = false → (∀ i ∈ schema.indexes, ¬Qualifies u.name u.columns.toList i) →
    u.coveringIndex = "" ∧ u.coveringColumns.toList = [] ∧
      ((suggestion? u).isSome = true ↔ u.columns.toList ≠ [])
  index : u.isIndex = true →
    u.coveringIndex = "" ∧ u.coveringColumns.toList = [] ∧ suggestion? u = none

/-- No verdict has been passed. -/
def Unjudged (u : Usage) : Prop := u.coveringIndex = "" ∧ u.coveringColumns = .empty

theorem toList_joinColumns (u : Usage) : u.joinColumns.columns.toList =
    u.filterColumns.toList ++ u.sortColumns.toList.filter (· ∉ u.filterColumns.toList) := by
  have hfirst := OrderedSet.toList_insertAll_of_nodup .empty u.filterColumns.nodup
  have hall : u.filterColumns.toList.filter (· ∉ (OrderedSet.empty : OrderedSet String).toList) =
      u.filterColumns.toList := by
    apply List.filter_eq_self.2
    intro a _
    simp
  rw [hall, OrderedSet.toList_empty, List.nil_append] at hfirst
  have hboth := OrderedSet.toList_insertAll_of_nodup
    (OrderedSet.insertAll .empty u.filterColumns.toList) u.sortColumns.nodup
  rw [hfirst] at hboth
  rw [Usage.joinColumns, OrderedSet.ofList, OrderedSet.insertAll, List.foldl_append]
  exact hboth

include hnames in
theorem judge_verdict (hnonempty : ∀ i ∈ schema.indexes, i.name ≠ "") (hu : Unjudged u) :
    Verdict schema (judge schema u) := by
  have hcolumns := toList_joinColumns u
  obtain ⟨hcovering, hcoveringColumns⟩ := hu
  unfold judge
  extract_lets joined
  by_cases hindex : joined.isIndex = true
  · -- an index is left as it was, but for the joined columns
    rw [if_pos hindex]
    refine ⟨hcolumns, ?_, ?_, ?_⟩
    · intro htable
      rw [htable] at hindex
      cases hindex
    · intro htable
      rw [htable] at hindex
      cases hindex
    · intro _
      refine ⟨hcovering, congrArg OrderedSet.toList hcoveringColumns, ?_⟩
      rw [suggestion?, hindex, Bool.true_or, Bool.true_or, if_pos rfl]
  · rw [if_neg hindex]
    rw [Bool.not_eq_true] at hindex
    rcases hfind : covering? joined (shapesOf schema joined.name) with _ | shape
    · refine ⟨hcolumns, ?_, ?_, ?_⟩
      · rintro - ⟨i, hi, hqualifies⟩
        exact absurd hqualifies (covering?_none hnames hfind hi)
      · intro _ _
        have hnothing : joined.coveringIndex = "" := hcovering
        refine ⟨hcovering, congrArg OrderedSet.toList hcoveringColumns, ?_⟩
        rw [suggestion?, hindex, hnothing, OrderedSet.isEmpty]
        cases joined.columns.toList <;> simp
      · intro hno
        rw [hindex] at hno
        cases hno
    · obtain ⟨i, rfl, hi, hfirst⟩ := covering?_some hnames hfind
      refine ⟨hcolumns, ?_, ?_, ?_⟩
      · intro _ _
        refine ⟨i, hi, hfirst, rfl, ?_, ?_⟩
        · have hinjective : ∀ a b : String,
              IndexColumn.mk (cursorFor joined i.name) a =
                ⟨cursorFor joined i.name, b⟩ → a = b := by
            intro a b hab
            exact (IndexColumn.mk.inj hab).2
          -- the cursor is the same for all columns, so a column is repeated just if it is in the
          -- index
          have hmap := OrderedSet.toList_insertAll_map hinjective .empty (t := .empty) rfl i.columns
          show ((OrderedSet.insertAll .empty _).toList).map IndexColumn.column = _
          rw [shapeOf, hmap, List.map_map]
          exact List.map_id' _
        · have hname : i.name.isEmpty = false := by
            rw [← Bool.not_eq_true, String.isEmpty_iff]
            exact hnonempty i hi
          -- the name tells that there is a covering index, as no index has the empty name
          rw [suggestion?]
          show (if (_ || !i.name.isEmpty || _) = true then none else _) = none
          rw [hname]
          simp
      · intro _ hnone
        rcases hfirst with ⟨-, -, -, -, -, -, hqualifies, -⟩ | ⟨-, -, -, -, hqualifies, -⟩
        · exact absurd hqualifies (hnone i hi)
        · exact absurd hqualifies (hnone i hi)
      · intro hno
        have hjoined : joined.isIndex = true := hno
        rw [hindex] at hjoined
        cases hjoined

end Covering

end IndexAdvisor
