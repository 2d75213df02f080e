import IndexAdvisor.Usage.Basic

/-!
# Findings, one by one

The sets of a usage are seen as one set of findings: `u.Has f`. A change of a usage that leaves its
identity alone and adds findings is described by what it adds (`Usage.Adds`), so that recording a
column, recording a comparison and noting an index are treated alike.

A usage reflects another one when it has all its columns and comparisons (`Usage.Reflects`). What is
added to both keeps this, and so does what is added to the reflecting one alone.
-/

namespace IndexAdvisor

namespace OrderedSet

variable {α : Type} [DecidableEq α]

theorem mem_insertAll {s : OrderedSet α} {as : List α} {a : α} :
    a ∈ (s.insertAll as).toList ↔ a ∈ s.toList ∨ a ∈ as := by
  unfold insertAll
  induction as generalizing s with
  | nil => simp
  | cons b bs ih => rw [List.foldl_cons, ih, mem_insert, List.mem_cons, or_assoc]

/-- Of elements without repeats those that are new go to the end, in their order. -/
theorem toList_insertAll_of_nodup (s : OrderedSet α) {as : List α} (h : as.Nodup) :
    (s.insertAll as).toList = s.toList ++ as.filter (· ∉ s.toList) := by
  unfold insertAll
  induction as generalizing s with
  | nil => simp
  | cons a as ih =>
    obtain ⟨ha, has⟩ := List.nodup_cons.1 h
    rw [List.foldl_cons, ih _ has, toList_insert]
    by_cases hmem : a ∈ s.toList
    · rw [if_pos hmem, List.filter_cons_of_neg (by simpa using hmem)]
    · rw [if_neg hmem, List.filter_cons_of_pos (by simpa using hmem), List.append_assoc,
        List.singleton_append]
      congr 2
      apply List.filter_congr
      intro b hb
      have hba : b ≠ a := fun hba => ha (hba ▸ hb)
      simp [hba]

/-- What is there stays in front, in its order. -/
theorem toList_prefix_insertAll (s : OrderedSet α) (as : List α) :
    s.toList <+: (s.insertAll as).toList := by
  unfold insertAll
  induction as generalizing s with
  | nil => exact List.prefix_refl _
  | cons a as ih => exact (toList_prefix_insert s a).trans (ih (s.insert a))

theorem insertAll_of_subset {s : OrderedSet α} {as : List α} (h : ∀ a ∈ as, a ∈ s.toList) :
    s.insertAll as = s := by
  unfold insertAll
  induction as with
  | nil => rfl
  | cons a as ih =>
    rw [List.foldl_cons, insert_of_mem (h a (List.mem_cons_self ..))]
    exact ih fun b hb => h b (List.mem_cons_of_mem a hb)

end OrderedSet

/-- One thing found out about a table or an index. -/
inductive Finding where
  | column (clause : Clause) (name : String)
  | indexColumn (clause : Clause) (column : IndexColumn)
  | filter (text : String)
  | index (use : IndexUse)

namespace Usage

/-- Whether something was found out about a usage. -/
def Has (u : Usage) : Finding → Prop
  | .column .filter name => name ∈ u.filterColumns.toList
  | .column .sort name => name ∈ u.sortColumns.toList
  | .indexColumn .filter column => column ∈ u.filterIndexColumns.toList
  | .indexColumn .sort column => column ∈ u.sortIndexColumns.toList
  | .filter text => text ∈ u.filters.toList
  | .index use => use ∈ u.indexes.toList

variable {u v w : Usage} {f : Finding}

theorem not_has_bare (u : Usage) (f : Finding) : ¬u.bare.Has f := by
  rcases f with ⟨_ | _, _⟩ | ⟨_ | _, _⟩ | _ | _ <;> exact List.not_mem_nil

/-- Usages that differ in their findings only have the same identity, field by field. -/
theorem bare_eq_iff :
    u.bare = v.bare ↔ u.cursor = v.cursor ∧ u.rootPage = v.rootPage ∧ u.kind = v.kind ∧
      u.name = v.name ∧ u.table = v.table := by
  simp [bare]

/-! ## Changes that add -/

/-- A change that keeps the identity of a usage and adds the same findings to every one. -/
structure Adds (change : Usage → Usage) (added : Finding → Prop) : Prop where
  bare : ∀ u, (change u).bare = u.bare
  has : ∀ u f, (change u).Has f ↔ u.Has f ∨ added f

theorem adds_addColumn (clause : Clause) (column : String) (through : Option Int) :
    Adds (·.addColumn clause column through) fun f =>
      f = .column clause column ∨ ∃ cursor, through = some cursor ∧
        f = .indexColumn clause ⟨cursor, column⟩ where
  bare u := by cases clause <;> rfl
  has u f := by
    rcases f with ⟨_ | _, _⟩ | ⟨_ | _, _⟩ | _ | _ <;> rcases clause with _ | _ <;>
      rcases through with _ | cursor <;> simp [Has, addColumn]

theorem adds_addFilter (text : String) : Adds (·.addFilter text) (· = .filter text) where
  bare _ := rfl
  has u f := by rcases f with ⟨_ | _, _⟩ | ⟨_ | _, _⟩ | _ | _ <;> simp [Has, addFilter]

theorem adds_addIndex (use : IndexUse) : Adds (·.addIndex use) (· = .index use) where
  bare _ := rfl
  has u f := by rcases f with ⟨_ | _, _⟩ | ⟨_ | _, _⟩ | _ | _ <;> simp [Has, addIndex]

/-! ## Reflection -/

/-- Every column and every comparison found for `u` is found for `v` too. -/
def Reflects (v u : Usage) : Prop := ∀ f, (∀ use, f ≠ .index use) → u.Has f → v.Has f

theorem Reflects.trans (hw : w.Reflects v) (hv : v.Reflects u) : w.Reflects u :=
  fun f hf h => hw f hf (hv f hf h)

/-- A usage without findings is reflected by every usage. -/
theorem reflects_bare (v u : Usage) : v.Reflects u.bare := fun f _ h => absurd h (u.not_has_bare f)

variable {change : Usage → Usage} {added : Finding → Prop}

theorem Adds.mono (h : Adds change added) (u : Usage) (hf : u.Has f) : (change u).Has f :=
  (h.has u f).2 (.inl hf)

theorem Adds.reflects (h : Adds change added) (u : Usage) : (change u).Reflects u :=
  fun _ _ hf => h.mono u hf

/-- What is added to both sides is reflected. -/
theorem Reflects.adds (hr : v.Reflects u) (h : Adds change added) :
    (change v).Reflects (change u) := by
  intro f hindex hf
  rw [h.has] at hf ⊢
  exact hf.imp_left (hr f hindex)

end Usage

end IndexAdvisor
