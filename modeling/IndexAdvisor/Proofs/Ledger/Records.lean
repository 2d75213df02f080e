import IndexAdvisor.Proofs.Ledger.Note

/-!
# Changes that record

A search for findings enters notes, and it decides which by the skeleton of the ledger, so it enters
the same notes into all ledgers with the same entries, whatever was found before: `Records base f`
says this of a change `f`. Every column it notes is one that the entry has (`Note.Fits`).

Such a change, made again, changes nothing, even when more was found in between
(`Records.eq_of_within`).

`Enters l k` says less: some fitting notes lead from `l` to `k`. It is what properties that notes
keep are carried along, as the links are (`Enters.linked`).
-/

namespace IndexAdvisor

namespace Usage

variable {schema : Schema} {u v : Usage} {column : String}

theorem entryColumns_of_bare_eq (h : v.bare = u.bare) :
    v.entryColumns schema = u.entryColumns schema := by
  have hcolumns := congrArg (entryColumns · schema) h
  exact hcolumns

theorem mem_entryColumns_of_columnAt? {position : Int}
    (h : u.columnAt? schema position = some column) :
    column ∈ u.entryColumns schema := by
  unfold columnAt? at h
  split at h
  · cases h
  · exact List.mem_of_getElem? h

theorem mem_columnsOfTable_of_primaryKeyOf? {table : String}
    (h : schema.primaryKeyOf? table = some column) :
    column ∈ schema.columnsOfTable table := by
  obtain ⟨t, ht, h⟩ := Option.bind_eq_some_iff.1 h
  obtain ⟨key, -, h⟩ := Option.bind_eq_some_iff.1 h
  rw [Schema.columnsOfTable, ht]
  exact List.mem_of_find?_eq_some h

theorem mem_entryColumns_of_rowidColumn? (h : u.rowidColumn? schema = some column) :
    column ∈ u.entryColumns schema := by
  rw [rowidColumn?, rowTable] at h
  rw [entryColumns]
  split at h
  · next hindex =>
    rw [if_pos hindex]
    exact List.mem_append_right _ (Option.mem_toList.2 h)
  · next hindex =>
    rw [if_neg hindex]
    exact mem_columnsOfTable_of_primaryKeyOf? h

/-- The columns in stored order are those of the entry, the row number apart. -/
theorem mem_entryColumns_of_orderedColumns (h : column ∈ u.orderedColumns schema) :
    column ∈ u.entryColumns schema := by
  rw [orderedColumns] at h
  rw [entryColumns]
  split at h
  · next hindex =>
    rw [if_pos hindex]
    exact List.mem_append_left _ h
  · next hindex =>
    rw [if_neg hindex]
    exact h

end Usage

/-- A column that is noted for an entry is one of the entry's own. -/
def Note.Fits (schema : Schema) (base : Ledger) : Note → Prop
  | .column id _ name => ∀ u, base.usage? id = some u → name ∈ u.entryColumns schema
  | .filter _ _ => True

namespace Ledger

variable {schema : Schema} {base l k m : Ledger} {f g : Ledger → Ledger}

theorem fits_of_skeleton_eq {n : Note} (h : n.Fits schema l) (hk : k.skeleton = l.skeleton) :
    n.Fits schema k := by
  cases n with
  | column id clause name =>
    intro u hu
    obtain ⟨v, hv, hbare⟩ := usage?_of_skeleton_eq hk hu
    rw [Usage.entryColumns_of_bare_eq hbare.symm]
    exact h v hv
  | filter id text => trivial

/-- The second ledger comes from the first one by entering fitting notes. -/
def Enters (schema : Schema) (l k : Ledger) : Prop :=
  ∃ notes : List Note, (∀ n ∈ notes, n.Fits schema l) ∧ k = l.enterAll notes

theorem Enters.refl (schema : Schema) (l : Ledger) : Enters schema l l := ⟨[], nofun, rfl⟩

theorem Enters.skeleton_eq (h : Enters schema l k) : k.skeleton = l.skeleton := by
  obtain ⟨notes, -, rfl⟩ := h
  exact skeleton_enterAll l notes

theorem Enters.trans (hlk : Enters schema l k) (hkm : Enters schema k m) : Enters schema l m := by
  have hskeleton := hlk.skeleton_eq
  obtain ⟨notes, hfits, rfl⟩ := hlk
  obtain ⟨more, hmore, rfl⟩ := hkm
  refine ⟨notes ++ more, ?_, (enterAll_append l notes more).symm⟩
  intro n hn
  rcases List.mem_append.1 hn with hn | hn
  · exact hfits n hn
  · exact fits_of_skeleton_eq (hmore n hn) hskeleton.symm

/-- What every fitting note keeps is kept. -/
theorem Enters.induction {P : Ledger → Prop} (h : Enters schema l k) (hl : P l)
    (hstep : ∀ l n, n.Fits schema l → P l → P (l.enter n)) : P k := by
  obtain ⟨notes, hfits, rfl⟩ := h
  induction notes generalizing l with
  | nil => exact hl
  | cons n notes ih =>
    apply ih (hstep l n (hfits n (List.mem_cons_self ..)) hl)
    intro m hm
    exact fits_of_skeleton_eq (hfits m (List.mem_cons_of_mem n hm)) (skeleton_enter l n)

theorem Enters.within (h : Enters schema l k) : l.Within k := by
  obtain ⟨notes, -, rfl⟩ := h
  exact within_enterAll l notes

theorem Enters.linked (h : Enters schema l k) (hl : Linked schema l) : Linked schema k :=
  h.induction hl fun _ n _ hl => enter_linked hl n

/-- A change that enters the same fitting notes into every ledger with the entries of `base`. -/
def Records (schema : Schema) (base : Ledger) (f : Ledger → Ledger) : Prop :=
  ∃ notes : List Note, (∀ n ∈ notes, n.Fits schema base) ∧
    ∀ l, l.skeleton = base.skeleton → f l = l.enterAll notes

theorem Records.enters (h : Records schema base f) : Enters schema base (f base) := by
  obtain ⟨notes, hfits, hf⟩ := h
  exact ⟨notes, hfits, hf base rfl⟩

/-- What was recorded once is not recorded anew, even when more was found in between. -/
theorem Records.eq_of_within (h : Records schema base f) (hk : (f base).Within k) : f k = k := by
  have hskeleton := hk.skeleton_eq.trans h.enters.skeleton_eq
  obtain ⟨notes, -, hf⟩ := h
  rw [hf k hskeleton]
  apply enterAll_eq_of_holds
  intro n hn
  rw [hf base rfl] at hk
  exact (holds_enterAll hn).within hk

end Ledger

end IndexAdvisor
