import IndexAdvisor.Ledger.Cursor
import IndexAdvisor.Proofs.Schema.Known

/-!
# The links between indexes and tables

What an index of a statement is found to do, its table does too: `Usage.Reflects`. The ledger keeps
this up by an owner that every index of a known table has, and by recording each finding of an index
for the owner as well. The invariant is `Ledger.Linked`:

> every usage is known to the schema, no two are of one object, the owner of an index is its table
> and reflects it, and an index without owner belongs to a table that the schema does not know.

An index is entered first and linked afterwards, and a reopened one takes a new cursor before it is
noted under it. In between the invariant holds up to the entry that is `pending` (`LinkedExcept`);
`attach` closes the gap. The run lemma for openings is `scan_linked`.
-/

namespace IndexAdvisor

namespace Ledger

/-- The links of a ledger are in order, up to entries that are `pending`: such an entry may wait for
its owner as long as it has no findings, and for being noted at its owner. -/
structure LinkedExcept (schema : Schema) (pending : Nat → Prop) (l : Ledger) : Prop where
  known : ∀ {id u}, l.usage? id = some u → u.Known schema
  unique : ∀ {i j u v}, l.usage? i = some u → l.usage? j = some v → u.kind = v.kind →
    sameName u.name v.name = true → i = j
  owner : ∀ {id t u}, l.usage? id = some u → l.owner? id = some t → u.isIndex = true ∧
    ∃ v, l.usage? t = some v ∧ v.isOf u.table .table = true ∧ v.Reflects u ∧
      (¬pending id → v.Has (.index ⟨u.cursor, u.name⟩))
  owned : ∀ {id u}, l.usage? id = some u → u.isIndex = true →
    (schema.table? u.table).isSome = true →
    (l.owner? id).isSome = true ∨ pending id ∧ u.bare = u

/-- The links of a ledger are in order. -/
abbrev Linked (schema : Schema) (l : Ledger) : Prop := LinkedExcept schema (fun _ => False) l

variable {schema : Schema} {pending : Nat → Prop} {l : Ledger} {id t : Nat} {u v : Usage}

theorem empty_linked (schema : Schema) : Linked schema empty := by
  constructor <;> intros <;> simp_all

theorem LinkedExcept.mono {pending' : Nat → Prop} (h : LinkedExcept schema pending l)
    (hp : ∀ id, pending id → pending' id) : LinkedExcept schema pending' l where
  known := h.known
  unique := h.unique
  owner hu ho := by
    obtain ⟨hindex, v, hv, hof, hr, hnoted⟩ := h.owner hu ho
    exact ⟨hindex, v, hv, hof, hr, fun hn => hnoted fun hp' => hn (hp _ hp')⟩
  owned hu hindex ht := (h.owned hu hindex ht).imp_right fun hb => ⟨hp _ hb.1, hb.2⟩

/-- An index that has an owner belongs to a table that the schema knows. -/
theorem LinkedExcept.table?_isSome (h : LinkedExcept schema pending l) (hu : l.usage? id = some u)
    (ho : l.owner? id = some t) : (schema.table? u.table).isSome = true := by
  obtain ⟨-, v, hv, hof, -⟩ := h.owner hu ho
  exact (h.known hv).table?_isSome hof

/-- Findings apart, the links of a ledger depend on its skeleton only. -/
theorem LinkedExcept.of_skeleton_eq {k : Ledger} (h : LinkedExcept schema pending l)
    (hk : k.skeleton = l.skeleton)
    (howned : ∀ {id u}, l.usage? id = some u → pending id → u.isIndex = true →
      (schema.table? u.table).isSome = true → (l.owner? id).isSome = true)
    (hfound : ∀ {id t u v}, k.usage? id = some u → k.owner? id = some t → k.usage? t = some v →
      v.Reflects u ∧ v.Has (.index ⟨u.cursor, u.name⟩)) : Linked schema k where
  known hu := by
    obtain ⟨u', hu', hb⟩ := usage?_of_skeleton_eq hk hu
    exact (h.known hu').of_bare_eq hb.symm
  unique hu hv hkind hname := by
    obtain ⟨u', hu', hbu⟩ := usage?_of_skeleton_eq hk hu
    obtain ⟨v', hv', hbv⟩ := usage?_of_skeleton_eq hk hv
    obtain ⟨-, -, hku, hnu, -⟩ := Usage.bare_eq_iff.1 hbu
    obtain ⟨-, -, hkv, hnv, -⟩ := Usage.bare_eq_iff.1 hbv
    exact h.unique hu' hv' (by rw [hku, hkv]; exact hkind) (by rw [hnu, hnv]; exact hname)
  owner {id t u} hu ho := by
    obtain ⟨u', hu', hbu⟩ := usage?_of_skeleton_eq hk hu
    obtain ⟨hindex, v', hv', hof, -⟩ := h.owner hu' (owner?_of_skeleton_eq hk id ▸ ho)
    obtain ⟨v, hv, hbv⟩ := usage?_of_skeleton_eq hk.symm hv'
    obtain ⟨-, -, -, -, htable⟩ := Usage.bare_eq_iff.1 hbu
    obtain ⟨hreflects, hnoted⟩ := hfound hu ho hv
    refine ⟨?_, v, hv, ?_, hreflects, fun _ => hnoted⟩
    · rw [Usage.isIndex_of_bare_eq hbu.symm]; exact hindex
    · rw [Usage.isOf_of_bare_eq hbv, ← htable]; exact hof
  owned {id u} hu hindex ht := by
    obtain ⟨u', hu', hbu⟩ := usage?_of_skeleton_eq hk hu
    obtain ⟨-, -, -, -, htable⟩ := Usage.bare_eq_iff.1 hbu
    rw [Usage.isIndex_of_bare_eq hbu.symm] at hindex
    rw [← htable] at ht
    rw [owner?_of_skeleton_eq hk]
    rcases h.owned hu' hindex ht with ho | ⟨hp, -⟩
    · exact .inl ho
    · exact .inl (howned hu' hp hindex ht)

/-! ## Recording a finding -/

theorem ownerOfIndex?_eq_some (h : l.ownerOfIndex? id = some t) :
    ∃ u, l.usage? id = some u ∧ u.isIndex = true ∧ l.owner? id = some t := by
  unfold ownerOfIndex? at h
  split at h
  · next u hu =>
    split at h
    · next hindex => exact ⟨u, hu, hindex, h⟩
    · cases h
  · cases h

theorem ownerOfIndex?_of_owner? (hu : l.usage? id = some u) (hindex : u.isIndex = true) :
    l.ownerOfIndex? id = l.owner? id := by
  simp only [ownerOfIndex?, hu, hindex, if_true]

/-- What is recorded for an entry and for its owner keeps the links in order. -/
theorem LinkedExcept.of_adds {change : Usage → Usage} {added : Finding → Prop} {k : Ledger}
    (id : Nat) (h : Linked schema l) (hc : Usage.Adds change added) (hk : k.skeleton = l.skeleton)
    (hchange : ∀ j, k.usage? j = (l.usage? j).map fun u =>
      if j = id ∨ l.ownerOfIndex? id = some j then change u else u) : Linked schema k := by
  refine h.of_skeleton_eq hk (fun _ hp => hp.elim) ?_
  intro j t u v hu ho hv
  rw [owner?_of_skeleton_eq hk] at ho
  rw [hchange] at hu hv
  obtain ⟨u', hu', rfl⟩ := Option.map_eq_some_iff.1 hu
  obtain ⟨v', hv', rfl⟩ := Option.map_eq_some_iff.1 hv
  obtain ⟨hindex, v'', hv'', hof, hreflects, hnoted⟩ := h.owner hu' ho
  obtain rfl : v'' = v' := Option.some.inj (hv''.symm.trans hv')
  have hnote : v''.Has (.index ⟨u'.cursor, u'.name⟩) := hnoted not_false
  by_cases hid : j = id
  · -- the finding is made at the index `u'`, and its owner gets it too
    subst hid
    have howner : l.ownerOfIndex? j = some t := by rw [ownerOfIndex?_of_owner? hu' hindex, ho]
    obtain ⟨hcursor, -, -, hname, -⟩ := Usage.bare_eq_iff.1 (hc.bare u')
    rw [if_pos (.inr howner), if_pos (.inl rfl), hcursor, hname]
    exact ⟨hreflects.adds hc, hc.mono v'' hnote⟩
  · -- an index is no owner, so only the table can have got the finding
    have hnot : ¬(j = id ∨ l.ownerOfIndex? id = some j) := by
      rintro (hj | hj)
      · exact hid hj
      · obtain ⟨w, hw, -, hwo⟩ := ownerOfIndex?_eq_some hj
        obtain ⟨-, x, hx, hxof, -⟩ := h.owner hw hwo
        obtain rfl : x = u' := Option.some.inj (hx.symm.trans hu')
        rw [Usage.isIndex_of_isOf_table hxof] at hindex
        cases hindex
    rw [if_neg hnot]
    split
    · exact ⟨(hc.reflects v'').trans hreflects, hc.mono v'' hnote⟩
    · exact ⟨hreflects, hnote⟩

/-- An owner is not an entry that it owns. -/
theorem LinkedExcept.ownerOfIndex?_ne (h : LinkedExcept schema pending l)
    (ho : l.ownerOfIndex? id = some t) : t ≠ id := by
  rintro rfl
  obtain ⟨u, hu, hindex, ho⟩ := ownerOfIndex?_eq_some ho
  obtain ⟨-, v, hv, hof, -⟩ := h.owner hu ho
  obtain rfl : v = u := Option.some.inj (hv.symm.trans hu)
  rw [Usage.isIndex_of_isOf_table hof] at hindex
  cases hindex

theorem record_linked (h : Linked schema l) (id : Nat) (clause : Clause) (column : String) :
    Linked schema (l.record id clause column) := by
  unfold record
  split
  · exact h
  · next u hu =>
    dsimp only
    generalize (if u.isIndex = true then some u.cursor else none) = through
    have hc := Usage.adds_addColumn clause column through
    split
    · next ho =>
      refine LinkedExcept.of_adds id h hc (skeleton_modify _ _ hc.bare) fun j => ?_
      rw [usage?_modify, ho]
      by_cases hj : j = id <;> simp [hj]
    · next t ho =>
      refine LinkedExcept.of_adds id h hc ?_ fun j => ?_
      · rw [skeleton_modify _ _ hc.bare, skeleton_modify _ _ hc.bare]
      · rw [usage?_modify_modify l (h.ownerOfIndex?_ne ho).symm, ho]
        simp only [Option.some.injEq, eq_comm]

theorem recordFilter_linked (h : Linked schema l) (id : Nat) (text : String) :
    Linked schema (l.recordFilter id text) := by
  have hc := Usage.adds_addFilter text
  unfold recordFilter
  dsimp only
  split
  · next ho =>
    refine LinkedExcept.of_adds id h hc (skeleton_modify _ _ hc.bare) fun j => ?_
    rw [usage?_modify, ho]
    by_cases hj : j = id <;> simp [hj]
  · next t ho =>
    refine LinkedExcept.of_adds id h hc ?_ fun j => ?_
    · rw [skeleton_modify _ _ hc.bare, skeleton_modify _ _ hc.bare]
    · rw [usage?_modify_modify l (h.ownerOfIndex?_ne ho), ho]
      simp only [Option.some.injEq, eq_comm, or_comm]

end Ledger

end IndexAdvisor
