import IndexAdvisor.Proofs.Ledger.Merge

/-!
# What a merge leaves

A merge seen from its result, entry by entry: the entries of the enclosing statement keep their
places (`merge_kept`), every usage of the sub-select has an entry that stands for it
(`merge_covers`), and an entry has just what it had and what the sub-select found for the same
object, in terms of the enclosing statement (`merge_has`).
-/

namespace IndexAdvisor

namespace Merge

open Ledger

variable {schema : Schema} {parent sub acc : Ledger} {id : Nat} {u v w : Usage}

/-- Matching only adds entries, and adds none that has findings. -/
theorem usage?_foldl_matchUsage (us : List Usage) (acc : Ledger × List Nat)
    (hv : (us.foldl matchUsage acc).1.usage? id = some v) :
    acc.1.usage? id = some v ∨ acc.1.size ≤ id ∧ ∃ u ∈ us, v = u.bare := by
  induction us generalizing acc with
  | nil => exact .inl hv
  | cons u us ih =>
    rw [List.foldl_cons, matchUsage] at hv
    rcases hfind : acc.1.findAt? u.name u.rootPage with _ | p
    · rw [hfind] at hv
      rcases ih _ hv with hold | ⟨hsize, w, hw, rfl⟩
      · dsimp only at hold
        rw [usage?_add] at hold
        by_cases hid : id = acc.1.size
        · rw [if_pos hid] at hold
          obtain rfl := Option.some.inj hold
          exact .inr ⟨Nat.le_of_eq hid.symm, u, List.mem_cons_self .., rfl⟩
        · rw [if_neg hid] at hold
          exact .inl hold
      · dsimp only at hsize
        rw [size_add] at hsize
        exact .inr ⟨Nat.le_of_succ_le hsize, w, List.mem_cons_of_mem u hw, rfl⟩
    · rw [hfind] at hv
      rcases ih _ hv with hold | ⟨hsize, w, hw, rfl⟩
      · exact .inl hold
      · exact .inr ⟨hsize, w, List.mem_cons_of_mem u hw, rfl⟩

/-- Two usages that stand for the same objects of one schema are of one kind. -/
theorem Matches.kind_eq (h : Matches v u) (hv : v.Known schema) (hu : u.Known schema) :
    v.kind = u.kind :=
  hv.kind_eq hu h.rootPage

/-- Two usages that stand for the same object stand for each other. -/
theorem Matches.trans_symm (hv : Matches v u) (hw : Matches w u) : Matches v w where
  rootPage := hv.rootPage.trans hw.rootPage.symm
  name := sameName_trans hv.name (sameName_symm hw.name)

/-- Usages that one usage stands for stand for each other. -/
theorem Matches.symm_trans (hv : Matches u v) (hw : Matches u w) : Matches v w where
  rootPage := hv.rootPage.symm.trans hw.rootPage
  name := sameName_trans (sameName_symm hv.name) hw.name

theorem Matches.of_bare_eq (h : Matches v u) (hw : w.bare = v.bare) : Matches w u := by
  obtain ⟨-, hpage, -, hname, -⟩ := Usage.bare_eq_iff.1 hw
  constructor
  · rw [hpage]
    exact h.rootPage
  · rw [hname]
    exact h.name

end Merge

namespace Ledger

open Merge

variable {schema : Schema} {parent sub : Ledger} {id j : Nat} {u v p q : Usage} {f : Finding}

/-- The entries of the enclosing statement keep their places. -/
theorem merge_kept (hs : schema.Distinct) (hparent : Linked schema parent)
    (hsub : Linked schema sub) (hv : parent.usage? id = some v) :
    ∃ p, (parent.merge sub).usage? id = some p ∧ p.bare = v.bare := by
  obtain ⟨owned, hm, ha, hskeleton, -⟩ := merge_passes hs hparent hsub
  have hlt := lt_size_of_usage? hv
  obtain ⟨w, hw⟩ := exists_usage? (Nat.lt_of_lt_of_le hlt hm.size)
  -- a place of the enclosing ledger is none of those that the matching has added
  rcases usage?_foldl_matchUsage sub.usages (parent, []) hw with hold | ⟨hsize, -⟩
  · obtain rfl := Option.some.inj (hv.symm.trans hold)
    rw [← ha.usage?_eq] at hw
    exact usage?_of_skeleton_eq hskeleton.symm hw
  · exact absurd hlt (Nat.not_lt_of_le hsize)

/-- Every usage of the sub-select has an entry that stands for it. -/
theorem merge_covers (hs : schema.Distinct) (hparent : Linked schema parent)
    (hsub : Linked schema sub) (hu : u ∈ sub.usages) :
    ∃ id p, (parent.merge sub).usage? id = some p ∧ Matches p u := by
  obtain ⟨owned, hm, ha, hskeleton, -⟩ := merge_passes hs hparent hsub
  obtain ⟨i, hi⟩ := mem_usages.1 hu
  obtain ⟨id, v, -, hv, hvu⟩ := hm.place hi
  rw [← ha.usage?_eq] at hv
  obtain ⟨p, hp, hbare⟩ := usage?_of_skeleton_eq hskeleton.symm hv
  exact ⟨id, p, hp, hvu.of_bare_eq hbare⟩

/-- Entries that stand for one usage are one entry. -/
theorem Linked.eq_of_matches {l : Ledger} (h : Linked schema l) (hp : l.usage? id = some p)
    (hq : l.usage? j = some q) (hpq : Matches p q) : id = j :=
  h.unique hp hq (hpq.kind_eq (h.known hp) (h.known hq)) hpq.name

/-- An entry has what it had, and what the sub-select found for the same object. -/
theorem merge_has (hs : schema.Distinct) (hparent : Linked schema parent) (hsub : Linked schema sub)
    (hp : (parent.merge sub).usage? id = some p) :
    p.Has f ↔ (∃ v, parent.usage? id = some v ∧ v.Has f) ∨ ∃ u ∈ sub.usages, Matches p u ∧
      ∃ g, u.Has g ∧ f = g.inParent (parent.merge sub) (cursorNames sub) := by
  obtain ⟨owned, hm, ha, hskeleton, hhas⟩ := merge_passes hs hparent hsub
  have hlinked := merge_linked hs hparent hsub
  obtain ⟨v, hv, hpv⟩ := hhas hp
  -- before the last pass an entry has what it had in the enclosing ledger; the added ones have
  -- nothing
  have hbefore : v.Has f ↔ ∃ v, parent.usage? id = some v ∧ v.Has f := by
    rw [ha.usage?_eq] at hv
    constructor
    · intro hf
      rcases usage?_foldl_matchUsage sub.usages (parent, []) hv with hold | ⟨-, u, -, rfl⟩
      · exact ⟨v, hold, hf⟩
      · exact absurd hf (u.not_has_bare f)
    · rintro ⟨w, hw, hf⟩
      rcases usage?_foldl_matchUsage sub.usages (parent, []) hv with hold | ⟨hsize, -⟩
      · obtain rfl := Option.some.inj (hw.symm.trans hold)
        exact hf
      · exact absurd (lt_size_of_usage? hw) (Nat.not_lt_of_le hsize)
  rw [hpv, hbefore]
  apply or_congr_right
  simp only [inParent_of_skeleton_eq hskeleton]
  constructor
  · rintro ⟨i, u, hu, hid, hg⟩
    obtain ⟨u', w, hu', hw, hmatch⟩ := hm.counterpart hid
    obtain rfl := Option.some.inj (hu.symm.trans hu')
    rw [← ha.usage?_eq] at hw
    obtain ⟨p', hp', hbare⟩ := usage?_of_skeleton_eq hskeleton.symm hw
    obtain rfl := Option.some.inj (hp.symm.trans hp')
    exact ⟨u, mem_usages.2 ⟨i, hu⟩, hmatch.of_bare_eq hbare, hg⟩
  · -- the place of the usage is that of the entry, as no other entry stands for the same object
    rintro ⟨u, hu, hmatch, hg⟩
    obtain ⟨i, hu⟩ := mem_usages.1 hu
    obtain ⟨j, w, hj, hw, hwu⟩ := hm.place hu
    rw [← ha.usage?_eq] at hw
    obtain ⟨q, hq, hbare⟩ := usage?_of_skeleton_eq hskeleton.symm hw
    obtain rfl := hlinked.eq_of_matches hq hp ((hwu.of_bare_eq hbare).trans_symm hmatch)
    exact ⟨i, u, hu, hj, hg⟩

end Ledger

end IndexAdvisor
