import IndexAdvisor.Covering
import IndexAdvisor.Proofs.Ledger.View

/-!
# What judging changes

A judgement leaves the identity of a usage and all that was found as they are. It joins the columns,
and it may name a covering index.
-/

namespace IndexAdvisor

namespace Covering

theorem bare_judge (schema : Schema) (u : Usage) : (judge schema u).bare = u.bare := by
  unfold judge
  extract_lets joined
  split
  · rfl
  · split <;> rfl

/-- A judgement takes no finding away and adds none. -/
theorem judge_has (schema : Schema) (u : Usage) (f : Finding) :
    (judge schema u).Has f ↔ u.Has f := by
  unfold judge
  extract_lets joined
  have hjoined : joined.Has f ↔ u.Has f := by
    rcases f with ⟨_ | _, _⟩ | ⟨_ | _, _⟩ | _ | _ <;> rfl
  split
  · exact hjoined
  · split
    · exact hjoined
    · rw [← hjoined]
      rcases f with ⟨_ | _, _⟩ | ⟨_ | _, _⟩ | _ | _ <;> rfl

theorem columns_judge (schema : Schema) (u : Usage) :
    (judge schema u).columns = u.joinColumns.columns := by
  unfold judge
  extract_lets joined
  split
  · rfl
  · split <;> rfl

theorem indexes_judge (schema : Schema) (u : Usage) : (judge schema u).indexes = u.indexes := by
  unfold judge
  extract_lets joined
  split
  · rfl
  · split <;> rfl

theorem filterColumns_judge (schema : Schema) (u : Usage) :
    (judge schema u).filterColumns = u.filterColumns := by
  unfold judge
  extract_lets joined
  split
  · rfl
  · split <;> rfl

end Covering

/-- The usages of a judged ledger are those of the ledger, each judged. -/
theorem Ledger.mem_usages_judge {l : Ledger} {schema : Schema} {u : Usage}
    (hu : u ∈ (l.judge schema).usages) :
    ∃ id v, l.usage? id = some v ∧ u = Covering.judge schema v := by
  obtain ⟨id, hu⟩ := mem_usages.1 hu
  rw [judge, usage?_mapUsages] at hu
  obtain ⟨v, hv, rfl⟩ := Option.map_eq_some_iff.1 hu
  exact ⟨id, v, hv, rfl⟩

end IndexAdvisor
