import IndexAdvisor.Merge
import IndexAdvisor.Proofs.Ledger.Reopening

/-!
# What holds of every usage

A property that usages without findings have, and that moving a usage to a cursor and noting an
index keep, holds of every usage that openings lead to (`Everywhere.scan`). So openings find out
nothing but which indexes are in use: `scan_unnoted`.

A property that no finding breaks either is `Lasting`. It is kept when notes are entered and when a
sub-select is merged (`Everywhere.enter`, `Everywhere.merge`).
-/

namespace IndexAdvisor

namespace Ledger

variable {schema : Schema} {P : Usage → Prop} {l : Ledger} {id t : Nat} {u : Usage}
  {change : Usage → Usage}

/-- Every usage of the ledger has a property. -/
def Everywhere (P : Usage → Prop) (l : Ledger) : Prop := ∀ id u, l.usage? id = some u → P u

theorem everywhere_empty (P : Usage → Prop) : Everywhere P empty := by
  intro id u hu
  rw [usage?_empty] at hu
  cases hu

theorem Everywhere.add (h : Everywhere P l) (hu : P u) : Everywhere P (l.add u) := by
  intro id v hv
  rw [usage?_add] at hv
  split at hv
  · obtain rfl := Option.some.inj hv
    exact hu
  · exact h id v hv

theorem Everywhere.modify (h : Everywhere P l) (id : Nat) (hchange : ∀ u, P u → P (change u)) :
    Everywhere P (l.modify id change) := by
  intro j v hv
  rw [usage?_modify] at hv
  split at hv
  · obtain ⟨u, hu, rfl⟩ := Option.map_eq_some_iff.1 hv
    exact hchange u (h j u hu)
  · exact h j v hv

theorem Everywhere.setOwner (h : Everywhere P l) (id t : Nat) : Everywhere P (l.setOwner id t) := by
  intro j v hv
  rw [usage?_setOwner] at hv
  exact h j v hv

/-- A property of usages that openings cannot break. -/
structure Unbroken (P : Usage → Prop) : Prop where
  bare : ∀ u : Usage, u.bare = u → P u
  move : ∀ (u : Usage) (cursor : Int), P u → P { u with cursor }
  addIndex : ∀ (u : Usage) (use : IndexUse), P u → P (u.addIndex use)

theorem Everywhere.link (hP : Unbroken P) (h : Everywhere P l) (schema : Schema) (id : Nat) :
    Everywhere P (l.link schema id).1 := by
  have hattach {k : Ledger} (hk : Everywhere P k) (t : Nat) (use : IndexUse) :
      Everywhere P ((k.setOwner id t).modify t (·.addIndex use)) := by
    apply (hk.setOwner id t).modify
    intro u hu
    exact hP.addIndex u use hu
  unfold Ledger.link
  split
  · exact h
  · dsimp only
    split
    · exact hattach h _ _
    · split
      · exact h
      · exact hattach (h.add (hP.bare _ rfl)) _ _

theorem Everywhere.place (hP : Unbroken P) (h : Everywhere P l) (schema : Schema)
    (object : SchemaObject) (cursor : Int) : Everywhere P (l.place schema object cursor).1 := by
  unfold Ledger.place
  extract_lets placed
  have hplaced : Everywhere P placed.1 := by
    unfold placed
    split
    · apply h.modify
      intro u hu
      exact hP.move u cursor hu
    · exact h.add (hP.bare _ rfl)
  split
  · exact hplaced
  · exact hplaced.link hP schema _

theorem Everywhere.scan (hP : Unbroken P) (h : Everywhere P l) (schema : Schema)
    (program : Program) :
    Everywhere P (Openings.scan l schema program).1 :=
  Openings.scan_induction h fun r _ _ hk => hk.place hP schema r.object r.cursor

/-- Nothing was found out but which indexes are in use. -/
def Unnoted (u : Usage) : Prop := ∀ f, u.Has f → ∃ use, f = .index use

theorem unbroken_unnoted : Unbroken Unnoted where
  bare u hu f hf := absurd hf (hu ▸ u.not_has_bare f)
  move u cursor hu f hf := by
    apply hu
    cases f <;> exact hf
  addIndex u use hu f hf := by
    rcases ((Usage.adds_addIndex use).has u f).1 hf with hf | rfl
    · exact hu f hf
    · exact ⟨use, rfl⟩

/-- Openings note nothing but indexes. -/
theorem scan_unnoted (schema : Schema) (program : Program) :
    Everywhere Unnoted (Openings.scan .empty schema program).1 :=
  (everywhere_empty _).scan unbroken_unnoted schema program

/-! ## Findings -/

/-- A property of usages that neither openings nor findings can break. -/
structure Lasting (P : Usage → Prop) : Prop extends Unbroken P where
  addColumn : ∀ (u : Usage) (clause : Clause) (column : String) (through : Option Int),
    P u → P (u.addColumn clause column through)
  addFilter : ∀ (u : Usage) (text : String), P u → P (u.addFilter text)
  addFindings : ∀ (parent : Ledger) (names : List (Int × String)) (found u : Usage),
    P u → P (Merge.addFindings parent names found u)

theorem Everywhere.enter (hP : Lasting P) (h : Everywhere P l) (n : Note) :
    Everywhere P (l.enter n) := by
  cases n with
  | column id clause name =>
    rw [Ledger.enter, record]
    split
    · exact h
    · next u hu =>
      dsimp only
      have hown := h.modify id fun v =>
        hP.addColumn v clause name (if u.isIndex = true then some u.cursor else none)
      split
      · exact hown
      · exact hown.modify _ fun v => hP.addColumn v _ _ _
  | filter id text =>
    rw [Ledger.enter, recordFilter]
    split
    · exact h.modify _ fun v => hP.addFilter v text
    · exact (h.modify _ fun v => hP.addFilter v text).modify _ fun v => hP.addFilter v text

theorem Everywhere.merge {parent sub : Ledger} (hP : Lasting P) (h : Everywhere P parent) :
    Everywhere P (parent.merge sub) := by
  -- matching adds usages without findings, adopting changes none, and the last pass adds findings
  have hmatched (us : List Usage) {acc : Ledger × List Nat} (hacc : Everywhere P acc.1) :
      Everywhere P (us.foldl Merge.matchUsage acc).1 := by
    induction us generalizing acc with
    | nil => exact hacc
    | cons u us ih =>
      apply ih
      rw [Merge.matchUsage]
      split
      · exact hacc
      · exact hacc.add (hP.bare _ rfl)
  have hadopted (places : List Nat) (is : List Nat) {l : Ledger} (hl : Everywhere P l) :
      Everywhere P (is.foldl (Merge.adoptOwner sub places) l) := by
    induction is generalizing l with
    | nil => exact hl
    | cons i is ih =>
      apply ih
      rw [Merge.adoptOwner]
      split
      · split
        · exact hl.setOwner _ _
        · exact hl
      · exact hl
  have hfound (pairs : List (Usage × Nat)) {l : Ledger} (hl : Everywhere P l) :
      Everywhere P (pairs.foldl (fun l found =>
        l.modify found.2 (Merge.addFindings l (Merge.cursorNames sub) found.1)) l) := by
    induction pairs generalizing l with
    | nil => exact hl
    | cons pair pairs ih => exact ih (hl.modify _ fun u => hP.addFindings l _ pair.1 u)
  exact hfound _ (hadopted _ _ (hmatched _ h))

end Ledger

end IndexAdvisor
