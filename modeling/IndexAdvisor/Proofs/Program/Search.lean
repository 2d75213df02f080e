import IndexAdvisor.Program.Basic

/-!
# Visits and searches of a program

A visit is a fold over the instructions with their positions. What holds at its start and is kept by
the step at every position of the program holds at its end: `visit_induction`.

A search backwards finds the nearest wanted instruction if no edge stands in front of it
(`searchBack_eq_some_iff`), and so it finds one if any of them has no edge in front of it
(`searchBack_isSome_iff`). A search forwards does the same behind its start
(`searchForward_eq_some_iff`, `searchForward_isSome_iff`).
-/

namespace IndexAdvisor.Program

/-- Two folds over the same instructions that go side by side, with positions counted from different
numbers. -/
theorem foldl_zipIdx_rel {σ τ : Type} {R : σ → τ → Prop} {step : σ → Nat → Instr → σ}
    {step' : τ → Nat → Instr → τ} (instrs : List Instr) (k m : Nat) {start : σ} {start' : τ}
    (h0 : R start start')
    (hstep : ∀ s s' n i, instrs[n]? = some i → R s s' → R (step s (k + n) i) (step' s' (m + n) i)) :
    R ((instrs.zipIdx k).foldl (fun s entry => step s entry.2 entry.1) start)
      ((instrs.zipIdx m).foldl (fun s entry => step' s entry.2 entry.1) start') := by
  induction instrs generalizing k m start start' with
  | nil => exact h0
  | cons i rest ih =>
    rw [List.zipIdx_cons, List.foldl_cons, List.zipIdx_cons, List.foldl_cons]
    apply ih (k + 1) (m + 1)
    · exact hstep start start' 0 i rfl h0
    · intro s s' n j hj hs
      have hnext := hstep s s' (n + 1) j hj hs
      rw [Nat.add_assoc, Nat.add_comm 1 n, Nat.add_assoc, Nat.add_comm 1 n]
      exact hnext

/-- An invariant of the step is an invariant of the visit. -/
theorem visit_induction {σ : Type} {P : σ → Prop} {step : σ → Nat → Instr → σ} (p : Program)
    {start : σ} (h0 : P start) (hstep : ∀ s pos i, p.at? pos = some i → P s → P (step s pos i)) :
    P (p.visit start step) := by
  apply @foldl_zipIdx_rel σ σ (fun s _ => P s) step step p.instrs 0 0 start start h0
  intro s _ n i hi hs
  rw [Nat.zero_add]
  exact hstep s n i hi hs

/-- A search forwards through a list finds the first wanted instruction if no edge stands in front
of it. -/
theorem searchList_eq_some_iff {want edge : Instr → Bool} {instrs : List Instr} {k q : Nat} :
    searchList want edge k instrs = some q ↔
      ∃ n i, q = k + n ∧ instrs[n]? = some i ∧ want i = true ∧
        ∀ m j, m < n → instrs[m]? = some j → want j = false ∧ edge j = false := by
  fun_induction searchList want edge k instrs with
  | case1 => simp
  | case2 k i rest hwant =>
    constructor
    · intro h
      obtain rfl := Option.some.inj h
      exact ⟨0, i, rfl, rfl, hwant, fun m j hm _ => absurd hm (Nat.not_lt_zero m)⟩
    · rintro ⟨_ | n, j, rfl, hj, -, hclear⟩
      · rfl
      · rw [(hclear 0 i (Nat.succ_pos n) rfl).1] at hwant
        cases hwant
  | case3 k i rest hwant hedge =>
    refine iff_of_false (fun h => nomatch h) ?_
    rintro ⟨_ | n, j, rfl, hj, hwant', hclear⟩
    · obtain rfl := Option.some.inj hj
      exact hwant hwant'
    · rw [(hclear 0 i (Nat.succ_pos n) rfl).2] at hedge
      cases hedge
  | case4 k i rest hwant hedge ih =>
    rw [ih]
    constructor
    · rintro ⟨n, j, rfl, hj, hwant', hclear⟩
      refine ⟨n + 1, j, by omega, hj, hwant', fun m j' hm hj' => ?_⟩
      rcases m with _ | m
      · obtain rfl := Option.some.inj hj'
        exact ⟨Bool.eq_false_iff.2 hwant, Bool.eq_false_iff.2 hedge⟩
      · exact hclear m j' (Nat.lt_of_succ_lt_succ hm) hj'
    · rintro ⟨_ | n, j, rfl, hj, hwant', hclear⟩
      · obtain rfl := Option.some.inj hj
        exact absurd hwant' hwant
      · exact ⟨n, j, by omega, hj, hwant',
          fun m j' hm hj' => hclear (m + 1) j' (Nat.succ_lt_succ hm) hj'⟩

/-- A search forwards finds the first wanted instruction behind its start if no edge stands in front
of it. -/
theorem searchForward_eq_some_iff {p : Program} {start q : Nat} {want edge : Instr → Bool} :
    p.searchForward start want edge = some q ↔
      start < q ∧ (∃ i, p.at? q = some i ∧ want i = true) ∧
        ∀ k j, start < k → k < q → p.at? k = some j → want j = false ∧ edge j = false := by
  have hdrop (m : Nat) : (p.instrs.drop (start + 1))[m]? = p.at? (start + 1 + m) :=
    List.getElem?_drop
  rw [searchForward, searchList_eq_some_iff]
  simp only [hdrop]
  constructor
  · rintro ⟨n, i, rfl, hi, hwant, hclear⟩
    refine ⟨by omega, ⟨i, hi, hwant⟩, fun k j hk hkn hj => hclear (k - (start + 1)) j (by omega) ?_⟩
    rw [Nat.add_sub_cancel' hk]
    exact hj
  · rintro ⟨hlt, ⟨i, hi, hwant⟩, hclear⟩
    have hplace : start + 1 + (q - (start + 1)) = q := Nat.add_sub_cancel' hlt
    refine ⟨q - (start + 1), i, hplace.symm, ?_, hwant, fun m j hm hj => ?_⟩
    · rw [hplace]
      exact hi
    · exact hclear (start + 1 + m) j (by omega) (by omega) hj

/-- What a search forwards finds is wanted, and stands behind the start. -/
theorem searchForward_some {p : Program} {start q : Nat} {want edge : Instr → Bool}
    (h : p.searchForward start want edge = some q) :
    start < q ∧ ∃ i, p.at? q = some i ∧ want i = true := by
  obtain ⟨hlt, hfound, -⟩ := searchForward_eq_some_iff.1 h
  exact ⟨hlt, hfound⟩

theorem searchForward_eq_some {p : Program} {start q : Nat} {want edge : Instr → Bool} {i : Instr}
    (hq : start < q) (hi : p.at? q = some i) (hwant : want i = true)
    (hclear : ∀ k j, start < k → k < q → p.at? k = some j → want j = false ∧ edge j = false) :
    p.searchForward start want edge = some q :=
  searchForward_eq_some_iff.2 ⟨hq, ⟨i, hi, hwant⟩, hclear⟩

/-- A search forwards succeeds exactly if a wanted instruction behind the start has no edge in front
of it; which of them is the first does not matter. -/
theorem searchForward_isSome_iff {p : Program} {start : Nat} {want edge : Instr → Bool} :
    (p.searchForward start want edge).isSome = true ↔
      ∃ q i, start < q ∧ p.at? q = some i ∧ want i = true ∧
        ∀ k j, start < k → k < q → p.at? k = some j → edge j = false := by
  rw [Option.isSome_iff_exists]
  constructor
  · rintro ⟨q, hq⟩
    obtain ⟨hlt, ⟨i, hi, hwant⟩, hclear⟩ := searchForward_eq_some_iff.1 hq
    exact ⟨q, i, hlt, hi, hwant, fun k j hk hkq hj => (hclear k j hk hkq hj).2⟩
  · rintro ⟨q, i, hlt, hi, hwant, hedge⟩
    induction q using Nat.strongRecOn generalizing i with
    | ind q ih =>
      by_cases hearlier : ∃ k j, start < k ∧ k < q ∧ p.at? k = some j ∧ want j = true
      · obtain ⟨k, j, hk, hkq, hj, hwant'⟩ := hearlier
        exact ih k hkq j hk hj hwant' fun m e hm hmk he => hedge m e hm (Nat.lt_trans hmk hkq) he
      · refine ⟨q, searchForward_eq_some hlt hi hwant fun k j hk hkq hj =>
          ⟨?_, hedge k j hk hkq hj⟩⟩
        exact Bool.eq_false_iff.2 fun hwant' => hearlier ⟨k, j, hk, hkq, hj, hwant'⟩

theorem lt_size_of_at? {p : Program} {q : Nat} {i : Instr} (h : p.at? q = some i) : q < p.size :=
  (List.getElem?_eq_some_iff.1 h).1

/-- A search downwards finds the nearest wanted instruction if no edge stands in front of it. -/
theorem searchBelow_eq_some_iff {p : Program} {pos q : Nat} {want edge : Instr → Bool} :
    p.searchBelow want edge pos = some q ↔
      q < pos ∧ (∃ i, p.at? q = some i ∧ want i = true) ∧
        ∀ k j, q < k → k < pos → p.at? k = some j → want j = false ∧ edge j = false := by
  fun_induction p.searchBelow want edge pos with
  | case1 => simp
  | case2 pos hnone ih =>
    rw [ih]
    grind
  | case3 pos i hi hwant => grind
  | case4 pos i hi hwant hedge => grind
  | case5 pos i hi hwant hedge ih =>
    rw [ih]
    grind

/-- There is nothing behind the end of a program, so it does not matter that a search back begins
there at the latest. -/
theorem searchBack_eq_searchBelow (p : Program) (start : Nat) (want edge : Instr → Bool) :
    p.searchBack start want edge = p.searchBelow want edge start := by
  rw [searchBack]
  induction start with
  | zero => rw [Nat.zero_min]
  | succ start ih =>
    rcases Nat.lt_or_ge start p.size with hlt | hge
    · rw [Nat.min_eq_left hlt]
    · have hnone : p.at? start = none := List.getElem?_eq_none hge
      rw [Nat.min_eq_right hge] at ih
      rw [Nat.min_eq_right (Nat.le_succ_of_le hge), searchBelow, hnone, ih]

theorem searchBack_eq_some_iff {p : Program} {start q : Nat} {want edge : Instr → Bool} :
    p.searchBack start want edge = some q ↔
      q < start ∧ (∃ i, p.at? q = some i ∧ want i = true) ∧
        ∀ k j, q < k → k < start → p.at? k = some j → want j = false ∧ edge j = false := by
  rw [searchBack_eq_searchBelow, searchBelow_eq_some_iff]

/-- A search downwards succeeds exactly if a wanted instruction has no edge between it and the
start; which of them is the nearest does not matter. -/
theorem searchBelow_isSome_iff {p : Program} {pos : Nat} {want edge : Instr → Bool} :
    (p.searchBelow want edge pos).isSome = true ↔
      ∃ q i, q < pos ∧ p.at? q = some i ∧ want i = true ∧
        ∀ k j, q < k → k < pos → p.at? k = some j → edge j = false := by
  fun_induction p.searchBelow want edge pos with
  | case1 => simp
  | case2 pos hnone ih =>
    rw [ih]
    grind
  | case3 pos i hi hwant =>
    -- what is wanted is found even if it is an edge itself
    refine iff_of_true rfl ⟨pos, i, Nat.lt_succ_self pos, hi, hwant, fun k j hk hkn _ => ?_⟩
    omega
  | case4 pos i hi hwant hedge => grind
  | case5 pos i hi hwant hedge ih =>
    rw [ih]
    grind

theorem searchBack_isSome_iff {p : Program} {start : Nat} {want edge : Instr → Bool} :
    (p.searchBack start want edge).isSome = true ↔
      ∃ q i, q < start ∧ p.at? q = some i ∧ want i = true ∧
        ∀ k j, q < k → k < start → p.at? k = some j → edge j = false := by
  rw [searchBack_eq_searchBelow, searchBelow_isSome_iff]

/-- The last writer of a register is the nearest instruction before a position that writes it. -/
theorem lastWriter_eq_some_iff {p : Program} {pos w : Nat} {register : Int} :
    p.lastWriter pos register = some w ↔
      w < pos ∧ (∃ i, p.at? w = some i ∧ i.writes register = true) ∧
        ∀ k j, w < k → k < pos → p.at? k = some j → j.writes register = false := by
  rw [lastWriter, searchBack_eq_some_iff]
  simp [noEdge]

theorem lastWriter_eq_none_iff {p : Program} {pos : Nat} {register : Int} :
    p.lastWriter pos register = none ↔ ∀ k j, k < pos → p.at? k = some j →
      j.writes register = false := by
  rw [lastWriter, ← Option.not_isSome_iff_eq_none, searchBack_isSome_iff]
  constructor
  · intro h k j hk hj
    exact Bool.eq_false_iff.2 fun hwrites => h ⟨k, j, hk, hj, hwrites, fun _ _ _ _ _ => rfl⟩
  · rintro h ⟨q, i, hq, hi, hwrites, -⟩
    rw [h q i hq hi] at hwrites
    cases hwrites

/-- The position of an address is that of the last instruction which has the address. -/
theorem positionOf?_eq_some_iff {p : Program} {address : Int} {q : Nat} :
    p.positionOf? address = some q ↔
      (∃ i, p.at? q = some i ∧ i.address = address) ∧ ∀ k j, q < k → p.at? k = some j →
        j.address ≠ address := by
  rw [positionOf?, searchBelow_eq_some_iff]
  simp only [beq_iff_eq, beq_eq_false_iff_ne, noEdge, and_true]
  constructor
  · rintro ⟨-, hfound, hlast⟩
    exact ⟨hfound, fun k j hqk hj => hlast k j hqk (lt_size_of_at? hj) hj⟩
  · rintro ⟨⟨i, hi, haddress⟩, hlast⟩
    exact ⟨lt_size_of_at? hi, ⟨i, hi, haddress⟩, fun k j hqk _ hj => hlast k j hqk hj⟩

end IndexAdvisor.Program
