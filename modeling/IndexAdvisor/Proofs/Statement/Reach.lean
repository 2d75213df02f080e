import IndexAdvisor.Statement.Recognizer

/-!
# Phrases without semicolons

A recognizer takes its phrase off the front of a row, and no phrase of a query has a semicolon in
it. This is said of a recognizer as a class, `Avoids`, so that what holds of the parts of a phrase
is found for the phrase that is put together from them; a proof is only written where a phrase looks
at a single piece or skips pieces that it has looked at before.

> `Avoids.reaches`: what a phrase leaves is reached over pieces that are no semicolons.
-/

namespace IndexAdvisor.Statement

/-- Whether a row is what is left of another one after some pieces that are no semicolons. -/
def Reaches (ts rest : List Piece) : Prop := ∃ used, ts = used ++ rest ∧ Piece.mark ";" ∉ used

namespace Reaches

variable {ts rest last : List Piece}

theorem refl (ts : List Piece) : Reaches ts ts := ⟨[], rfl, List.not_mem_nil⟩

theorem trans (h : Reaches ts rest) (h' : Reaches rest last) : Reaches ts last := by
  obtain ⟨used, rfl, hused⟩ := h
  obtain ⟨more, rfl, hmore⟩ := h'
  refine ⟨used ++ more, (List.append_assoc ..).symm, ?_⟩
  rw [List.mem_append, not_or]
  exact ⟨hused, hmore⟩

theorem cons {t : Piece} (ht : t ≠ .mark ";") (h : Reaches ts rest) : Reaches (t :: ts) rest := by
  obtain ⟨used, rfl, hused⟩ := h
  refine ⟨t :: used, rfl, ?_⟩
  rw [List.mem_cons, not_or]
  exact ⟨Ne.symm ht, hused⟩

theorem drop {n : Nat} (hn : .mark ";" ∉ ts.take n) (h : Reaches (ts.drop n) rest) :
    Reaches ts rest := by
  obtain ⟨used, hdrop, hused⟩ := h
  refine ⟨ts.take n ++ used, ?_, ?_⟩
  · rw [List.append_assoc, ← hdrop, List.take_append_drop]
  · rw [List.mem_append, not_or]
    exact ⟨hn, hused⟩

end Reaches

/-- A phrase without semicolons. -/
class Recognizer.Avoids (p : Recognizer) : Prop where
  reaches : ∀ {ts rest : List Piece}, p.run ts = .ok rest → Reaches ts rest

namespace Recognizer

variable {p q : Recognizer} {test : List Piece → Bool} {n : Nat} {ws : List String}

instance avoids_nothing : Avoids nothing where
  reaches h := by
    cases h
    exact Reaches.refl _

instance avoids_refuse (why : Refusal) : Avoids (refuse why) where
  reaches h := nomatch h

instance avoids_delay {p : Unit → Recognizer} [Avoids (p ())] : Avoids (delay p) where
  reaches := Avoids.reaches (p := p ())

theorem avoids_one {wanted : Piece → Bool} (h : wanted (.mark ";") = false) :
    Avoids (one wanted) where
  reaches {ts rest} hrun := by
    rcases ts with _ | ⟨t, ts⟩
    · cases hrun
    · simp only [one] at hrun
      split at hrun
      · next ht =>
        cases hrun
        -- the piece that is taken is wanted, and a semicolon is not
        apply Reaches.cons _ (Reaches.refl _)
        rintro rfl
        rw [h] at ht
        cases ht
      · cases hrun

instance avoids_word (w : String) : Avoids (word w) := avoids_one rfl

instance avoids_oneOf (ws : List String) : Avoids (oneOf ws) := avoids_one rfl

theorem avoids_mark {m : String} (hm : (m == ";") = false) : Avoids (mark m) :=
  avoids_one <| by
    rw [beq_eq_false_iff_ne] at hm ⊢
    intro h
    cases h
    exact hm rfl

instance avoids_openParen : Avoids (mark "(") := avoids_mark rfl

instance avoids_closeParen : Avoids (mark ")") := avoids_mark rfl

instance avoids_seq [hp : Avoids p] [hq : Avoids q] : Avoids (p >> q) where
  reaches {ts rest} h := by
    simp only [HAndThen.hAndThen, AndThen.andThen, seq] at h
    split at h
    · next hrun => exact (hp.reaches hrun).trans (hq.reaches h)
    · cases h

instance avoids_either [hp : Avoids p] [hq : Avoids q] : Avoids (p <|> q) where
  reaches {ts rest} h := by
    simp only [HOrElse.hOrElse, OrElse.orElse, either] at h
    split at h
    · exact hq.reaches h
    · exact hp.reaches h

instance avoids_ite {c : Prop} [Decidable c] [Avoids p] [Avoids q] :
    Avoids (if c then p else q) := by
  split <;> assumption

instance avoids_choose [hp : Avoids p] [hq : Avoids q] : Avoids (choose test p q) where
  reaches {ts rest} h := by
    simp only [choose] at h
    split at h
    · exact hp.reaches h
    · exact hq.reaches h

theorem skip_reaches [hp : Avoids p] {ts rest : List Piece} (hn : .mark ";" ∉ ts.take n)
    (h : (skip n p).run ts = .ok rest) : Reaches ts rest :=
  (hp.reaches h).drop hn

/-- Pieces may be skipped that a look at them has told from semicolons. -/
theorem avoids_choose_skip [Avoids p] [hq : Avoids q]
    (htest : ∀ ts, test ts = true → .mark ";" ∉ ts.take n) : Avoids (choose test (skip n p) q) where
  reaches {ts rest} h := by
    simp only [choose] at h
    split at h
    · next ht => exact skip_reaches (htest ts ht) h
    · exact hq.reaches h

theorem not_mem_take_of_begins {ts : List Piece} (h : begins ws ts = true) :
    .mark ";" ∉ ts.take ws.length := by
  induction ws generalizing ts with
  | nil => exact List.not_mem_nil
  | cons w ws ih =>
    rcases ts with _ | ⟨t, ts⟩
    · exact List.not_mem_nil
    · simp only [begins, Bool.and_eq_true, beq_iff_eq] at h
      obtain ⟨rfl, h⟩ := h
      rw [List.length_cons, List.take_succ_cons, List.mem_cons, not_or]
      exact ⟨nofun, ih h⟩

theorem not_mem_take_of_nextIn {ts : List Piece} (h : nextIn ws ts = true) :
    .mark ";" ∉ ts.take 1 := by
  unfold nextIn at h
  split at h
  · simp
  · cases h

theorem not_mem_take_of_nextMark {m : String} (hm : (m == ";") = false) {ts : List Piece}
    (h : nextMark m ts = true) : .mark ";" ∉ ts.take 1 := by
  unfold nextMark at h
  split at h
  · rw [beq_iff_eq] at h
    subst h
    rw [beq_eq_false_iff_ne] at hm
    simp only [List.take_succ_cons, List.take_zero, List.mem_singleton, Piece.mark.injEq]
    exact Ne.symm hm
  · cases h

instance avoids_choose_nextIn [Avoids p] [Avoids q] : Avoids (choose (nextIn ws) (skip 1 p) q) :=
  avoids_choose_skip fun _ => not_mem_take_of_nextIn

instance avoids_givenElse [Avoids p] [Avoids q] : Avoids (givenElse ws p q) :=
  avoids_choose_skip fun _ => not_mem_take_of_begins

instance avoids_given [Avoids p] : Avoids (given ws p) := by
  unfold given
  infer_instance

instance avoids_maybe : Avoids (maybe ws) := by
  unfold maybe
  infer_instance

instance avoids_maybeOne : Avoids (maybeOne ws) := by
  unfold maybeOne
  infer_instance

theorem avoids_givenMark {m : String} (hm : (m == ";") = false) [Avoids p] :
    Avoids (givenMark m p) :=
  avoids_choose_skip fun _ => not_mem_take_of_nextMark hm

instance avoids_words (ws : List String) : Avoids (words ws) := by
  induction ws with
  | nil => exact avoids_nothing
  | cons w ws ih =>
    show Avoids (word w >> words ws)
    infer_instance

instance avoids_cases_nil [Avoids q] : Avoids (cases [] q) := ‹Avoids q›

instance avoids_cases_cons {openings : List (List String × Recognizer)} [Avoids p]
    [Avoids (cases openings q)] : Avoids (cases ((ws, p) :: openings) q) := by
  show Avoids (givenElse ws p (cases openings q))
  infer_instance

theorem repeatedly_reaches {select : Piece → List Piece → Option Recognizer} {ts rest : List Piece}
    (hselect : ∀ t ts p, select t ts = some p →
      t ≠ .mark ";" ∧ ∀ rest, p.run ts = .ok rest → Reaches ts rest)
    (h : repeatedly select ts = .ok rest) : Reaches ts rest := by
  fun_induction repeatedly select ts with
  | case1 | case2 =>
    cases h
    exact Reaches.refl _
  | case3 t ts p hp rest' hrun ih =>
    -- over the piece that begins the phrase, then the phrase, then what the loop goes on to
    obtain ⟨ht, hreaches⟩ := hselect t ts p hp
    exact ((hreaches rest' hrun).trans (ih h)).cons ht
  | case4 => cases h

/-- A loop avoids semicolons if none of its phrases begins with one, and each avoids them in the
rows that it is looked for in. -/
theorem avoids_loop_at {select : Piece → List Piece → Option Recognizer}
    (hselect : ∀ t ts p, select t ts = some p →
      t ≠ .mark ";" ∧ ∀ rest, p.run ts = .ok rest → Reaches ts rest) : Avoids (loop select) where
  reaches h := repeatedly_reaches hselect h

theorem avoids_loop {select : Piece → List Piece → Option Recognizer}
    (hselect : ∀ t ts p, select t ts = some p → t ≠ .mark ";" ∧ Avoids p) :
    Avoids (loop select) := by
  apply avoids_loop_at
  intro t ts p h
  obtain ⟨ht, hp⟩ := hselect t ts p h
  exact ⟨ht, fun _ => hp.reaches⟩

/-- The loop of a phrase that comes again and again after one and the same piece. -/
theorem avoids_loop_after (start : Piece) [Avoids p] (hstart : start ≠ .mark ";") :
    Avoids (loop fun t _ => if t == start then some p else none) := by
  apply avoids_loop
  intro t ts p' h
  split at h
  · next ht =>
    cases h
    rw [beq_iff_eq] at ht
    exact ⟨ht ▸ hstart, ‹_›⟩
  · cases h

instance avoids_commas [Avoids p] : Avoids (commas p) := by
  have := avoids_loop_after (p := p) (.mark ",") (by decide)
  unfold commas
  infer_instance

instance avoids_inParens [Avoids p] : Avoids (inParens p) := by
  unfold inParens
  infer_instance

instance avoids_list [Avoids p] : Avoids (list p) := by
  unfold list
  infer_instance

instance avoids_maybeList [Avoids p] : Avoids (maybeList p) := by
  unfold maybeList
  infer_instance

end Recognizer

end IndexAdvisor.Statement
