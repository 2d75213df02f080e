import IndexAdvisor.Retry
import IndexAdvisor.Settings.Basic
import IndexAdvisor.Text.Numeral
import Mathlib.Data.ENat.Lattice

/-!
# Schedules

How often an operation is called, when, and with what result, told without the loop. A call settles
a course if it succeeds or fails for good (`settles`), and the first call that does so is the last
one unless the calls that are allowed run out before (`OnSchedule`). In between the pauses double,
up to a limit.

> `course_onSchedule_iff`: a course is on the schedule that allows one call and all retries exactly
> if that number is a word of 32 bits.

With the largest number of retries the sum is no word: the program breaks off, and there is no call
at all (`course_onSchedule_overflow`).
-/

namespace IndexAdvisor.Retry

variable {α : Type} {calls : Nat → Call α} {name : String} {maxRetries last more : Nat}

/-- Whether a call ends the course: it succeeds, or fails in a way that does not pass by itself. -/
def settles : Except Causes α → Bool
  | .ok _ => true
  | .error causes => !isPassing causes

/-- The number of the first call that settles, counted from one. There may be none. -/
noncomputable def firstSettled (calls : Nat → Call α) : ℕ∞ :=
  ⨅ (n : Nat) (_ : settles (calls n).outcome = true), ((n + 1 : Nat) : ℕ∞)

/-- When a call begins if all calls before it fail in passing: after them and the pauses behind
them. Calls are counted from zero. -/
def startOf (calls : Nat → Call α) : Nat → Nat
  | 0 => 0
  | n + 1 => startOf calls n + (calls n).duration + 100 * 2 ^ min n 10

/-- When a call ends. -/
def endOf (calls : Nat → Call α) (n : Nat) : Nat := startOf calls n + (calls n).duration

/-- The course with a given last call: it ends with this call, and as the call does. -/
def upTo (calls : Nat → Call α) (last : Nat) : Course α where
  starts := (List.range (last + 1)).map (startOf calls)
  pauses := (List.range last).map (endOf calls)
  ending := some (endOf calls last, (calls last).outcome.mapError .failed)

/-- The last call is the first one that settles, or the last one that is allowed. -/
def OnSchedule (calls : Nat → Call α) (course : Course α) (allowed : Nat) : Prop :=
  ∃ last : Nat, ((last + 1 : Nat) : ℕ∞) = min (firstSettled calls) allowed ∧
    course = upTo calls last

theorem firstSettled_le (h : settles (calls last).outcome = true) :
    firstSettled calls ≤ (last + 1 : Nat) :=
  iInf₂_le last h

theorem le_firstSettled (h : ∀ n < last, settles (calls n).outcome = false) :
    ((last + 1 : Nat) : ℕ∞) ≤ firstSettled calls := by
  refine le_iInf₂ fun n hn => ?_
  have hle : last ≤ n := by
    refine Nat.le_of_not_lt fun hlt => ?_
    rw [h n hlt] at hn
    cases hn
  exact_mod_cast Nat.succ_le_succ hle

/-- A call before which none settles, and which settles itself or is the last one allowed. -/
theorem eq_min_firstSettled (hbefore : ∀ n < last, settles (calls n).outcome = false)
    (hle : last ≤ more) (hlast : last = more ∨ settles (calls last).outcome = true) :
    ((last + 1 : Nat) : ℕ∞) = min (firstSettled calls) (more + 1 : Nat) := by
  apply le_antisymm
  · have hallowed : ((last + 1 : Nat) : ℕ∞) ≤ (more + 1 : Nat) := by
      exact_mod_cast Nat.succ_le_succ hle
    exact le_min (le_firstSettled hbefore) hallowed
  · rcases hlast with rfl | hsettles
    · exact min_le_right ..
    · exact (min_le_left ..).trans (firstSettled_le hsettles)

/-- What a call comes to: it is the last one if it settles or none may follow. -/
theorem courseFrom_call (calls : Nat → Call α) (name : String) (more failures now : Nat) :
    courseFrom (fun n => some (calls n)) name none more failures now =
      if more = 0 ∨ settles (calls failures).outcome = true then
        ⟨[now], [],
          some (now + (calls failures).duration, (calls failures).outcome.mapError .failed)⟩
      else
        (courseFrom (fun n => some (calls n)) name none (more - 1) (failures + 1)
          (now + (calls failures).duration + 100 * 2 ^ min failures 10)).prepend now
            (now + (calls failures).duration) := by
  rw [courseFrom.eq_def]
  rcases houtcome : (calls failures).outcome with causes | value
  · rcases more with _ | more
    · simp [houtcome, Except.mapError]
    · rcases hpassing : isPassing causes <;> simp [houtcome, settles, hpassing,
        Except.mapError, pauseAfter]
  · simp [houtcome, settles, Except.mapError]

/-- A course goes on to the first call that settles, or to the last one allowed. The calls that are
still to come are an initial part of all later ones. -/
theorem courseFrom_schedule (calls : Nat → Call α) (name : String) (more failures : Nat) :
    ∃ n ≤ more, (∀ k < n, settles (calls (failures + k)).outcome = false) ∧
      (n = more ∨ settles (calls (failures + n)).outcome = true) ∧
      courseFrom (fun n => some (calls n)) name none more failures (startOf calls failures) =
        ⟨(List.range' failures (n + 1)).map (startOf calls),
          (List.range' failures n).map (endOf calls),
          some (endOf calls (failures + n), (calls (failures + n)).outcome.mapError .failed)⟩ := by
  induction more generalizing failures with
  | zero =>
    refine ⟨0, Nat.le_refl 0, nofun, .inl rfl, ?_⟩
    rw [courseFrom_call, if_pos (.inl rfl)]
    rfl
  | succ more ih =>
    rcases hsettles : settles (calls failures).outcome with _ | _
    · obtain ⟨n, hn, hbefore, hlast, hrest⟩ := ih (failures + 1)
      have hplace (k : Nat) : failures + 1 + k = failures + (k + 1) := by omega
      refine ⟨n + 1, Nat.succ_le_succ hn, ?_, ?_, ?_⟩
      · intro k hk
        rcases k with _ | k
        · exact hsettles
        · rw [← hplace]
          exact hbefore k (by omega)
      · rw [← hplace]
        exact hlast.imp_left (congrArg (· + 1))
      · rw [startOf] at hrest
        rw [courseFrom_call, if_neg (by simp [hsettles]), Nat.add_sub_cancel, hrest, hplace]
        rfl
    · refine ⟨0, Nat.zero_le _, nofun, .inr hsettles, ?_⟩
      rw [courseFrom_call, if_pos (.inr hsettles)]
      rfl

/-- A course that is not broken off keeps to the schedule of all calls that are allowed. -/
theorem course_onSchedule (calls : Nat → Call α) (name : String) (h : maxRetries < maxWord32) :
    OnSchedule calls (course (fun n => some (calls n)) name maxRetries) (maxRetries + 1) := by
  have hlimit : callLimit? maxRetries = some (maxRetries + 1) := if_pos (Nat.succ_lt_succ h)
  have hcourse : course (fun n => some (calls n)) name maxRetries =
      courseFrom (fun n => some (calls n)) name none maxRetries 0 0 := by
    rw [course, courseUpTo, hlimit]
    rfl
  obtain ⟨n, hle, hbefore, hlast, hcalls⟩ := courseFrom_schedule calls name maxRetries 0
  simp only [Nat.zero_add] at hbefore hlast hcalls
  refine ⟨n, eq_min_firstSettled hbefore hle hlast, ?_⟩
  rw [hcourse, upTo, List.range_eq_range', List.range_eq_range', ← hcalls]
  rfl

/-- No schedule is without calls. -/
theorem not_onSchedule_brokenOff (calls : Nat → Call α) (allowed : Nat) :
    ¬OnSchedule calls brokenOff allowed := by
  rintro ⟨last, -, hcourse⟩
  have hlength : 0 = (upTo calls last).starts.length :=
    congrArg (fun course => course.starts.length) hcourse
  simp [upTo] at hlength

/-- With a number of retries that fits a word of 32 bits, a course has as many calls as go up to the
first one that settles, or else one more than there are retries, and it ends as the last of them
does, exactly if that number fits the word as well. With the largest number of retries nothing is
called. -/
theorem course_onSchedule_iff (calls : Nat → Call α) (name : String) (h : maxRetries ≤ maxWord32) :
    (OnSchedule calls (course (fun n => some (calls n)) name maxRetries) (maxRetries + 1) ↔
      maxRetries < maxWord32) ∧
    (maxRetries = maxWord32 → course (fun n => some (calls n)) name maxRetries = brokenOff) := by
  rcases Nat.lt_or_eq_of_le h with hlt | rfl
  · exact ⟨iff_of_true (course_onSchedule calls name hlt) hlt,
      fun heq => absurd heq (Nat.ne_of_lt hlt)⟩
  · have hbroken : course (fun n => some (calls n)) name maxWord32 = brokenOff := rfl
    refine ⟨?_, fun _ => hbroken⟩
    rw [hbroken]
    exact iff_of_false (not_onSchedule_brokenOff calls _) (Nat.lt_irrefl _)

/-! ## A lock that is met once -/

/-- An operation that meets a lock after 30 ms. Its second call, and any further one, succeeds after
20 ms. -/
def lockedOnce : Nat → Call Unit
  | 0 => ⟨30, .error ["database is locked"]⟩
  | _ + 1 => ⟨20, .ok ()⟩

/-- With two retries there is a second call, which is the last one. -/
theorem course_onSchedule_lockedOnce :
    2 ≤ maxWord32 ∧ OnSchedule lockedOnce (course (fun n => some (lockedOnce n)) "EXPLAIN" 2) 3 :=
  ⟨by decide, (course_onSchedule_iff lockedOnce "EXPLAIN" (by decide)).1.2 (by decide)⟩

/-- With the largest number of retries there is none, and no first one either. No check of the
settings refuses this number. -/
theorem course_onSchedule_overflow :
    Settings.fault?
        { database := { path := "app.db" }, pool := { maxRetries := maxWord32 } } = none ∧
      course (fun n => some (lockedOnce n)) "EXPLAIN" maxWord32 =
        ⟨[], [], some (0, .error .overflow)⟩ ∧
      ¬OnSchedule lockedOnce (course (fun n => some (lockedOnce n)) "EXPLAIN" maxWord32)
        (maxWord32 + 1) := by
  have hbroken : course (fun n => some (lockedOnce n)) "EXPLAIN" maxWord32 = brokenOff := rfl
  refine ⟨by decide +kernel, hbroken, ?_⟩
  rw [hbroken]
  exact not_onSchedule_brokenOff lockedOnce _

end IndexAdvisor.Retry
