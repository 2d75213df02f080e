import IndexAdvisor.Retry

/-!
# Deadlines

A deadline cuts the waiting off wherever it falls: in a call, in a pause, or in a call that never
ends. The loop looks at the limit in each of these places, and a run under a deadline should still
be a piece of the run without one.

> `courseWithin_refines`: what ends before its deadline is not changed by it; anything else ends at
> the deadline with the error that says so, after exactly the calls and pauses that begin before it.

Nothing is shifted by the deadline and nothing begins after it, so it is never tried again when it
has passed.
-/

namespace IndexAdvisor

namespace Course

variable {α : Type}

/-- The times at which a call begins, a pause begins or everything ends. -/
def events (course : Course α) : List Nat :=
  course.starts ++ course.pauses ++ (course.ending.map Prod.fst).toList

/-- What has happened of a course up to a limit, and then the error of the limit. -/
def cutOff (course : Course α) (name : String) (limit : Nat) : Course α :=
  ⟨course.starts.filter (· ≤ limit), course.pauses.filter (· ≤ limit),
    some (limit, .error (.expired name limit))⟩

/-- A course that is cut off at a limit unless it ends before. -/
def within (course : Course α) (name : String) (limit : Nat) : Course α :=
  if course.ending.any (·.1 ≤ limit) then course else course.cutOff name limit

theorem mem_events {course : Course α} {time : Nat} :
    time ∈ course.events ↔ time ∈ course.starts ∨ time ∈ course.pauses ∨
      ∃ result, course.ending = some (time, result) := by
  simp [events]

@[simp]
theorem events_prepend {course : Course α} {start pause time : Nat} :
    time ∈ (course.prepend start pause).events ↔ time = start ∨ time = pause ∨
      time ∈ course.events := by
  simp only [mem_events, prepend, List.mem_cons, or_assoc, or_left_comm]

/-- A limit behind the first call and pause only concerns what follows them. -/
theorem within_prepend {course : Course α} {start pause limit : Nat} (name : String)
    (hstart : start ≤ limit) (hpause : pause ≤ limit) :
    (course.prepend start pause).within name limit =
      (course.within name limit).prepend start pause := by
  unfold within cutOff prepend
  split <;> simp [hstart, hpause]

/-- Nothing of a course that lies behind the limit has happened then. -/
theorem late {course : Course α} {limit : Nat} (h : ∀ time ∈ course.events, limit < time) :
    course.starts.filter (· ≤ limit) = [] ∧ course.pauses.filter (· ≤ limit) = [] ∧
      course.ending.any (·.1 ≤ limit) = false := by
  refine ⟨?_, ?_, ?_⟩
  · rw [List.filter_eq_nil_iff]
    intro time htime
    have := h time (mem_events.2 (.inl htime))
    simpa using this
  · rw [List.filter_eq_nil_iff]
    intro time htime
    have := h time (mem_events.2 (.inr (.inl htime)))
    simpa using this
  · rw [Option.any_eq_false]
    rintro ⟨time, result⟩ hend
    have := h time (mem_events.2 (.inr (.inr ⟨result, hend⟩)))
    simpa using this

/-- Where the rest lies behind the limit, only the first call and pause can be left. -/
theorem within_prepend_late {course : Course α} {start pause limit : Nat} (name : String)
    (h : ∀ time ∈ course.events, limit < time) :
    (course.prepend start pause).within name limit =
      cutOff ⟨[start], [pause], none⟩ name limit := by
  obtain ⟨hstarts, hpauses, hending⟩ := late h
  simp [within, cutOff, prepend, List.filter_cons, hstarts, hpauses, hending]

end Course

namespace Retry

variable {α : Type} {calls : Nat → Option (Call α)} {name : String}

/-- What a call comes to, with and without a limit: it never ends, or everything ends with it, or a
pause follows and then the rest. -/
theorem courseFrom_step (calls : Nat → Option (Call α)) (name : String) (more failures now : Nat) :
    (courseFrom calls name none more failures now = ⟨[now], [], none⟩ ∧
      ∀ limit, courseFrom calls name (some limit) more failures now =
        ⟨[now], [], some (limit, .error (.expired name limit))⟩) ∨
    (∃ done result, now ≤ done ∧
      courseFrom calls name none more failures now = ⟨[now], [], some (done, result)⟩ ∧
      ∀ limit, courseFrom calls name (some limit) more failures now =
        if limit < done then ⟨[now], [], some (limit, .error (.expired name limit))⟩
        else ⟨[now], [], some (done, result)⟩) ∨
    ∃ done next rest, now ≤ done ∧ done ≤ next ∧ more = rest + 1 ∧
      courseFrom calls name none more failures now =
        (courseFrom calls name none rest (failures + 1) next).prepend now done ∧
      ∀ limit, courseFrom calls name (some limit) more failures now =
        if limit < done then ⟨[now], [], some (limit, .error (.expired name limit))⟩
        else if limit < next then ⟨[now], [done], some (limit, .error (.expired name limit))⟩
        else (courseFrom calls name (some limit) rest (failures + 1) next).prepend now done := by
  rw [courseFrom.eq_def]
  simp only [courseFrom.eq_def calls name (some _) more failures now]
  rcases calls failures with _ | ⟨duration, outcome⟩
  · exact .inl ⟨rfl, fun _ => rfl⟩
  · have hdone : now ≤ now + duration := Nat.le_add_right ..
    right
    rcases outcome with causes | value
    · rcases more with _ | rest
      · refine .inl ⟨_, _, hdone, rfl, fun limit => ?_⟩
        by_cases hlimit : limit < now + duration <;> simp [Option.filter, hlimit]
      · rcases hpassing : isPassing causes
        · refine .inl ⟨now + duration, .error (.failed causes), hdone,
            by simp [hpassing], fun limit => ?_⟩
          by_cases hlimit : limit < now + duration <;> simp [Option.filter, hpassing, hlimit]
        · refine .inr ⟨now + duration, now + duration + pauseAfter (failures + 1), rest, hdone,
            Nat.le_add_right .., rfl, by simp [hpassing], fun limit => ?_⟩
          by_cases hlimit : limit < now + duration
          · simp [Option.filter, hlimit]
          · by_cases hpause : limit < now + duration + pauseAfter (failures + 1) <;>
              simp [Option.filter, hpassing, hlimit, hpause]
    · refine .inl ⟨_, _, hdone, rfl, fun limit => ?_⟩
      by_cases hlimit : limit < now + duration <;> simp [Option.filter, hlimit]

/-- Nothing happens before the time at which a course begins. -/
theorem le_of_mem_courseFrom {more failures now time : Nat}
    (h : time ∈ (courseFrom calls name none more failures now).events) : now ≤ time := by
  induction more using Nat.strongRecOn generalizing failures now with
  | ind more ih =>
    obtain ⟨hplain, -⟩ | ⟨done, result, hdone, hplain, -⟩ |
      ⟨done, next, rest, hdone, hnext, rfl, hplain, -⟩ :=
      courseFrom_step calls name more failures now
    · rw [hplain] at h
      have htime : time = now := by simpa [Course.mem_events] using h
      omega
    · rw [hplain] at h
      have htime : time = now ∨ done = time := by simpa [Course.mem_events] using h
      omega
    · rw [hplain, Course.events_prepend] at h
      rcases h with h | h | h
      · omega
      · omega
      · have := ih rest (Nat.lt_succ_self rest) h
        omega

/-- A limit cuts a course off and changes nothing else. While the limit is ahead the first call and
pause are the same, and once it is behind them nothing of the rest is left. -/
theorem courseFrom_some {more failures now limit : Nat} (hnow : now ≤ limit) :
    courseFrom calls name (some limit) more failures now =
      (courseFrom calls name none more failures now).within name limit := by
  induction more using Nat.strongRecOn generalizing failures now with
  | ind more ih =>
    obtain ⟨hplain, hlimited⟩ | ⟨done, result, -, hplain, hlimited⟩ |
      ⟨done, next, rest, -, hnext, rfl, hplain, hlimited⟩ :=
      courseFrom_step calls name more failures now
    · rw [hplain, hlimited]
      simp [Course.within, Course.cutOff, hnow]
    · rw [hplain, hlimited]
      by_cases h : limit < done
      · simp [Course.within, Course.cutOff, hnow, h, Nat.not_le.2 h]
      · simp [Course.within, h, Nat.not_lt.1 h]
    · have hlate (h : limit < next) (time : Nat)
          (htime : time ∈ (courseFrom calls name none rest (failures + 1) next).events) :
          limit < time :=
        Nat.lt_of_lt_of_le h (le_of_mem_courseFrom htime)
      rw [hplain, hlimited]
      by_cases hcall : limit < done
      · rw [if_pos hcall, Course.within_prepend_late name (hlate (Nat.lt_of_lt_of_le hcall hnext))]
        simp [Course.cutOff, hnow, Nat.not_le.2 hcall]
      · have hdone := Nat.not_lt.1 hcall
        rw [if_neg hcall]
        by_cases hpause : limit < next
        · rw [if_pos hpause, Course.within_prepend_late name (hlate hpause)]
          simp [Course.cutOff, hnow, hdone]
        · rw [if_neg hpause, ih rest (Nat.lt_succ_self rest) (Nat.not_lt.1 hpause),
            Course.within_prepend name hnow hdone]

/-- A course under a deadline is the course without one, cut off. Where the program breaks off there
is nothing left to cut. -/
theorem courseWithin_eq_within {limit maxRetries : Nat} (hpositive : 0 < limit) :
    courseWithin limit calls name maxRetries =
      (course calls name maxRetries).within name limit := by
  rw [courseWithin, if_neg (Nat.pos_iff_ne_zero.1 hpositive), course, courseUpTo, courseUpTo]
  rcases callLimit? maxRetries with _ | allowed
  · exact (if_pos (decide_eq_true (Nat.zero_le limit))).symm
  · exact courseFrom_some (Nat.zero_le limit)

/-- Without a limit, or with the limit 0, a run is not cut off. Any other limit that no call, no
pause and no end of the run falls on leaves a run that ends before it as it is; it cuts off any
other run, and only what begins before it remains. -/
theorem courseWithin_refines (calls : Nat → Option (Call α)) (name : String) (maxRetries : Nat) :
    courseWithin 0 calls name maxRetries = course calls name maxRetries ∧
    ∀ limit, 0 < limit → limit ∉ (course calls name maxRetries).events →
      ((∃ finish result,
          (course calls name maxRetries).ending = some (finish, result) ∧ finish < limit) →
        courseWithin limit calls name maxRetries = course calls name maxRetries) ∧
      ((∀ finish result,
          (course calls name maxRetries).ending = some (finish, result) → limit < finish) →
        courseWithin limit calls name maxRetries =
          ⟨(course calls name maxRetries).starts.filter (· < limit),
            (course calls name maxRetries).pauses.filter (· < limit),
            some (limit, .error (.expired name limit))⟩) := by
  refine ⟨rfl, fun limit hpositive hnone => ?_⟩
  rw [courseWithin_eq_within hpositive]
  -- nothing happens at the limit, so it does not matter whether that would still count
  have hstrict (times : List Nat)
      (h : ∀ time ∈ times, time ∈ (course calls name maxRetries).events) :
      times.filter (· ≤ limit) = times.filter (· < limit) := by
    apply List.filter_congr
    intro time htime
    have hne : time ≠ limit := by
      rintro rfl
      exact hnone (h time htime)
    rw [decide_eq_decide]
    omega
  constructor
  · rintro ⟨finish, result, hend, hfinish⟩
    simp [Course.within, hend, Nat.le_of_lt hfinish]
  · intro hlate
    have hending : (course calls name maxRetries).ending.any (·.1 ≤ limit) = false := by
      rw [Option.any_eq_false]
      rintro ⟨finish, result⟩ hend
      have := hlate finish result hend
      simpa using this
    rw [Course.within, hending, if_neg Bool.false_ne_true, Course.cutOff,
      hstrict _ fun time htime => Course.mem_events.2 (.inl htime),
      hstrict _ fun time htime => Course.mem_events.2 (.inr (.inl htime))]

/-- An operation that meets a lock after 30 ms. Its second call is given. -/
def locked (second : Option (Call Unit)) : Nat → Option (Call Unit)
  | 0 => some ⟨30, .error ["database is locked"]⟩
  | _ + 1 => second

/-- A second call that never ends is cut off after 200 ms, the pause before it after 100 ms; and a
second call that succeeds does so before the deadline. -/
theorem courseWithin_refines_locked :
    courseWithin 200 (locked none) "EXPLAIN" 2 =
        ⟨[0, 130], [30], some (200, .error (.expired "EXPLAIN" 200))⟩ ∧
      courseWithin 100 (locked none) "EXPLAIN" 2 =
        ⟨[0], [30], some (100, .error (.expired "EXPLAIN" 100))⟩ ∧
      courseWithin 200 (locked (some ⟨20, .ok ()⟩)) "EXPLAIN" 2 =
        ⟨[0, 130], [30], some (150, .ok ())⟩ := by
  have hstalled : course (locked none) "EXPLAIN" 2 = ⟨[0, 130], [30], none⟩ := by rfl
  have hends : course (locked (some ⟨20, .ok ()⟩)) "EXPLAIN" 2 =
      ⟨[0, 130], [30], some (150, .ok ())⟩ := by rfl
  have hnever (limit : Nat) : ∀ finish result,
      (course (locked none) "EXPLAIN" 2).ending = some (finish, result) → limit < finish := by
    rw [hstalled]
    rintro finish result ⟨⟩
  refine ⟨?_, ?_, ?_⟩
  · have h := ((courseWithin_refines (locked none) "EXPLAIN" 2).2 200 (by decide)
      (by rw [hstalled]; decide)).2 (hnever 200)
    rw [h, hstalled]
    rfl
  · have h := ((courseWithin_refines (locked none) "EXPLAIN" 2).2 100 (by decide)
      (by rw [hstalled]; decide)).2 (hnever 100)
    rw [h, hstalled]
    rfl
  · have h := ((courseWithin_refines (locked (some ⟨20, .ok ()⟩)) "EXPLAIN" 2).2 200 (by decide)
      (by rw [hends]; decide)).1 ⟨150, .ok (), by rw [hends], by decide⟩
    rw [h, hends]

end Retry

end IndexAdvisor
