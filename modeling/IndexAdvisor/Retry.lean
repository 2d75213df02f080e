import IndexAdvisor.Causes

/-!
# Trying again

Explaining a statement may fail because someone else holds a lock for a moment. Such a failure is
tried again, a limited number of times and after a pause that doubles; any other failure stands. All
attempts and pauses together may have a deadline, and then the run ends there at the latest.

The operation is given by what its calls do, one after the other: how long each takes and how it
ends, or nothing for a call that never ends. Time is counted in milliseconds from the start of the
first call.

The number of calls that are allowed is counted in a word of 32 bits. One number of retries is too
large for that, and with it the program breaks off before it calls anything, whether there is a
deadline or not.

Models `is_transient_error`, `retry_on_transient_error`, `with_timeout` and `retry_within_deadline`.
-/

namespace IndexAdvisor

/-- One call of the operation: how long it takes and how it ends. -/
structure Call (α : Type) where
  duration : Nat
  outcome : Except Causes α

/-- Why there is no result. -/
inductive RetryError where
  /-- The last call failed. -/
  | failed (causes : Causes)
  /-- The named operation did not end within its time. -/
  | expired (operation : String) (limit : Nat)
  /-- The number of calls that are allowed is no word of 32 bits, and the program breaks off. -/
  | overflow
  deriving DecidableEq, Repr

/-- The message that goes with an error. -/
def RetryError.message : RetryError → String
  | failed causes => causesText causes
  | expired operation limit =>
    operation ++ " timed out after " ++ toString limit ++ "ms. Set SQLITE_QUERY_TIMEOUT to adjust."
  | overflow => "attempt to add with overflow"

/-- The course of calls and pauses: when each of them began, and when it all ended and with what.
There is no end where a call never ends. -/
structure Course (α : Type) where
  starts : List Nat
  pauses : List Nat
  ending : Option (Nat × Except RetryError α)

/-- A course that begins with a call and a pause. -/
def Course.prepend {α : Type} (start pause : Nat) (course : Course α) : Course α :=
  ⟨start :: course.starts, pause :: course.pauses, course.ending⟩

/-- How a run went that has an end: when each call began, when the run ended, and with what. -/
structure Run (α : Type) where
  starts : List Nat
  finish : Nat
  result : Except RetryError α

/-- A course that ends, as a run. -/
def Course.toRun {α : Type} (course : Course α) (h : course.ending.isSome = true) : Run α :=
  ⟨course.starts, (course.ending.get h).1, (course.ending.get h).2⟩

namespace Retry

/-- A character in lower case, as far as it is an ASCII letter then. Apart from the capital letters
this is true of the Kelvin sign only. -/
def lowerLetter (c : Char) : Char := if c = Char.ofNat 0x212A then 'k' else c.toLower

/-- Whether a text holds another one. -/
def holds (part : List Char) : List Char → Bool
  | [] => part.isEmpty
  | c :: cs => part.isPrefixOf (c :: cs) || holds part cs

/-- What the messages of passing failures hold: a lock that is taken, or no free connection in
time. -/
def passing : List String := [
  "database is locked", "database table is locked", "database schema has changed", "sqlite_busy",
  "pool timed out"]

/-- Whether a failure may pass by itself. -/
def isPassing (causes : Causes) : Bool :=
  let text := (causesText causes).toList.map lowerLetter
  passing.any fun part => holds part.toList text

/-- The pause after the given number of failed calls. -/
def pauseAfter (failures : Nat) : Nat := 100 * Nat.pow 2 (min (failures - 1) 10)

/-- The number of calls that may be made: the first one and all retries, if that is a word of 32
bits. -/
def callLimit? (maxRetries : Nat) : Option Nat :=
  if maxRetries + 1 < 0x100000000 then some (maxRetries + 1) else none

/-- The course that breaks off before the first call. -/
def brokenOff {α : Type} : Course α := ⟨[], [], some (0, .error .overflow)⟩

/-- The rest of a course whose next call begins at `now`, after so many failures. After it `more`
calls may follow. Waiting for a call and waiting for the end of a pause are both cut off at the
limit; what happens at the limit itself still counts. -/
def courseFrom {α : Type} (calls : Nat → Option (Call α)) (name : String) (limit : Option Nat) :
    (more : Nat) → (failures : Nat) → (now : Nat) → Course α
  | more, failures, now =>
    let expired (limit : Nat) : Nat × Except RetryError α := (limit, .error (.expired name limit))
    match calls failures with
    | none => ⟨[now], [], limit.map expired⟩
    | some call =>
      let done := now + call.duration
      match limit.filter (· < done) with
      | some limit => ⟨[now], [], some (expired limit)⟩
      | none =>
        match call.outcome with
        | .ok value => ⟨[now], [], some (done, .ok value)⟩
        | .error causes =>
          match more with
          | 0 => ⟨[now], [], some (done, .error (.failed causes))⟩
          | more + 1 =>
            if !isPassing causes then ⟨[now], [], some (done, .error (.failed causes))⟩
            else
              let next := done + pauseAfter (failures + 1)
              match limit.filter (· < next) with
              | some limit => ⟨[now], [done], some (expired limit)⟩
              | none => (courseFrom calls name limit more (failures + 1) next).prepend now done

/-- The course of so many calls at most. -/
def courseUpTo {α : Type} (calls : Nat → Option (Call α)) (name : String) (limit : Option Nat)
    (maxRetries : Nat) : Course α :=
  match callLimit? maxRetries with
  | none => brokenOff
  | some allowed => courseFrom calls name limit (allowed - 1) 0 0

/-- Calls an operation until a call succeeds, fails for good, or is the last one allowed. -/
def course {α : Type} (calls : Nat → Option (Call α)) (name : String) (maxRetries : Nat) :
    Course α :=
  courseUpTo calls name none maxRetries

/-- The same within a time limit; the limit 0 is none. -/
def courseWithin {α : Type} (limit : Nat) (calls : Nat → Option (Call α)) (name : String)
    (maxRetries : Nat) : Course α :=
  courseUpTo calls name (if limit = 0 then none else some limit) maxRetries

/-- Where all calls end, the course does. -/
theorem courseFrom_ends {α : Type} (calls : Nat → Call α) (name : String) (limit : Option Nat)
    (more failures now : Nat) :
    (courseFrom (fun n => some (calls n)) name limit more failures now).ending.isSome = true := by
  induction more generalizing failures now with
  | zero =>
    rw [courseFrom]
    dsimp only
    split
    · rfl
    · split <;> rfl
  | succ more ih =>
    rw [courseFrom]
    dsimp only
    split
    · rfl
    · split
      · rfl
      · split
        · rfl
        · split
          · rfl
          · exact ih _ _

theorem courseUpTo_ends {α : Type} (calls : Nat → Call α) (name : String) (limit : Option Nat)
    (maxRetries : Nat) :
    (courseUpTo (fun n => some (calls n)) name limit maxRetries).ending.isSome = true := by
  unfold courseUpTo
  split
  · rfl
  · exact courseFrom_ends ..

/-- The run of an operation whose calls all end. -/
def run {α : Type} (calls : Nat → Call α) (name : String) (maxRetries : Nat) : Run α :=
  (course (fun n => some (calls n)) name maxRetries).toRun (courseUpTo_ends ..)

/-- The same within a time limit; the limit 0 is none. -/
def runWithin {α : Type} (limit : Nat) (calls : Nat → Call α) (name : String) (maxRetries : Nat) :
    Run α :=
  (courseWithin limit (fun n => some (calls n)) name maxRetries).toRun (courseUpTo_ends ..)

end Retry

end IndexAdvisor
