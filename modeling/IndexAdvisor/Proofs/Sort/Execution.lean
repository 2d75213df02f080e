import IndexAdvisor.Proofs.Program.Coercion
import IndexAdvisor.Proofs.Sort.Complete
import IndexAdvisor.Sql.Lexer

/-!
# Sort keys, executed forwards

The columns in the key of a sort record are looked for backwards from the record, one register after
the other. Executed forwards, the loop that builds the record carries them along: a read of a column
puts its row in a register, a copy moves what its source holds, and the other instructions that
write a register clear it. `heldAt` is this execution; it begins with empty registers at the
instruction that begins the loop.

> `stepKeys?_executed`: the columns a sort step is ordered by are those that the execution has put
> in the registers of the key, through four copies at most, but for the registers whose term is an
> expression.

The loop is left by no copy: a source that is written before the loop only is empty for the
execution, and the search does not go that far back for it either (`Loop.of_writes`).
-/

namespace IndexAdvisor.Sort

open Program (noEdge)

/-! ## The execution of a loop -/

/-- Where the content of a register comes from: the row that read it from a column, and the copies
since. -/
structure Origin where
  row : Nat
  copies : Nat := 0
  deriving DecidableEq

/-- The registers that hold the content of a column. -/
abbrev Held := Int → Option Origin

/-- What the instruction in a row writes, if it writes a register. -/
def Held.written (held : Held) (row : Nat) (i : Instr) : Option Origin :=
  match i.opcode with
  | .column | .rowid => some { row }
  | .copy => (i.n1.bind held).map fun origin => { origin with copies := origin.copies + 1 }
  | _ => none

/-- Executes the instruction in a row. -/
def Held.execute (held : Held) (row : Nat) (i : Instr) : Held := fun register =>
  if i.writes register then held.written row i else held register

/-- The registers in row `pos`, if the rows from `start` on are executed with empty registers. -/
def heldAt (p : Program) (start pos : Nat) : Held :=
  ((p.instrs.zipIdx.take pos).drop start).foldl
    (fun held entry => held.execute entry.2 entry.1) fun _ => none

/-- The row that begins the loop which a record is built in: the last one before the record that
begins a loop, or the beginning of the program if there is none. -/
def loopStart (p : Program) (recordPos : Nat) : Nat :=
  (p.searchBack recordPos startsLoop noEdge).getD 0

variable {p : Program} {start pos w : Nat} {register : Int} {i : Instr}

theorem heldAt_self (p : Program) (start : Nat) : heldAt p start start = fun _ => none := by
  have hnone : (p.instrs.zipIdx.take start).drop start = [] := by
    rw [List.drop_eq_nil_iff]
    exact List.length_take_le start _
  rw [heldAt, hnone]
  rfl

theorem heldAt_succ (hle : start ≤ pos) :
    heldAt p start (pos + 1) = (p.at? pos).elim (heldAt p start pos)
    ((heldAt p start pos).execute pos) := by
  have hrow : p.instrs.zipIdx[pos]? = (p.at? pos).map fun i => (i, pos) := by
    rw [List.getElem?_zipIdx, Nat.zero_add, Program.at?]
  rw [heldAt, List.take_add_one, hrow]
  rcases hi : p.at? pos with _ | i
  · rw [Option.map_none, Option.toList_none, List.append_nil]
    rfl
  · have hlength : (p.instrs.zipIdx.take pos).length = pos := by
      rw [List.length_take, List.length_zipIdx]
      exact Nat.min_eq_left (Nat.le_of_lt (Program.lt_size_of_at? hi))
    rw [List.drop_append_of_le_length (hlength.symm ▸ hle), List.foldl_append]
    rfl

/-- A register keeps its content while it is not written. -/
theorem heldAt_kept {n : Nat} (hstart : start ≤ pos) (hle : pos ≤ n)
    (hclear : ∀ k j, pos ≤ k → k < n → p.at? k = some j → j.writes register = false) :
    heldAt p start n register = heldAt p start pos register := by
  induction hle with
  | refl => rfl
  | @step n hle ih =>
    have hbefore := ih fun k j hk hkn => hclear k j hk (Nat.lt_succ_of_lt hkn)
    rw [Nat.succ_eq_add_one, heldAt_succ (Nat.le_trans hstart hle)]
    rcases hj : p.at? n with _ | j
    · exact hbefore
    · have hwrites := hclear n j hle (Nat.lt_succ_self n) hj
      rw [Option.elim_some, Held.execute, hwrites, if_neg Bool.false_ne_true]
      exact hbefore

/-- A register holds what its last writer has written. -/
theorem heldAt_of_writes (hstart : start ≤ w) (hlt : w < pos) (hi : p.at? w = some i)
    (hwrites : i.writes register = true)
    (hclear : ∀ k j, w < k → k < pos → p.at? k = some j → j.writes register = false) :
    heldAt p start pos register = (heldAt p start w).written w i := by
  rw [heldAt_kept (Nat.le_succ_of_le hstart) (Nat.succ_le_of_lt hlt) fun k j hk hkn hj =>
    hclear k j hk hkn hj,
    heldAt_succ hstart, hi, Option.elim_some, Held.execute, if_pos hwrites]

/-! ## The search stays in the loop -/

/-- The rows behind `start` and before `pos` begin no loop, and `start` begins one or is the
beginning of the program. -/
structure Loop (p : Program) (start pos : Nat) : Prop where
  begins : start = 0 ∨ start < pos ∧ ∃ i, p.at? start = some i ∧ startsLoop i = true
  within : ∀ k j, start < k → k < pos → p.at? k = some j → startsLoop j = false

theorem Loop.le (h : Loop p start pos) : start ≤ pos := by
  obtain hzero | ⟨hlt, -⟩ := h.begins
  · rw [hzero]
    exact Nat.zero_le pos
  · exact Nat.le_of_lt hlt

/-- What begins a loop writes no register. -/
theorem not_writes_of_startsLoop (h : startsLoop i = true) (register : Int) :
    i.writes register = false := by
  unfold startsLoop at h
  rw [Instr.writes, Instr.target]
  generalize i.opcode = opcode at h ⊢
  cases opcode with
  | rewind | last | seekEnd | seek | openObject | openEphemeral | openSorter => rfl
  | _ => cases h

theorem loop_loopStart (p : Program) (pos : Nat) : Loop p (loopStart p pos) pos := by
  unfold loopStart
  rcases hsearch : p.searchBack pos startsLoop noEdge with _ | q
  · refine ⟨.inl rfl, fun k j _ hk hj => Bool.eq_false_iff.2 fun hstarts => ?_⟩
    have hsome : (p.searchBack pos startsLoop noEdge).isSome = true :=
      Program.searchBack_isSome_iff.2 ⟨k, j, hk, hj, hstarts, fun _ _ _ _ _ => rfl⟩
    rw [hsearch] at hsome
    cases hsome
  · obtain ⟨i, hlast⟩ := Program.searchBack_noEdge_iff.1 hsearch
    exact ⟨.inr ⟨hlast.lt, i, hlast.here, hlast.wanted⟩, hlast.between⟩

/-- The last writer of a register stands in the loop if no row behind it begins one. -/
theorem Loop.start_le (h : Loop p start pos)
    (hclear : ∀ k j, w < k → k < pos → p.at? k = some j → startsLoop j = false) : start ≤ w := by
  obtain hzero | ⟨hlt, i, hi, hstarts⟩ := h.begins
  · rw [hzero]
    exact Nat.zero_le w
  · refine Nat.le_of_not_lt fun hw => ?_
    rw [hclear start i hw hlt hi] at hstarts
    cases hstarts

/-- A row of the loop that writes a register stands in the loop with all rows before it. -/
theorem Loop.of_writes (h : Loop p start pos) (hstart : start ≤ w) (hlt : w < pos)
    (hi : p.at? w = some i) (hwrites : i.writes register = true) : Loop p start w := by
  refine ⟨?_, fun k j hk hkw hj => h.within k j hk (Nat.lt_trans hkw hlt) hj⟩
  obtain hzero | ⟨-, j, hj, hstarts⟩ := h.begins
  · exact .inl hzero
  · refine .inr ⟨Nat.lt_of_le_of_ne hstart fun heq => ?_, j, hj, hstarts⟩
    rw [← heq, hj] at hi
    obtain rfl := Option.some.inj hi
    rw [not_writes_of_startsLoop hstarts] at hwrites
    cases hwrites

theorem readsPseudo_of_plain (hplain : ∀ i ∈ p.instrs, i.opcode ≠ .openPseudo) (i : Instr) :
    readsPseudo p i = false := by
  rw [readsPseudo, Option.any_eq_false]
  intro cursor _
  rw [List.any_eq_false]
  intro j hj hon
  rw [Instr.isOn, Bool.and_eq_true, beq_iff_eq] at hon
  exact hplain j hj hon.1

/-- The search looks at one register for each copy that the content came through, and at one
more. -/
theorem source?_eq (hplain : ∀ i ∈ p.instrs, i.opcode ≠ .openPseudo) (hloop : Loop p start pos)
    (reach : Nat) :
    source? p reach pos register =
      ((heldAt p start pos register).filter (·.copies < reach)).map Origin.row := by
  induction reach generalizing pos register with
  | zero =>
    rw [source?]
    cases heldAt p start pos register <;> rfl
  | succ reach ih =>
    rw [source?]
    rcases hsearch : p.searchBack pos (·.writes register) startsLoop with _ | w
    · -- no row of the loop writes the register, so it is as empty as in the beginning
      have hempty : heldAt p start pos register = none := by
        rw [heldAt_kept (Nat.le_refl start) hloop.le, heldAt_self]
        intro k j hk hkpos hj
        refine Bool.eq_false_iff.2 fun hwrites => ?_
        have hsome : (p.searchBack pos (·.writes register) startsLoop).isSome = true :=
          Program.searchBack_isSome_iff.2 ⟨k, j, hkpos, hj, hwrites,
            fun m e hm hmpos he => hloop.within m e (Nat.lt_of_le_of_lt hk hm) hmpos he⟩
        rw [hsearch] at hsome
        cases hsome
      rw [hempty]
      rfl
    · obtain ⟨hlt, ⟨i, hi, hwrites⟩, hclear⟩ := Program.searchBack_eq_some_iff.1 hsearch
      have hstart := hloop.start_le fun k j hk hkpos hj => (hclear k j hk hkpos hj).2
      have hheld :=
        heldAt_of_writes hstart hlt hi hwrites fun k j hk hkpos hj => (hclear k j hk hkpos hj).1
      have hbefore := hloop.of_writes hstart hlt hi hwrites
      rw [hheld, Held.written, Option.bind_eq_bind, Option.bind_some, hi, Option.bind_eq_bind,
        Option.bind_some, readsPseudo_of_plain hplain]
      generalize i.opcode = opcode
      cases opcode with
      | copy =>
        dsimp only
        rcases i.n1 with _ | source
        · rfl
        · -- the source came through one copy less, and there is one register less to look at
          rw [Option.bind_eq_bind, Option.bind_some, Option.bind_some, ih hbefore]
          rcases heldAt p start w source with _ | origin
          · rfl
          · simp only [Option.map_some, Option.filter_some, Nat.add_lt_add_iff_right]
            split <;> rfl
      | column => rfl
      | rowid => rfl
      | _ => rfl

/-- The columns that a complete sort step is ordered by are, in the order of the key, those that the
execution of its loop has put in the registers of the record through four copies at most and that
are columns of an entry; a register whose term is an expression is passed over and shifts no other.
The registers are numbered through, as long as their numbers are words. -/
theorem stepKeys?_executed {s : Scene} {insert : Instr} {idiom : Idiom} {step : Step}
    (hplain : ∀ i ∈ s.program.instrs, i.opcode ≠ .openPseudo)
    (h : Complete s.program pos insert idiom step) (l : Ledger) (terms : List Sql.SortTerm) :
    stepKeys? s l terms pos insert =
        some ((List.range (step.width terms)).filterMap fun (field : Nat) =>
          if terms[field]? = some none then none
          else
            ((heldAt s.program (loopStart s.program step.recordPos) step.recordPos
                (registerAfter step.first field)).filter (·.copies ≤ 4)).bind
              fun origin => s.columnRead? l origin.row) ∧
      ∀ field : Nat, step.first + field < 0x8000000000000000 →
        registerAfter step.first field = step.first + field := by
  refine ⟨?_, fun field hfits => ?_⟩
  · rw [stepKeys?_of_complete h rfl, Step.keys]
    congr 2
    funext field
    rw [source?_eq hplain (loop_loopStart _ _), Option.bind_map]
    simp only [beq_iff_eq, sourceReach, Nat.lt_succ_iff]
    rfl
  · obtain ⟨-, record, -, -, -, hfirst, -⟩ := h.record
    have hword := Program.fitsInt64_iff.1 (Program.fitsInt64_of_number? hfirst)
    exact wrap_eq_self (by omega) hfits

/-! ## A key with a copy and an expression -/

/-- Posts are sorted by an expression, by their author and by the time they were created. The author
is copied into its register, the expression is loaded like a column, and a read behind the record
goes to a register of the key again. -/
def sortedPosts : Program := ⟨[
  { address := 0, name := "Column", p1 := some "0", p2 := some "2", p3 := some "4" },
  { address := 1, name := "SorterOpen", p1 := some "1", p2 := some "5", p4 := some "k(3,B,B,-B)" },
  { address := 2, name := "OpenRead", p1 := some "0", p2 := some "2" },
  { address := 3, name := "Rewind", p1 := some "0", p2 := some "11" },
  { address := 4, name := "Column", p1 := some "0", p2 := some "2", p3 := some "2" },
  { address := 5, name := "Column", p1 := some "0", p2 := some "1", p3 := some "7" },
  { address := 6, name := "SCopy", p1 := some "7", p2 := some "3" },
  { address := 7, name := "Integer", p1 := some "0", p2 := some "7" },
  { address := 8, name := "Column", p1 := some "0", p2 := some "3", p3 := some "4" },
  { address := 9, name := "MakeRecord", p1 := some "2", p2 := some "4", p3 := some "6" },
  { address := 10, name := "SorterInsert", p1 := some "1", p2 := some "6" },
  { address := 11, name := "Next", p1 := some "0", p2 := some "4" },
  { address := 12, name := "SorterSort", p1 := some "1", p2 := some "13" }]⟩

/-- A table of posts. -/
def postsSchema : Schema where
  tables :=
    [{ name := "posts", rootPage := 2, columns := ["id", "author", "score", "created"],
       primaryKey := some "id" }]

theorem stepKeys?_executed_copied :
    let scan := Openings.scan .empty postsSchema sortedPosts
    let tokens := Sql.tokens "SELECT id FROM posts ORDER BY score * 2, author, created DESC"
    let scene : Scene := ⟨sortedPosts, postsSchema, scan.2, tokens⟩
    let insert : Instr := { address := 10, name := "SorterInsert", p1 := some "1", p2 := some "6" }
    let opening : Instr :=
      { address := 1, name := "SorterOpen", p1 := some "1", p2 := some "5",
        p4 := some "k(3,B,B,-B)" }
    (∀ i ∈ sortedPosts.instrs, i.opcode ≠ .openPseudo) ∧
      Complete sortedPosts 10 insert sorter { opening, recordPos := 9, first := 2, count := 4 } ∧
      stepKeys? scene scan.1 (Sql.sortTerms tokens) 10 insert =
        some [(0, "author"), (0, "created")] := by
  intro scan tokens scene insert opening
  have hplain : ∀ i ∈ sortedPosts.instrs, i.opcode ≠ .openPseudo := by decide +kernel
  have hcomplete :
      Complete sortedPosts 10 insert sorter { opening, recordPos := 9, first := 2, count := 4 } :=
    (of?_eq_some_iff (by decide +kernel)).1 (by decide +kernel)
  refine ⟨hplain, hcomplete, ?_⟩
  rw [(stepKeys?_executed (s := scene) hplain hcomplete scan.1 (Sql.sortTerms tokens)).1]
  decide +kernel

end IndexAdvisor.Sort
