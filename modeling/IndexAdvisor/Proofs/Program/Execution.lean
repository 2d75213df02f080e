import IndexAdvisor.Program.Value
import IndexAdvisor.Proofs.Program.Search
import Mathlib.Logic.Function.Basic

/-!
# Constants, executed forwards

The constant in a register is looked for backwards from its use. Executed forwards, a program
carries the constants along: a load puts one in a register, a copy moves what its source holds, and
the other instructions that write a register leave there what is not a constant. `registersAt` is
this execution; the registers begin unwritten.

> `constantWithin_executed`: the search finds what the execution has put in the register, if the
> value came through four copies at most. In a register that is written by a single load behind the
> use, it finds the constant of the load.

A register that was copied from an unwritten one is unwritten itself, so a value that is there has
no gap in its past.
-/

namespace IndexAdvisor.Program

/-- What a register holds: the text of a constant or anything else, and how many copies it came
through. -/
structure Content where
  constant : Option String
  copies : Nat := 0
  deriving DecidableEq

/-- The contents of the registers that have been written. -/
abbrev Registers := Int → Option Content

namespace Registers

/-- Writes a register, if the operand names one. -/
def write (registers : Registers) (target : Option Int) (content : Option Content) : Registers :=
  match target with
  | none => registers
  | some register => Function.update registers register content

/-- What a copy takes from its source. An operand that names no register has no constant. -/
def copied (registers : Registers) : Option Int → Option Content
  | none => some { constant := none }
  | some source =>
    (registers source).map fun content => { content with copies := content.copies + 1 }

/-- Executes one instruction. -/
def execute (registers : Registers) (i : Instr) : Registers :=
  match i.opcode with
  | .constant kind => registers.write i.n2 (some { constant := constantText i kind })
  | .copy => registers.write i.n2 (registers.copied i.n1)
  | .rowid => registers.write i.n2 (some { constant := none })
  | .column | .makeRecord => registers.write i.n3 (some { constant := none })
  | _ => registers

/-- What an instruction writes, if it writes a register. -/
def written (registers : Registers) (i : Instr) : Option Content :=
  match i.opcode with
  | .constant kind => some { constant := constantText i kind }
  | .copy => registers.copied i.n1
  | _ => some { constant := none }

theorem write_apply (registers : Registers) (target : Option Int) (content : Option Content)
    (register : Int) :
    registers.write target content register = if target == some register then content
      else registers register := by
  rcases target with _ | t
  · rfl
  · by_cases h : t = register
    · simp [write, h]
    · simp [write, h, Ne.symm h]

theorem execute_apply (registers : Registers) (i : Instr) (register : Int) :
    registers.execute i register = if i.writes register then registers.written i
      else registers register := by
  unfold execute written Instr.writes Instr.target
  cases i.opcode <;> simp [write_apply]

end Registers

/-- The registers before the instruction at a position. -/
def registersAt (p : Program) (pos : Nat) : Registers :=
  (p.instrs.take pos).foldl Registers.execute fun _ => none

variable {p : Program} {pos w : Nat} {register : Int} {i : Instr} {content : Content}

theorem registersAt_succ (p : Program) (pos : Nat) :
    p.registersAt (pos + 1) = (p.at? pos).elim (p.registersAt pos) (p.registersAt pos).execute := by
  rw [registersAt, List.take_add_one, List.foldl_append]
  show _ = (p.instrs[pos]?).elim _ _
  rcases p.instrs[pos]? with _ | i
  · rfl
  · rfl

/-- A register keeps its content while it is not written. -/
theorem registersAt_kept {n : Nat} (hle : pos ≤ n)
    (hclear : ∀ k j, pos ≤ k → k < n → p.at? k = some j → j.writes register = false) :
    p.registersAt n register = p.registersAt pos register := by
  induction hle with
  | refl => rfl
  | @step n hle ih =>
    have hbefore := ih fun k j hk hkn => hclear k j hk (Nat.lt_succ_of_lt hkn)
    rw [Nat.succ_eq_add_one, registersAt_succ]
    rcases hj : p.at? n with _ | j
    · exact hbefore
    · rw [Option.elim_some, Registers.execute_apply, hclear n j hle (Nat.lt_succ_self n) hj,
        if_neg Bool.false_ne_true]
      exact hbefore

theorem registersAt_of_lastWriter_eq_none (h : p.lastWriter pos register = none) :
    p.registersAt pos register = none := by
  rw [lastWriter_eq_none_iff] at h
  rw [registersAt_kept (Nat.zero_le pos) fun k j _ hk hj => h k j hk hj]
  rfl

/-- A register holds what its last writer has written. -/
theorem registersAt_of_lastWriter (h : p.lastWriter pos register = some w) (hi : p.at? w = some i) :
    p.registersAt pos register = (p.registersAt w).written i := by
  obtain ⟨hlt, ⟨j, hj, hwrites⟩, hclear⟩ := lastWriter_eq_some_iff.1 h
  obtain rfl := Option.some.inj (hi.symm.trans hj)
  rw [registersAt_kept (Nat.succ_le_of_lt hlt) fun k j hk hkn hj => hclear k j hk hkn hj,
    registersAt_succ, hi, Option.elim_some, Registers.execute_apply, if_pos hwrites]

/-- The search looks at one register for each copy that the value came through, and at one more. -/
theorem constantWithin_eq {reach : Nat} (h : p.registersAt pos register = some content)
    (hreach : content.copies < reach) : p.constantWithin reach pos register = content.constant := by
  induction reach generalizing pos register content with
  | zero => exact absurd hreach (Nat.not_lt_zero _)
  | succ reach ih =>
    rcases hw : p.lastWriter pos register with _ | w
    · rw [registersAt_of_lastWriter_eq_none hw] at h
      cases h
    obtain ⟨-, ⟨i, hi, -⟩, -⟩ := lastWriter_eq_some_iff.1 hw
    rw [registersAt_of_lastWriter hw hi, Registers.written] at h
    rw [constantWithin, writerFor, hw, Option.some_or, Option.bind_eq_bind, Option.bind_some, hi,
      Option.bind_eq_bind, Option.bind_some]
    generalize i.opcode = opcode at h ⊢
    cases opcode with
    | constant kind =>
      obtain rfl := Option.some.inj h
      rfl
    | copy =>
      dsimp only at h ⊢
      rcases hsource : i.n1 with _ | source
      · rw [hsource] at h
        obtain rfl := Option.some.inj h
        rfl
      · rw [hsource] at h
        -- the source came through one copy less, and there is one register less to look at
        obtain ⟨before, hbefore, rfl⟩ := Option.map_eq_some_iff.1 h
        have hfound := ih hbefore (Nat.lt_of_succ_lt_succ hreach)
        exact hfound
    | _ =>
      obtain rfl := Option.some.inj h
      rfl

/-- A single writer behind the use is found as well. -/
theorem writerFor_of_only {q : Nat} (hq : pos < q) (hi : p.at? q = some i)
    (hwrites : i.writes register = true)
    (honly : ∀ k j, p.at? k = some j → j.writes register = true → k = q) :
    p.writerFor pos register = some q := by
  have hclear (k : Nat) (j : Instr) (hj : p.at? k = some j) (hk : k ≠ q) :
      j.writes register = false :=
    Bool.eq_false_iff.2 fun h => hk (honly k j hj h)
  have hbefore : p.lastWriter pos register = none :=
    lastWriter_eq_none_iff.2 fun k j hk hj => hclear k j hj (by omega)
  have hafter : p.nextWriter pos register = some q :=
    searchForward_eq_some hq hi hwrites fun k j _ hk hj => ⟨hclear k j hj (by omega), rfl⟩
  rw [writerFor, hbefore, hafter, Option.none_or]

/-- The search for a constant finds what the forward execution has put in the register, if the value
came there through four copies at most, be it a constant or not. A register that is written by one
load only, which stands behind the use, is unwritten in the execution, and the search finds the
constant of this load. -/
theorem constantWithin_executed (p : Program) (pos : Nat) (register : Int) :
    (∀ content, p.registersAt pos register = some content → content.copies ≤ 4 →
      p.constantWithin copyReach pos register = content.constant ∧
        p.valueAt? pos register =
          content.constant.map fun text => if p.isBlobAt pos register then asBlob text else text) ∧
    ∀ q i kind, pos < q → p.at? q = some i → i.opcode = .constant kind → i.writes register = true →
      (∀ k j, p.at? k = some j → j.writes register = true → k = q) →
      p.registersAt pos register = none ∧
        p.constantWithin copyReach pos register = constantText i kind := by
  refine ⟨fun content hcontent hcopies => ?_, fun q i kind hq hi hkind hwrites honly => ⟨?_, ?_⟩⟩
  · have hconstant := constantWithin_eq hcontent (Nat.lt_succ_of_le hcopies)
    refine ⟨hconstant, ?_⟩
    rw [valueAt?]
    exact congrArg _ hconstant
  · refine registersAt_of_lastWriter_eq_none (lastWriter_eq_none_iff.2 fun k j hk hj => ?_)
    refine Bool.eq_false_iff.2 fun hj' => ?_
    have hkq := honly k j hj hj'
    omega
  · rw [copyReach, constantWithin, writerFor_of_only hq hi hwrites honly, Option.bind_eq_bind,
      Option.bind_some, hi, Option.bind_eq_bind, Option.bind_some, hkind]

/-! ## Four copies and a load behind the use -/

/-- A number is copied four times before it is used at row 6, and one register on the way is written
again after it has been copied. The text that is used there too is loaded behind the use. -/
def copying : Program := ⟨[
  { address := 0, name := "Integer", p1 := some "5", p2 := some "1" },
  { address := 1, name := "SCopy", p1 := some "1", p2 := some "2" },
  { address := 2, name := "Column", p1 := some "0", p2 := some "3", p3 := some "1" },
  { address := 3, name := "Copy", p1 := some "2", p2 := some "2" },
  { address := 4, name := "IntCopy", p1 := some "2", p2 := some "3" },
  { address := 5, name := "SCopy", p1 := some "3", p2 := some "4" },
  { address := 6, name := "Eq", p1 := some "4", p2 := some "0", p3 := some "5" },
  { address := 7, name := "String8", p2 := some "5", p4 := some "ann" }]⟩

theorem constantWithin_executed_copying :
    copying.registersAt 6 4 = some ⟨some "5", 4⟩ ∧ copying.constantWithin copyReach 6 4 = some "5" ∧
    (copying.at? 7).map Instr.opcode = some (.constant .string8) ∧
      copying.constantWithin copyReach 6 5 = some "'ann'" := by
  have hcontent : copying.registersAt 6 4 = some ⟨some "5", 4⟩ := by decide +kernel
  have honly (k : Nat) (j : Instr) (hj : copying.at? k = some j) (hwrites : j.writes 5 = true) :
      k = 7 := by
    have hall : ∀ k < copying.size, (copying.at? k).any (·.writes 5) = true → k = 7 := by
      decide +kernel
    refine hall k (lt_size_of_at? hj) ?_
    rw [hj]
    exact hwrites
  refine ⟨hcontent, ((constantWithin_executed copying 6 4).1 _ hcontent (Nat.le_refl 4)).1,
    by decide +kernel, ?_⟩
  have hloaded :=
    (constantWithin_executed copying 6 5).2 7 _ .string8 (by decide) rfl (by decide +kernel)
    (by decide +kernel) honly
  rw [hloaded.2]
  decide +kernel

end IndexAdvisor.Program
