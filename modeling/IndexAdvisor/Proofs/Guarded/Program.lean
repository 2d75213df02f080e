import IndexAdvisor.Proofs.Guarded.Basic

/-!
# Guarded searches, and the constants they lead to

The searches over a program look at one position after the other, each of which must have an
instruction. They need no assumption, since they begin within the program and end at its edges
(`searchBack_eq`, `searchForward_eq`).

The walk from a register to its constant calls itself for each copy, and counts the copies. The
count alone makes it end, in a circle of copies as well: it nests fewer calls than it may
(`recoverAtDepth_eq`). The one sum on the way is the distance of the register from the first one of
an affinity, which is a word if the operands of the program have 32 bits and the register lies in a
range around theirs (`recover_eq`).
-/

namespace IndexAdvisor

/-- Whether the first three operands, where they are numbers, have 32 bits. -/
def Instr.isNarrow (i : Instr) : Bool := [i.n1, i.n2, i.n3].all (·.all fitsInt32)

/-- A program whose first three operands have 32 bits wherever they are numbers. The other operands,
the addresses and all texts are free. -/
def Program.Narrow (p : Program) : Prop := ∀ i ∈ p.instrs, i.isNarrow = true

section

variable {p : Program} {pos : Nat} {i : Instr} {n : Int}

theorem Program.Narrow.operand (h : p.Narrow) (hi : p.at? pos = some i)
    (hn : some n ∈ [i.n1, i.n2, i.n3]) :
    fitsInt32 n = true :=
  List.all_eq_true.1 (h i (List.mem_of_getElem? hi)) (some n) hn

theorem Program.Narrow.n1 (h : p.Narrow) (hi : p.at? pos = some i) (hn : i.n1 = some n) :
    fitsInt32 n = true :=
  h.operand hi (by simp [hn])

theorem Program.Narrow.n2 (h : p.Narrow) (hi : p.at? pos = some i) (hn : i.n2 = some n) :
    fitsInt32 n = true :=
  h.operand hi (by simp [hn])

theorem Program.Narrow.n3 (h : p.Narrow) (hi : p.at? pos = some i) (hn : i.n3 = some n) :
    fitsInt32 n = true :=
  h.operand hi (by simp [hn])

theorem Program.exists_at? (h : pos < p.size) : ∃ i, p.at? pos = some i :=
  ⟨_, List.getElem?_eq_getElem h⟩

end

namespace Guarded

variable {p : Program} {want edge : Nat → Guarded Bool} {w e : Instr → Bool}
  {start pos count depth : Nat} {i : Instr} {register : Int}

/-! ## Positions -/

/-- The instruction at a position. -/
def instrAt (p : Program) (pos : Nat) : Guarded Instr :=
  match p.at? pos with
  | some i => pure i
  | none => throw (.noInstr pos)

theorem instrAt_ends (p : Program) (pos : Nat) : (instrAt p pos).Ends := by
  unfold instrAt
  split <;> nofun

theorem instrAt_eq (h : p.at? pos = some i) : instrAt p pos = pure i := by rw [instrAt, h]

/-- Whether the instruction at a position is of some sort. -/
def test (p : Program) (w : Instr → Bool) (pos : Nat) : Guarded Bool := do
  let i ← instrAt p pos
  return w i

theorem test_eq (w : Instr → Bool) (h : p.at? pos = some i) : test p w pos = pure (w i) := by
  rw [test, instrAt_eq h, pure_bind]

/-- The edge that is never met. -/
def never (_ : Nat) : Guarded Bool := pure false

/-! ## Searches -/

/-- The nearest wanted position strictly below one, looking no further than an edge. -/
def searchBelow (want edge : Nat → Guarded Bool) : Nat → Guarded (Option Nat)
  | 0 => pure none
  | pos + 1 => do
    if ← want pos then return some pos
    else if ← edge pos then return none
    else searchBelow want edge pos

/-- The nearest wanted position before one, looking no further than an edge. -/
def searchBack (p : Program) (start : Nat) (want edge : Nat → Guarded Bool) :
    Guarded (Option Nat) :=
  searchBelow want edge (min start p.size)

/-- The first wanted one of the `count` positions from `pos` on, up to an edge. -/
def searchAbove (want edge : Nat → Guarded Bool) : (count pos : Nat) → Guarded (Option Nat)
  | 0, _ => pure none
  | count + 1, pos => do
    if ← want pos then return some pos
    else if ← edge pos then return none
    else searchAbove want edge count (pos + 1)

/-- The nearest wanted position after one, looking no further than an edge. -/
def searchForward (p : Program) (start : Nat) (want edge : Nat → Guarded Bool) :
    Guarded (Option Nat) :=
  searchAbove want edge (p.size - (start + 1)) (start + 1)

theorem searchBelow_eq (hwant : ∀ pos i, p.at? pos = some i → want pos = pure (w i))
    (hedge : ∀ pos i, p.at? pos = some i → edge pos = pure (e i)) (hpos : pos ≤ p.size) :
    searchBelow want edge pos = pure (p.searchBelow w e pos) := by
  induction pos with
  | zero => rfl
  | succ pos ih =>
    obtain ⟨i, hi⟩ := Program.exists_at? hpos
    have hrest := ih (Nat.le_of_succ_le hpos)
    rw [searchBelow, Program.searchBelow, hi, hwant pos i hi, hedge pos i hi,
      pure_bind, pure_bind, hrest]
    dsimp only
    by_cases hw : w i = true
    · rw [if_pos hw, if_pos hw]
    · rw [if_neg hw, if_neg hw]
      split <;> rfl

theorem searchAbove_eq (hwant : ∀ pos i, p.at? pos = some i → want pos = pure (w i))
    (hedge : ∀ pos i, p.at? pos = some i → edge pos = pure (e i)) (hcount : count = p.size - pos) :
    searchAbove want edge count pos = pure (Program.searchList w e pos (p.instrs.drop pos)) := by
  induction count generalizing pos with
  | zero =>
    have hend : p.instrs.length ≤ pos := by
      show p.size ≤ pos
      omega
    rw [List.drop_eq_nil_of_le hend]
    rfl
  | succ count ih =>
    have hlt : pos < p.size := by omega
    have hi : p.at? pos = some p.instrs[pos] := List.getElem?_eq_getElem hlt
    have hrest : searchAbove want edge count (pos + 1) =
        pure (Program.searchList w e (pos + 1) (p.instrs.drop (pos + 1))) := ih (by omega)
    rw [List.drop_eq_getElem_cons hlt, searchAbove, Program.searchList, hwant pos _ hi,
      hedge pos _ hi, pure_bind, pure_bind, hrest]
    by_cases hw : w p.instrs[pos] = true
    · rw [if_pos hw, if_pos hw]
    · rw [if_neg hw, if_neg hw]
      split <;> rfl

/-- A search back does what its tests do, and looks at instructions only. -/
theorem searchBack_eq (hwant : ∀ pos i, p.at? pos = some i → want pos = pure (w i))
    (hedge : ∀ pos i, p.at? pos = some i → edge pos = pure (e i)) :
    searchBack p start want edge = pure (p.searchBack start w e) :=
  searchBelow_eq hwant hedge (Nat.min_le_right ..)

theorem searchForward_eq (hwant : ∀ pos i, p.at? pos = some i → want pos = pure (w i))
    (hedge : ∀ pos i, p.at? pos = some i → edge pos = pure (e i)) :
    searchForward p start want edge = pure (p.searchForward start w e) :=
  searchAbove_eq hwant hedge rfl

theorem searchBack_test :
    searchBack p start (test p w) (test p e) = pure (p.searchBack start w e) :=
  searchBack_eq (fun _ _ => test_eq w) fun _ _ => test_eq e

theorem searchBack_never :
    searchBack p start (test p w) never = pure (p.searchBack start w Program.noEdge) :=
  searchBack_eq (fun _ _ => test_eq w) fun _ _ _ => rfl

theorem searchForward_test :
    searchForward p start (test p w) (test p e) = pure (p.searchForward start w e) :=
  searchForward_eq (fun _ _ => test_eq w) fun _ _ => test_eq e

theorem searchForward_never :
    searchForward p start (test p w) never = pure (p.searchForward start w Program.noEdge) :=
  searchForward_eq (fun _ _ => test_eq w) fun _ _ _ => rfl

/-- What a search back finds is an instruction of the program. -/
theorem at?_of_searchBack (h : p.searchBack start w e = some pos) : ∃ i, p.at? pos = some i := by
  obtain ⟨-, ⟨i, hi, -⟩, -⟩ := Program.searchBack_eq_some_iff.1 h
  exact ⟨i, hi⟩

theorem at?_of_searchForward (h : p.searchForward start w e = some pos) :
    ∃ i, p.at? pos = some i := by
  obtain ⟨-, i, hi, -⟩ := Program.searchForward_some h
  exact ⟨i, hi⟩

/-! ## Writers -/

/-- The last position before one at which a register is written. -/
def lastWriter (p : Program) (pos : Nat) (register : Int) : Guarded (Option Nat) :=
  searchBack p pos (test p (·.writes register)) never

/-- The first position after one at which a register is written. -/
def nextWriter (p : Program) (pos : Nat) (register : Int) : Guarded (Option Nat) :=
  searchForward p pos (test p (·.writes register)) never

/-- The position whose value a register holds at a position. -/
def writerFor (p : Program) (pos : Nat) (register : Int) : Guarded (Option Nat) := do
  match ← lastWriter p pos register with
  | some writer => return some writer
  | none => nextWriter p pos register

theorem lastWriter_eq : lastWriter p pos register = pure (p.lastWriter pos register) :=
  searchBack_never

theorem writerFor_eq : writerFor p pos register = pure (p.writerFor pos register) := by
  have hnext : nextWriter p pos register = pure (p.nextWriter pos register) := searchForward_never
  rw [writerFor, lastWriter_eq, pure_bind, Program.writerFor, hnext]
  rcases p.lastWriter pos register with _ | writer <;> rfl

theorem at?_of_writerFor {writer : Nat} (h : p.writerFor pos register = some writer) :
    ∃ i, p.at? writer = some i := by
  rcases Option.or_eq_some_iff.1 h with h | ⟨-, h⟩
  · exact at?_of_searchBack h
  · exact at?_of_searchForward h

/-- What the instruction does that the second operand of the one at a position points at. -/
def jumpTarget (p : Program) (pos : Nat) : Guarded (Option Opcode) := do
  let i ← instrAt p pos
  let some address := i.n2 | return none
  let some target := p.positionOf? address | return none
  let j ← instrAt p target
  return some j.opcode

theorem jumpTarget_eq (hi : p.at? pos = some i) : jumpTarget p pos = pure (p.jumpTarget? pos) := by
  rw [jumpTarget, instrAt_eq hi, pure_bind, Program.jumpTarget?, hi, Option.bind_some]
  rcases i.n2 with _ | address
  · rfl
  · dsimp only
    rw [Option.bind_some]
    rcases htarget : p.positionOf? address with _ | target
    · rfl
    · obtain ⟨⟨j, hj, -⟩, -⟩ := Program.positionOf?_eq_some_iff.1 htarget
      dsimp only
      rw [Option.bind_some, Program.opcodeAt?, hj, instrAt_eq hj, pure_bind, Option.map_some]

/-! ## Constants -/

/-- The number of calls that a search may nest: for each of the five registers that it looks at one
for the register and one for the sorter it comes from, and one that gives up. -/
def nesting : Nat := 11

/-- The constant in a register at a position, after some copies. -/
def recoverAtDepth (p : Program) : (calls pos : Nat) → (register : Int) → (depth : Nat) →
    Guarded (Option String)
  | 0, _, _, _ => throw .unended
  | calls + 1, pos, register, depth => do
    if depth > 4 then return none
    let some writer ← writerFor p pos register | return none
    let i ← instrAt p writer
    match i.opcode with
    | .constant kind => return Program.constantText i kind
    | .copy =>
      let some source := i.n1 | return none
      recoverAtDepth p calls writer source (depth + 1)
    | _ => return none

/-- Whether the instruction at a position turns the content of a register into a BLOB. -/
def makesBlob (p : Program) (register : Int) (pos : Nat) : Guarded Bool := do
  let i ← instrAt p pos
  match i.opcode with
  | .cast => return i.n1 == some register && i.n2 == some Program.blobCode
  | .affinity =>
    let some first := i.n1 | return false
    let some count := i.n2 | return false
    let offset ← word (register - first)
    if offset < 0 || count ≤ offset then return false
    let some codes := i.p4 | return false
    return codes.toList[offset.toNat]? == some 'A'
  | _ => return false

/-- Whether the content of a register was turned into a BLOB since the register was last written. -/
def isBlobAt (p : Program) (pos : Nat) (register : Int) : Guarded Bool := do
  let found ← searchBack p pos (makesBlob p register) (test p (·.writes register))
  return found.isSome

/-- The constant in a register at a position, as SQL writes it. -/
def recover (p : Program) (pos : Nat) (register : Int) : Guarded (Option String) := do
  let some text ← recoverAtDepth p nesting pos register 0 | return none
  if ← isBlobAt p pos register then return some (Program.asBlob text)
  else return some text

/-- The walk to a constant nests no more calls than there are registers left to look at, and one
that looks at none. -/
theorem recoverAtDepth_eq (p : Program) {calls : Nat} (hcalls : Program.copyReach - depth < calls)
    (pos : Nat) (register : Int) : recoverAtDepth p calls pos register depth =
      pure (p.constantWithin (Program.copyReach - depth) pos register) := by
  have hcopy : Program.copyReach = 5 := rfl
  -- the induction is on the calls; each of them is one register deeper than the last
  induction calls generalizing pos register depth with
  | zero => cases hcalls
  | succ calls ih =>
    rw [recoverAtDepth]
    by_cases hdeep : depth > 4
    · have hreach : Program.copyReach - depth = 0 := by omega
      rw [if_pos hdeep, hreach]
      rfl
    · have hreach : Program.copyReach - depth = Program.copyReach - (depth + 1) + 1 := by omega
      rw [if_neg hdeep, writerFor_eq, pure_bind, hreach, Program.constantWithin]
      rcases hwriter : p.writerFor pos register with _ | writer
      · rfl
      · obtain ⟨i, hi⟩ := at?_of_writerFor hwriter
        dsimp only [Option.bind_eq_bind]
        rw [instrAt_eq hi, pure_bind, Option.bind_some, hi, Option.bind_some]
        cases i.opcode with
        | constant kind => rfl
        | copy =>
          rcases i.n1 with _ | source
          · rfl
          · exact ih (by omega) writer source
        | _ => rfl

/-- From its beginning the walk has calls enough. -/
theorem recoverAtDepth_zero (p : Program) (pos : Nat) (register : Int) :
    recoverAtDepth p nesting pos register 0 =
    pure (p.constantWithin Program.copyReach pos register) :=
  recoverAtDepth_eq p (by decide) pos register

theorem makesBlob_eq (hp : p.Narrow) (hregister : Spacious register) (hi : p.at? pos = some i) :
    makesBlob p register pos = pure (Program.makesBlob i register) := by
  rw [makesBlob, instrAt_eq hi, pure_bind, Program.makesBlob]
  cases i.opcode with
  | cast => rfl
  | affinity =>
    -- the distance is computed before it is known whether there are any codes
    rcases hfirst : i.n1 with _ | first
    · rfl
    · rcases i.n2 with _ | count
      · rfl
      · dsimp only
        rw [word_registerOffset hregister (hp.n1 hi hfirst), pure_bind]
        rcases i.p4 with _ | codes
        · exact ite_self _
        · dsimp only
          generalize registerOffset register first = offset
          by_cases hout : offset < 0 ∨ count ≤ offset
          · have hnot : ¬(0 ≤ offset ∧ offset < count) := by omega
            rw [← Bool.decide_or, ← Bool.decide_and, decide_eq_true hout, decide_eq_false hnot]
            rfl
          · have hin : 0 ≤ offset ∧ offset < count := by omega
            rw [← Bool.decide_or, ← Bool.decide_and, decide_eq_false hout, decide_eq_true hin]
            rfl
  | _ => rfl

theorem makesBlob_ends (p : Program) (register : Int) (pos : Nat) :
    (makesBlob p register pos).Ends := by
  refine (instrAt_ends p pos).bind fun i => ?_
  cases i.opcode with
  | cast => exact ends_pure _
  | affinity =>
    rcases i.n1 with _ | first
    · exact ends_pure _
    · rcases i.n2 with _ | count
      · exact ends_pure _
      · refine (word_ends _).bind fun offset => ?_
        split
        · exact ends_pure _
        · rcases i.p4 with _ | codes <;> exact ends_pure _
  | _ => exact ends_pure _

theorem searchBelow_ends (hwant : ∀ pos, (want pos).Ends) (hedge : ∀ pos, (edge pos).Ends)
    (pos : Nat) :
    (searchBelow want edge pos).Ends := by
  induction pos with
  | zero => exact ends_pure _
  | succ pos ih =>
    refine (hwant pos).bind fun wanted => ?_
    split
    · exact ends_pure _
    · refine (hedge pos).bind fun atEdge => ?_
      split
      · exact ends_pure _
      · exact ih

/-- The search for a constant ends for every register, however far from the operands it lies. -/
theorem recover_ends (p : Program) (pos : Nat) (register : Int) :
    (recover p pos register).Ends := by
  have hwrites (q : Nat) : (test p (·.writes register) q).Ends :=
    (instrAt_ends p q).bind fun _ => ends_pure _
  have hblob : (isBlobAt p pos register).Ends :=
    (searchBelow_ends (makesBlob_ends p register) hwrites _).bind fun _ => ends_pure _
  rw [recover, recoverAtDepth_zero, pure_bind]
  rcases p.constantWithin Program.copyReach pos register with _ | text
  · exact ends_pure _
  · refine hblob.bind fun isBlob => ?_
    split <;> exact ends_pure _

/-- The constant in a register is found without leaving the range of words. -/
theorem recover_eq (hp : p.Narrow) (hregister : Spacious register) (pos : Nat) :
    recover p pos register = pure (p.valueAt? pos register) := by
  have hblob : isBlobAt p pos register = pure (p.isBlobAt pos register) := by
    have hfound : searchBack p pos (makesBlob p register) (test p (·.writes register)) =
        pure (p.searchBack pos (Program.makesBlob · register) (·.writes register)) :=
      searchBack_eq (fun _ _ => makesBlob_eq hp hregister) fun _ _ => test_eq _
    rw [isBlobAt, hfound, pure_bind, Program.isBlobAt]
  rw [recover, recoverAtDepth_zero, pure_bind, hblob, Program.valueAt?]
  rcases p.constantWithin Program.copyReach pos register with _ | text
  · rfl
  · dsimp only
    rw [pure_bind, Option.map_some]
    split <;> rfl

end Guarded

end IndexAdvisor
