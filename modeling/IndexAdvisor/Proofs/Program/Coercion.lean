import IndexAdvisor.Program.Value
import IndexAdvisor.Proofs.Program.Search

/-!
# Constants that become a BLOB on their way

A constant travels from its load to its use through registers: first the one it is loaded into, then
the target of each copy in turn. In every one of them a cast or an affinity may turn it into a BLOB,
and the text of the constant should say so then. The search for such a change begins at the use,
though, and looks at the last register only; the constant itself is looked for farther back, and
behind the use as well.

> `coercion_shown_iff`: a constant that nothing has turned into a BLOB is never marked as one. A
> constant that was turned into one is marked unless this was done to it in an earlier register, or
> behind the use, and was not done again in the last register before the use.

The way is told by `OnWay`, one `Stretch` for each register on it.
-/

namespace IndexAdvisor.Program

/-! ## The way of a value -/

/-- An instruction turns the content of a register into a BLOB: by a cast of the register to that
type, or by an affinity over a run of registers that has the code `A` in the place of the
register. -/
inductive TurnsToBlob (i : Instr) (register : Int) : Prop
  | cast (hcast : i.opcode = .cast) (hregister : i.n1 = some register)
    (hblob : i.n2 = some blobCode)
  | affinity {first count : Int} {codes : String} {place : Nat} (haffinity : i.opcode = .affinity)
      (hfirst : i.n1 = some first) (hcount : i.n2 = some count) (hcodes : i.p4 = some codes)
      (hplace : (place : Int) < count) (hregister : registerAfter first place = register)
      (hblob : codes.toList[place]? = some 'A')

/-- A stretch of the way of a value: the register that holds it, the instruction that puts it there
and the one that takes it from there. -/
structure Stretch where
  register : Int
  writer : Nat
  reader : Nat

/-- The positions of a stretch. What is written behind its reader belongs to the block that runs
first: it is in its register from there to the next instruction that writes the register, and again
from the start up to the reader. -/
def Stretch.Covers (p : Program) (s : Stretch) (q : Nat) : Prop :=
  if s.writer < s.reader then s.writer < q ∧ q < s.reader
  else q < s.reader ∨ s.writer < q ∧ ∀ next, p.nextWriter s.writer s.register = some next → q < next

/-- The stretches of the way on which a value has come to a register at a position. -/
inductive OnWay (p : Program) : Nat → Int → Stretch → Prop
  | last {pos writer : Nat} {register : Int} (h : p.writerFor pos register = some writer) :
      OnWay p pos register ⟨register, writer, pos⟩
  | copied {pos writer : Nat} {register source : Int} {i : Instr} {s : Stretch}
      (h : p.writerFor pos register = some writer) (hi : p.at? writer = some i)
      (hcopy : i.opcode = .copy) (hsource : i.n1 = some source)
      (hbefore : OnWay p writer source s) : OnWay p pos register s

/-- Somewhere on its way, the value was turned into a BLOB in the register that held it. -/
def Coerced (p : Program) (pos : Nat) (register : Int) : Prop :=
  ∃ s q i, OnWay p pos register s ∧ s.Covers p q ∧ p.at? q = some i ∧ TurnsToBlob i s.register

/-- The value was turned into a BLOB in its last register, before the use. -/
def CoercedInPlace (p : Program) (pos : Nat) (register : Int) : Prop :=
  ∃ q i, q < pos ∧ p.at? q = some i ∧ TurnsToBlob i register ∧
    ∀ k j, q < k → k < pos → p.at? k = some j → j.writes register = false

/-- The value was turned into a BLOB where the search does not look: behind the use, where it is
loaded there, or in the register that it was copied from last, or before that. -/
def CoercedElsewhere (p : Program) (pos : Nat) (register : Int) : Prop :=
  ∃ writer, p.writerFor pos register = some writer ∧
    ((pos < writer ∧ ∃ q i, writer < q ∧
      (∀ next, p.nextWriter writer register = some next → q < next) ∧
        p.at? q = some i ∧ TurnsToBlob i register) ∨
      ∃ i source, p.at? writer = some i ∧ i.opcode = .copy ∧ i.n1 = some source ∧
        p.Coerced writer source)

variable {p : Program} {pos writer : Nat} {register : Int} {text : String}

/-! ## What the mark says -/

theorem fitsInt64_of_number? {operand : Option String} {n : Int}
    (h : Instr.number? operand = some n) :
    fitsInt64 n = true := by
  obtain ⟨digits, -, h⟩ := Option.bind_eq_some_iff.1 h
  exact (Option.filter_eq_some_iff.1 h).2

theorem fitsInt64_iff {n : Int} :
    fitsInt64 n = true ↔ -0x8000000000000000 ≤ n ∧ n < 0x8000000000000000 := by
  simp [fitsInt64]

/-- A register stands in a place of a run exactly if the place is as far as it lies after the first
one. -/
theorem registerAfter_eq_iff {register first : Int} {place : Nat}
    (hregister : fitsInt64 register = true) (hplace : fitsInt64 place = true) :
    registerAfter first place = register ↔ registerOffset register first = place := by
  rw [fitsInt64_iff] at hregister hplace
  rw [registerAfter, registerOffset]
  constructor
  · rintro rfl
    have hback : first + place - first = place := by omega
    rw [wrap, wrap, Int.bmod_sub_bmod, hback]
    exact wrap_eq_self hplace.1 hplace.2
  · intro h
    have hback : first + (register - first) = register := by omega
    rw [← h, wrap, wrap, Int.add_bmod_bmod, hback]
    exact wrap_eq_self hregister.1 hregister.2

theorem makesBlob_iff {i : Instr} (hregister : fitsInt64 register = true) :
    makesBlob i register = true ↔ TurnsToBlob i register := by
  constructor
  · intro h
    unfold makesBlob at h
    split at h
    · next hcast =>
      rw [Bool.and_eq_true, beq_iff_eq, beq_iff_eq] at h
      exact .cast hcast h.1 h.2
    · next haffinity =>
      split at h
      · next first count codes hfirst hcount hcodes =>
        simp only [Bool.and_eq_true, decide_eq_true_eq, beq_iff_eq] at h
        obtain ⟨⟨hlower, hupper⟩, hblob⟩ := h
        -- the count is a word, so the places of the run are words as well and none wraps
        have hplace : ((registerOffset register first).toNat : Int) =
            registerOffset register first :=
          Int.toNat_of_nonneg hlower
        have hfits := fitsInt64_iff.1 (fitsInt64_of_number? hcount)
        refine .affinity haffinity hfirst hcount hcodes (hplace ▸ hupper) ?_ hblob
        exact (registerAfter_eq_iff hregister (fitsInt64_iff.2 (by omega))).2 hplace.symm
      · cases h
    · cases h
  · intro h
    unfold makesBlob
    cases h with
    | cast hcast hregister hblob => simp [hcast, hregister, hblob]
    | affinity haffinity hfirst hcount hcodes hplace hrun hblob =>
      have hfits := fitsInt64_iff.1 (fitsInt64_of_number? hcount)
      have hoffset := (registerAfter_eq_iff hregister (fitsInt64_iff.2 (by omega))).1 hrun
      simp [haffinity, hfirst, hcount, hcodes, hoffset, hplace, hblob]

/-- The mark is set for what is done to the last register. -/
theorem isBlobAt_iff (hregister : fitsInt64 register = true) :
    p.isBlobAt pos register = true ↔ p.CoercedInPlace pos register := by
  rw [isBlobAt, searchBack_isSome_iff]
  simp only [makesBlob_iff hregister]
  rfl

theorem valueAt?_eq (h : p.constantWithin copyReach pos register = some text) :
    p.valueAt? pos register = some (if p.isBlobAt pos register then asBlob text else text) := by
  rw [valueAt?, h]
  rfl

theorem asBlob_ne (text : String) : asBlob text ≠ text := by
  intro h
  have hlength := congrArg String.length h
  rw [asBlob, String.length_append, String.length_append] at hlength
  have hmark : "CAST(".length = 5 := rfl
  omega

/-! ## Where a coercion is seen -/

/-- What changes the type of registers writes none. -/
theorem TurnsToBlob.not_writes {i : Instr} {changed : Int} (h : TurnsToBlob i changed)
    (register : Int) :
    i.writes register = false := by
  rw [Instr.writes, Instr.target]
  cases h with
  | cast hcast => rw [hcast]; rfl
  | affinity haffinity => rw [haffinity]; rfl

/-- The writer of a register stands before the position, or else behind it, and then no writer
stands before. -/
theorem writerFor_cases (h : p.writerFor pos register = some writer) :
    p.lastWriter pos register = some writer ∨ p.lastWriter pos register = none ∧ pos < writer := by
  rw [writerFor, Option.or_eq_some_iff] at h
  obtain hlast | ⟨hnone, hnext⟩ := h
  · exact .inl hlast
  · exact .inr ⟨hnone, (searchForward_some hnext).1⟩

/-- A change of the last register before the use falls on the last stretch of the way. -/
theorem coerced_of_inPlace (hw : p.writerFor pos register = some writer)
    (h : p.CoercedInPlace pos register) :
    p.Coerced pos register := by
  obtain ⟨q, i, hq, hi, hblob, hclear⟩ := h
  refine ⟨_, q, i, .last hw, ?_, hi, hblob⟩
  unfold Stretch.Covers
  obtain hlast | ⟨-, hbehind⟩ := writerFor_cases hw
  · obtain ⟨hlt, ⟨j, hj, hwrites⟩, -⟩ := lastWriter_eq_some_iff.1 hlast
    rw [if_pos hlt]
    refine ⟨Nat.lt_of_not_le fun hle => ?_, hq⟩
    -- otherwise the writer would stand between the change and the use, or be the change itself
    rcases Nat.eq_or_lt_of_le hle with rfl | hqw
    · obtain rfl := Option.some.inj (hi.symm.trans hj)
      rw [hblob.not_writes] at hwrites
      cases hwrites
    · rw [hclear writer j hqw hlt hj] at hwrites
      cases hwrites
  · rw [if_neg (Nat.lt_asymm hbehind)]
    exact .inl hq

/-- On the last stretch a value is changed before the use or behind it. -/
theorem inPlace_or_behind {q : Nat} {i : Instr} (hw : p.writerFor pos register = some writer)
    (hcovers : Stretch.Covers p ⟨register, writer, pos⟩ q) (hi : p.at? q = some i)
    (hblob : TurnsToBlob i register) :
    p.CoercedInPlace pos register ∨ p.CoercedElsewhere pos register := by
  unfold Stretch.Covers at hcovers
  obtain hlast | ⟨hnone, hbehind⟩ := writerFor_cases hw
  · obtain ⟨hlt, -, hclear⟩ := lastWriter_eq_some_iff.1 hlast
    rw [if_pos hlt] at hcovers
    exact .inl ⟨q, i, hcovers.2, hi, hblob,
      fun k j hqk hk hj => hclear k j (Nat.lt_trans hcovers.1 hqk) hk hj⟩
  · rw [if_neg (Nat.lt_asymm hbehind)] at hcovers
    obtain hq | ⟨hwq, hnext⟩ := hcovers
    · exact .inl ⟨q, i, hq, hi, hblob, fun k j _ hk hj => lastWriter_eq_none_iff.1 hnone k j hk hj⟩
    · exact .inr ⟨writer, hw, .inl ⟨hbehind, q, i, hwq, hnext, hi, hblob⟩⟩

theorem coerced_of_elsewhere (h : p.CoercedElsewhere pos register) : p.Coerced pos register := by
  obtain ⟨writer, hw,
    ⟨hbehind, q, i, hwq, hnext, hi, hblob⟩ | ⟨i, source, hi, hcopy, hsource, hbefore⟩⟩ := h
  · refine ⟨_, q, i, .last hw, ?_, hi, hblob⟩
    unfold Stretch.Covers
    rw [if_neg (Nat.lt_asymm hbehind)]
    exact .inr ⟨hwq, hnext⟩
  · obtain ⟨s, q, j, hway, hcovers, hj, hblob⟩ := hbefore
    exact ⟨s, q, j, .copied hw hi hcopy hsource hway, hcovers, hj, hblob⟩

theorem coerced_iff (hw : p.writerFor pos register = some writer) :
    p.Coerced pos register ↔ p.CoercedInPlace pos register ∨ p.CoercedElsewhere pos register := by
  constructor
  · rintro ⟨s, q, i, hway, hcovers, hi, hblob⟩
    cases hway with
    | last h => exact inPlace_or_behind h hcovers hi hblob
    | copied h hcopier hcopy hsource hbefore =>
      -- the search takes no step to the source, so nothing on the way there is seen
      exact .inr ⟨_, h, .inr ⟨_, _, hcopier, hcopy, hsource, s, q, i, hbefore, hcovers, hi, hblob⟩⟩
  · rintro (h | h)
    · exact coerced_of_inPlace hw h
    · exact coerced_of_elsewhere h

theorem writerFor_of_constantWithin {reach : Nat}
    (h : p.constantWithin reach pos register = some text) :
    ∃ writer, p.writerFor pos register = some writer := by
  cases reach with
  | zero => cases h
  | succ reach =>
    rw [constantWithin] at h
    obtain ⟨writer, hw, -⟩ := Option.bind_eq_some_iff.1 h
    exact ⟨writer, hw⟩

/-- A constant that is loaded before the use, and not copied, has only the way through its own
register. -/
theorem not_coercedElsewhere_of_loaded {i : Instr} {kind : Constant}
    (hw : p.lastWriter pos register = some writer) (hi : p.at? writer = some i)
    (hkind : i.opcode = .constant kind) : ¬p.CoercedElsewhere pos register := by
  rintro ⟨writer', hw', helsewhere⟩
  rw [writerFor, hw, Option.some_or] at hw'
  obtain rfl := Option.some.inj hw'
  obtain ⟨hbehind, -⟩ | ⟨j, -, hj, hcopy, -⟩ := helsewhere
  · exact Nat.lt_asymm hbehind (lastWriter_eq_some_iff.1 hw).1
  · obtain rfl := Option.some.inj (hi.symm.trans hj)
    rw [hkind] at hcopy
    cases hcopy

/-- A constant that nothing has turned into a BLOB is not marked as one. One that was turned into a
BLOB on its way is marked, exactly unless that happened elsewhere only: behind the use, or in a
register that the value was copied from. So the mark is right for every constant that is loaded
before its use and not copied. -/
theorem coercion_shown_iff (hregister : fitsInt64 register = true)
    (h : p.constantWithin copyReach pos register = some text) :
    (¬p.Coerced pos register → p.valueAt? pos register = some text) ∧
    ((p.Coerced pos register → p.valueAt? pos register = some (asBlob text)) ↔
      (p.CoercedElsewhere pos register → p.CoercedInPlace pos register)) ∧
    ∀ writer i kind, p.lastWriter pos register = some writer → p.at? writer = some i →
      i.opcode = .constant kind → p.Coerced pos register →
        p.valueAt? pos register = some (asBlob text) := by
  obtain ⟨writer, hw⟩ := writerFor_of_constantWithin h
  have hcoerced := coerced_iff hw
  have hshown : p.valueAt? pos register = some (asBlob text) ↔ p.CoercedInPlace pos register := by
    rw [valueAt?_eq h, ← isBlobAt_iff hregister]
    split
    · next hblob => exact iff_of_true rfl hblob
    · next hblob => exact iff_of_false (fun heq => asBlob_ne text (Option.some.inj heq).symm) hblob
  refine ⟨fun hnot => ?_, ?_, fun writer i kind hlast hi hkind hcoerced' => ?_⟩
  · have hplain : ¬p.isBlobAt pos register = true := fun hblob =>
      hnot (hcoerced.2 (.inl ((isBlobAt_iff hregister).1 hblob)))
    rw [valueAt?_eq h, if_neg hplain]
  · rw [hshown, hcoerced]
    exact ⟨fun hmarked helsewhere => hmarked (.inr helsewhere),
      fun hseen hany => hany.elim id hseen⟩
  · refine hshown.2 ((hcoerced.1 hcoerced').resolve_right ?_)
    exact not_coercedElsewhere_of_loaded hlast hi hkind

/-! ## A coercion that is seen and two that are not -/

/-- A text becomes a BLOB by the second of two affinities. -/
def affinityAfterLoad : Program := ⟨[
  { address := 0, name := "String8", p2 := some "2", p4 := some "abc" },
  { address := 1, name := "Affinity", p1 := some "1", p2 := some "2", p4 := some "DA" },
  { address := 2, name := "Eq", p1 := some "2", p2 := some "0", p3 := some "1" }]⟩

theorem coercion_shown_affinityAfterLoad :
    affinityAfterLoad.constantWithin copyReach 2 2 = some "'abc'" ∧ affinityAfterLoad.Coerced 2 2 ∧
    affinityAfterLoad.valueAt? 2 2 = some "CAST('abc' AS BLOB)" := by
  have hconstant : affinityAfterLoad.constantWithin copyReach 2 2 = some "'abc'" := by
    decide +kernel
  have hwriter : affinityAfterLoad.writerFor 2 2 = some 0 := by decide +kernel
  have hcoerced : affinityAfterLoad.Coerced 2 2 :=
    coerced_of_inPlace hwriter ((isBlobAt_iff (by decide)).1 (by decide +kernel))
  refine ⟨hconstant, hcoerced, ?_⟩
  rw [(coercion_shown_iff (by decide) hconstant).2.2 0 _ .string8 (by decide +kernel) rfl
    (by decide +kernel) hcoerced]
  decide +kernel

/-- A number becomes a BLOB before it is copied to the register that is compared. -/
def castBeforeCopy : Program := ⟨[
  { address := 0, name := "Integer", p1 := some "5", p2 := some "2" },
  { address := 1, name := "Cast", p1 := some "2", p2 := some "65" },
  { address := 2, name := "SCopy", p1 := some "2", p2 := some "1" },
  { address := 3, name := "Eq", p1 := some "1", p2 := some "0", p3 := some "3" }]⟩

/-- A text is loaded behind its use and becomes a BLOB there. -/
def castBehindUse : Program := ⟨[
  { address := 0, name := "Eq", p1 := some "1", p2 := some "0", p3 := some "3" },
  { address := 1, name := "String8", p2 := some "1", p4 := some "abc" },
  { address := 2, name := "Cast", p1 := some "1", p2 := some "65" }]⟩

/-- Both constants became a BLOB on their way and are not marked. -/
theorem coercion_lost :
    (castBeforeCopy.constantWithin copyReach 3 1 = some "5" ∧ castBeforeCopy.Coerced 3 1 ∧
      castBeforeCopy.valueAt? 3 1 ≠ some (asBlob "5")) ∧
    castBehindUse.constantWithin copyReach 0 1 = some "'abc'" ∧ castBehindUse.Coerced 0 1 ∧
      castBehindUse.valueAt? 0 1 ≠ some (asBlob "'abc'") := by
  have hwriter : castBeforeCopy.writerFor 2 2 = some 0 := by decide +kernel
  have hcopied : castBeforeCopy.Coerced 2 2 :=
    coerced_of_inPlace hwriter ((isBlobAt_iff (by decide)).1 (by decide +kernel))
  have hnext : castBehindUse.nextWriter 1 1 = none := by decide +kernel
  refine ⟨⟨by decide +kernel, ?_, by decide +kernel⟩, by decide +kernel, ?_, by decide +kernel⟩
  · exact coerced_of_elsewhere ⟨2, by decide +kernel,
      .inr ⟨_, 2, rfl, by decide +kernel, by decide +kernel, hcopied⟩⟩
  · refine coerced_of_elsewhere ⟨1, by decide +kernel, .inl ⟨by decide, 2, _, by decide, ?_, rfl,
      (makesBlob_iff (by decide)).1 (by decide +kernel)⟩⟩
    intro next h
    rw [hnext] at h
    cases h

end IndexAdvisor.Program
