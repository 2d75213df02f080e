import IndexAdvisor.Proofs.Program.Coercion

/-!
# Guarded computations

The advisor computes with words of 64 bits, looks up instructions and entries by position, and
follows registers with searches that call themselves. Here a sum that is no word, a lookup that
finds nothing and a call that is nested too deep stop the computation with a `Fault`. So a guarded
computation that equals `pure a` ends, gives `a`, and stays in range all the way.

The guarded analysis of a program (`Guarded.ofProgram`) is the analysis with every sum, every lookup
and every nested call written out. What it is good for is that it never stops early:

> `analysis_in_range`: for operands of 32 bits it gives exactly what the analysis gives.

Here are the guarded words and the loops. A loop whose body gives what the body of an unguarded loop
gives, and keeps an invariant, gives what that loop gives (`foldlM_eq_foldl`).
-/

namespace IndexAdvisor

/-- Why a guarded computation stops. -/
inductive Fault where
  /-- A result that is no signed 64-bit word. -/
  | overflow (n : Int)
  /-- A position without an instruction. -/
  | noInstr (pos : Nat)
  /-- A place without an entry. -/
  | noEntry (id : Nat)
  /-- A search that has not ended when it has nested as many calls as it may. -/
  | unended
  deriving DecidableEq, Repr

/-- A computation that may stop with a fault. -/
abbrev Guarded (α : Type) := Except Fault α

/-! ## Numbers -/

/-- A number of 32 bits. -/
def fitsInt32 (n : Int) : Bool := -0x80000000 ≤ n && n < 0x80000000

theorem fitsInt32_iff {n : Int} : fitsInt32 n = true ↔ -0x80000000 ≤ n ∧ n < 0x80000000 := by
  simp [fitsInt32]

/-- A number that stays a word when a number of 32 bits is taken from it. -/
def Spacious (n : Int) : Prop := -0x7fffffff80000000 ≤ n ∧ n < 0x7fffffff80000000

theorem spacious_of_fitsInt32 {n : Int} (h : fitsInt32 n = true) : Spacious n := by
  have hn := fitsInt32_iff.1 h
  show -0x7fffffff80000000 ≤ n ∧ n < 0x7fffffff80000000
  omega

namespace Guarded

variable {α β σ : Type}

/-- A computation ends, be it out of range. -/
def Ends (c : Guarded α) : Prop := c ≠ .error .unended

theorem ends_pure (a : α) : Ends (pure a : Guarded α) := nofun

theorem Ends.bind {c : Guarded α} {next : α → Guarded β} (h : c.Ends) (hnext : ∀ a, (next a).Ends) :
    (c >>= next).Ends := by
  rcases c with fault | a
  · intro hunended
    exact h (congrArg Except.error (Except.error.inj hunended))
  · exact hnext a

/-- A result of arithmetic, which has to be a word. -/
def word (n : Int) : Guarded Int := if fitsInt64 n then pure n else throw (.overflow n)

theorem word_ends (n : Int) : (word n).Ends := by
  unfold word
  split <;> nofun

theorem word_eq {n : Int} (h : fitsInt64 n = true) : word n = pure n := if_pos h

/-- A register after one of 32 bits, at a distance that leaves room. -/
theorem word_registerAfter {first : Int} (hfirst : fitsInt32 first = true) (place : Int)
    (h0 : -0x80000000 ≤ place) (hplace : place < 0x7fffffff00000000) :
    word (first + place) = pure (registerAfter first place) ∧
      Spacious (registerAfter first place) := by
  have hrange := fitsInt32_iff.1 hfirst
  have hwrap : registerAfter first place = first + place := wrap_eq_self (by omega) (by omega)
  rw [hwrap]
  refine ⟨word_eq (Program.fitsInt64_iff.2 (by omega)), ?_⟩
  show -0x7fffffff80000000 ≤ first + place ∧ first + place < 0x7fffffff80000000
  omega

/-- The distance of a register from one of 32 bits. -/
theorem word_registerOffset {register first : Int} (hregister : Spacious register)
    (hfirst : fitsInt32 first = true) :
    word (register - first) = pure (registerOffset register first) := by
  obtain ⟨hlower, hupper⟩ := hregister
  have hrange := fitsInt32_iff.1 hfirst
  have hwrap : registerOffset register first = register - first :=
    wrap_eq_self (by omega) (by omega)
  rw [hwrap]
  exact word_eq (Program.fitsInt64_iff.2 (by omega))

/-- A number of 32 bits has a negation. -/
theorem word_neg {n : Int} (h : fitsInt32 n = true) : word (-n) = pure (wrap (-n)) := by
  have hrange := fitsInt32_iff.1 h
  rw [wrap_eq_self (by omega) (by omega)]
  exact word_eq (Program.fitsInt64_iff.2 (by omega))

/-! ## Loops -/

/-- A guarded loop whose body does what an unguarded one does as long as `P` holds, which the body
keeps. -/
theorem foldlM_eq_foldl {P : σ → Prop} {step : σ → α → Guarded σ} {next : σ → α → σ} {as : List α}
    {start : σ} (hstart : P start)
    (hstep : ∀ s, ∀ a ∈ as, P s → step s a = pure (next s a) ∧ P (next s a)) :
    as.foldlM step start = pure (as.foldl next start) ∧ P (as.foldl next start) := by
  induction as generalizing start with
  | nil => exact ⟨rfl, hstart⟩
  | cons a as ih =>
    obtain ⟨hfirst, hkept⟩ := hstep start a (List.mem_cons_self ..) hstart
    rw [List.foldlM_cons, hfirst, pure_bind]
    exact ih hkept fun s b hb => hstep s b (List.mem_cons_of_mem a hb)

/-- What is found at each of some things, in order. -/
def collect (find : α → Guarded (Option β)) : List α → Guarded (List β)
  | [] => pure []
  | a :: as => do
    let found ← find a
    let rest ← collect find as
    return found.toList ++ rest

theorem collect_eq {find : α → Guarded (Option β)} {f : α → Option β} {as : List α}
    (h : ∀ a ∈ as, find a = pure (f a)) : collect find as = pure (as.filterMap f) := by
  induction as with
  | nil => rfl
  | cons a as ih =>
    have hrest := ih fun b hb => h b (List.mem_cons_of_mem a hb)
    rw [collect, h a (List.mem_cons_self ..), pure_bind, hrest, pure_bind, List.filterMap_cons]
    rcases f a with _ | b <;> rfl

/-- A loop over the instructions of a program, with their positions. -/
def visit (p : Program) (start : σ) (step : σ → Nat → Instr → Guarded σ) : Guarded σ :=
  p.instrs.zipIdx.foldlM (fun s entry => step s entry.2 entry.1) start

theorem visit_eq {P : σ → Prop} {p : Program} {step : σ → Nat → Instr → Guarded σ}
    {next : σ → Nat → Instr → σ} {start : σ} (hstart : P start)
    (hstep : ∀ s pos i, p.at? pos = some i → P s → step s pos i = pure (next s pos i) ∧
      P (next s pos i)) :
    visit p start step = pure (p.visit start next) ∧ P (p.visit start next) := by
  refine foldlM_eq_foldl hstart ?_
  intro s entry hentry hs
  exact hstep s entry.2 entry.1 (List.mem_zipIdx_iff_getElem?.1 hentry) hs

end Guarded

end IndexAdvisor
