import IndexAdvisor.Text.Pattern

/-!
# What a pattern takes, and what a replacement leaves

`Takes` says which characters a pattern can take, whatever comes first among the ways to take them.
The search of `run` is exact in this respect: it fails just where every way fails
(`run_eq_none_iff`), and what it finds is one of them (`exists_of_run`). Of the characters around a
match only one thing matters, namely which of them are word characters (`Takes.congr`).

`Replaced` is what `replaceAll` does, from left to right: at each place a character is kept where
the pattern takes nothing, or else what it takes first is replaced (`replaceAll_replaced`).
-/

namespace IndexAdvisor

/-- The character before what follows some characters. -/
def lastOr (before : Option Char) (cs : List Char) : Option Char :=
  cs.foldl (fun _ c => some c) before

@[simp] theorem lastOr_nil (before : Option Char) : lastOr before [] = before := rfl

@[simp] theorem lastOr_cons (before : Option Char) (c : Char) (cs : List Char) :
    lastOr before (c :: cs) = lastOr (some c) cs := rfl

@[simp] theorem lastOr_append (before : Option Char) (xs ys : List Char) :
    lastOr before (xs ++ ys) = lastOr (lastOr before xs) ys :=
  List.foldl_append

theorem lastOr_congr {before other : Option Char} {cs : List Char} (h : cs ≠ []) :
    lastOr before cs = lastOr other cs := by
  cases cs with
  | nil => exact absurd rfl h
  | cons c cs => rfl

/-- Whether there is a word character. -/
def Wordy (c : Option Char) : Prop := c.any isWordChar = true

namespace Spot

/-- The spot behind some characters. -/
def after (s : Spot) (cs rest : List Char) : Spot := ⟨lastOr s.before cs, rest, s.taken + cs.length⟩

end Spot

namespace Pattern

variable {p q : Pattern} {before other : Option Char} {cs rest text : List Char}

/-! ## Rows -/

/-- Whether characters make up a row. -/
def Fits (set : Char → Bool) (least : Nat) (most : Option Nat) (cs : List Char) : Prop :=
  (∀ c ∈ cs, set c = true) ∧ least ≤ cs.length ∧ ∀ m ∈ most, cs.length ≤ m

theorem fits_nil_iff {set : Char → Bool} {least : Nat} {most : Option Nat} :
    Fits set least most [] ↔ least = 0 := by
  simp [Fits]

theorem fits_cons_iff {set : Char → Bool} {least : Nat} {most : Option Nat} {c : Char} :
    Fits set least most (c :: cs) ↔
      (set c = true ∧ most ≠ some 0) ∧ Fits set (least - 1) (most.map (· - 1)) cs := by
  cases most with
  | none => simp [Fits, and_assoc]
  | some m =>
    simp only [Fits, List.forall_mem_cons, List.length_cons, Option.mem_def, Option.some.injEq,
      forall_eq', Option.map_some, ne_eq]
    constructor
    · rintro ⟨⟨hc, hcs⟩, hleast, hmost⟩
      exact ⟨⟨hc, by omega⟩, hcs, by omega, by omega⟩
    · rintro ⟨⟨hc, hm⟩, hcs, hleast, hmost⟩
      exact ⟨⟨hc, hcs⟩, by omega, by omega⟩

theorem fits_single_iff {set : Char → Bool} : Fits set 1 (some 1) cs ↔
    ∃ c, cs = [c] ∧ set c = true := by
  constructor
  · intro h
    cases cs with
    | nil => cases fits_nil_iff.1 h
    | cons c cs =>
      obtain ⟨⟨hc, -⟩, -, -, hmost⟩ := fits_cons_iff.1 h
      have hnone : cs.length ≤ 0 := hmost 0 rfl
      exact ⟨c, by rw [List.eq_nil_of_length_eq_zero (Nat.le_zero.1 hnone)], hc⟩
  · rintro ⟨c, rfl, hc⟩
    exact fits_cons_iff.2 ⟨⟨hc, by simp⟩, fits_nil_iff.2 rfl⟩

/-- The spots that a row spreads to are those behind the rows at the front of the text. -/
theorem mem_spread {set : Char → Bool} {least taken : Nat} {room : Option Nat} {near : List Spot}
    {t : Spot} :
    t ∈ Spot.spread set least room before taken near text ↔ t ∈ near ∨
      ∃ cs rest, text = cs ++ rest ∧ Fits set least room cs ∧
        t = ⟨lastOr before cs, rest, taken + cs.length⟩ := by
  -- the row may end here
  have hnear (text : List Char) (least : Nat) (before : Option Char) (taken : Nat)
      (near : List Spot) :
      t ∈ (if least = 0 then (⟨before, text, taken⟩ : Spot) :: near else near) ↔
        t ∈ near ∨ least = 0 ∧ t = ⟨before, text, taken⟩ := by
    split
    · next h => simp [h, or_comm]
    · next h => simp [h]
  induction text generalizing least room before taken near with
  | nil =>
    rw [Spot.spread, hnear]
    constructor
    · rintro (h | ⟨h, rfl⟩)
      · exact .inl h
      · exact .inr ⟨[], [], rfl, fits_nil_iff.2 h, rfl⟩
    · rintro (h | ⟨cs, rest, htext, hfits, rfl⟩)
      · exact .inl h
      · obtain ⟨rfl, rfl⟩ := List.append_eq_nil_iff.1 htext.symm
        exact .inr ⟨fits_nil_iff.1 hfits, rfl⟩
  | cons c text ih =>
    rw [Spot.spread]
    by_cases hc : (set c && room != some 0) = true
    · rw [if_pos hc]
      refine ih.trans ?_
      rw [hnear]
      constructor
      · rintro ((h | ⟨h, rfl⟩) | ⟨cs, rest, rfl, hfits, rfl⟩)
        · exact .inl h
        · exact .inr ⟨[], _, rfl, fits_nil_iff.2 h, rfl⟩
        · refine .inr ⟨c :: cs, rest, rfl, fits_cons_iff.2 ⟨by simpa using hc, hfits⟩, ?_⟩
          simp only [lastOr_cons, List.length_cons, Spot.mk.injEq, true_and]
          omega
      · rintro (h | ⟨cs, rest, htext, hfits, rfl⟩)
        · exact .inl (.inl h)
        · cases cs with
          | nil =>
            obtain rfl : c :: text = rest := htext
            exact .inl (.inr ⟨fits_nil_iff.1 hfits, rfl⟩)
          | cons d cs =>
            obtain ⟨rfl, rfl⟩ := List.cons.inj htext
            refine .inr ⟨cs, rest, rfl, (fits_cons_iff.1 hfits).2, ?_⟩
            simp only [lastOr_cons, List.length_cons, Spot.mk.injEq, true_and]
            omega
    · rw [if_neg hc, hnear]
      constructor
      · rintro (h | ⟨h, rfl⟩)
        · exact .inl h
        · exact .inr ⟨[], _, rfl, fits_nil_iff.2 h, rfl⟩
      · rintro (h | ⟨cs, rest, htext, hfits, rfl⟩)
        · exact .inl h
        · cases cs with
          | nil =>
            obtain rfl : c :: text = rest := htext
            exact .inr ⟨fits_nil_iff.1 hfits, rfl⟩
          | cons d cs =>
            obtain ⟨rfl, rfl⟩ := List.cons.inj htext
            have hroom := (fits_cons_iff.1 hfits).1
            simp [hroom] at hc

/-! ## Taking -/

/-- Whether a pattern can take characters that have one text before them and another one behind. -/
def Takes : Pattern → (before : Option Char) → (cs rest : List Char) → Prop
  | nothing, _, cs, _ => cs = []
  | edge, before, cs, rest => cs = [] ∧ Spot.atEdge { before, rest } = true
  | row set least most, _, cs, _ => Fits set least most cs
  | seq first second, before, cs, rest =>
    ∃ xs ys, cs = xs ++ ys ∧ first.Takes before xs (ys ++ rest) ∧
      second.Takes (lastOr before xs) ys rest
  | optional part, before, cs, rest => cs = [] ∨ part.Takes before cs rest

/-- A search fails where every way to take characters does. -/
theorem run_eq_none_iff {α : Type} {andThen : Spot → Option α} {s : Spot} : p.run andThen s = none ↔
    ∀ cs rest, s.rest = cs ++ rest → p.Takes s.before cs rest →
      andThen (s.after cs rest) = none := by
  induction p generalizing andThen s with
  | nothing =>
    constructor
    · rintro h cs rest hs rfl
      obtain rfl : s.rest = rest := hs
      exact h
    · intro h
      exact h [] s.rest rfl rfl
  | edge =>
    rw [run]
    constructor
    · rintro h cs rest hs ⟨rfl, hedge⟩
      obtain rfl : s.rest = rest := hs
      have hs : s.atEdge = true := hedge
      rwa [if_pos hs] at h
    · intro h
      split
      · next hedge => exact h [] s.rest rfl ⟨rfl, hedge⟩
      · rfl
  | row set least most =>
    rw [run, List.findSome?_eq_none_iff]
    constructor
    · intro h cs rest hs hfits
      exact h _ (mem_spread.2 (.inr ⟨cs, rest, hs, hfits, rfl⟩))
    · intro h t ht
      rcases mem_spread.1 ht with ht | ⟨cs, rest, hs, hfits, rfl⟩
      · cases ht
      · exact h cs rest hs hfits
  | seq first second ihfirst ihsecond =>
    rw [run, ihfirst]
    constructor
    · rintro h _ rest hs ⟨xs, ys, rfl, hxs, hys⟩
      rw [List.append_assoc] at hs
      have hsecond := ihsecond.1 (h xs (ys ++ rest) hs hxs) ys rest rfl hys
      simpa only [Spot.after, lastOr_append, List.length_append, Nat.add_assoc] using hsecond
    · intro h xs rest hs hxs
      rw [ihsecond]
      rintro ys zs rfl hys
      have hboth := h (xs ++ ys) zs (by rw [hs, List.append_assoc]) ⟨xs, ys, rfl, hxs, hys⟩
      simpa only [Spot.after, lastOr_append, List.length_append, Nat.add_assoc] using hboth
  | optional part ih =>
    rw [run]
    rcases hpart : part.run andThen s with _ | a
    · have hno := ih.1 hpart
      constructor
      · rintro h cs rest hs (rfl | hcs)
        · obtain rfl : s.rest = rest := hs
          exact h
        · exact hno cs rest hs hcs
      · intro h
        exact h [] s.rest rfl (.inl rfl)
    · constructor
      · intro h
        cases h
      · intro h
        have hnone : part.run andThen s = none := ih.2 fun cs rest hs hcs => h cs rest hs (.inr hcs)
        rw [hpart] at hnone
        cases hnone

/-- What a search finds is one of the ways to take characters. -/
theorem exists_of_run {α : Type} {andThen : Spot → Option α} {s : Spot} {a : α}
    (h : p.run andThen s = some a) :
    ∃ cs rest, s.rest = cs ++ rest ∧ p.Takes s.before cs rest ∧
      andThen (s.after cs rest) = some a := by
  induction p generalizing andThen s with
  | nothing => exact ⟨[], s.rest, rfl, rfl, h⟩
  | edge =>
    rw [run] at h
    split at h
    · next hedge => exact ⟨[], s.rest, rfl, ⟨rfl, hedge⟩, h⟩
    · cases h
  | row set least most =>
    rw [run] at h
    obtain ⟨t, ht, htake⟩ := List.exists_of_findSome?_eq_some h
    rcases mem_spread.1 ht with ht | ⟨cs, rest, hs, hfits, rfl⟩
    · cases ht
    · exact ⟨cs, rest, hs, hfits, htake⟩
  | seq first second ihfirst ihsecond =>
    obtain ⟨xs, rest, hs, hxs, hrest⟩ := ihfirst h
    obtain ⟨ys, zs, hys, htake, ha⟩ := ihsecond hrest
    obtain rfl : rest = ys ++ zs := hys
    refine ⟨xs ++ ys, zs, by rw [hs, List.append_assoc], ⟨xs, ys, rfl, hxs, htake⟩, ?_⟩
    simpa only [Spot.after, lastOr_append, List.length_append, Nat.add_assoc] using ha
  | optional part ih =>
    rw [run] at h
    rcases hpart : part.run andThen s with _ | b
    · rw [hpart] at h
      exact ⟨[], s.rest, rfl, .inl rfl, h⟩
    · rw [hpart] at h
      obtain rfl : b = a := Option.some.inj h
      obtain ⟨cs, rest, hs, htake, hb⟩ := ih hpart
      exact ⟨cs, rest, hs, .inr htake, hb⟩

/-- Whether a pattern takes something at the front of a text. -/
def TakesFront (p : Pattern) (before : Option Char) (text : List Char) : Prop :=
  ∃ cs rest, text = cs ++ rest ∧ p.Takes before cs rest

theorem length?_eq_none_iff : p.length? before text = none ↔ ¬p.TakesFront before text := by
  rw [length?, run_eq_none_iff]
  constructor
  · rintro h ⟨cs, rest, rfl, htake⟩
    cases h cs rest rfl htake
  · intro h cs rest hs htake
    exact absurd ⟨cs, rest, hs, htake⟩ h

theorem takes_of_length? {n : Nat} (h : p.length? before text = some n) :
    ∃ cs rest, text = cs ++ rest ∧ cs.length = n ∧ p.Takes before cs rest := by
  obtain ⟨cs, rest, hs, htake, hn⟩ := exists_of_run h
  refine ⟨cs, rest, hs, ?_, htake⟩
  rw [← Option.some.inj hn, Spot.after, Nat.zero_add]

/-- A row takes as many characters as it can. -/
theorem head?_spread {set : Char → Bool} (least taken : Nat) (before : Option Char)
    (near : List Spot) (text : List Char) :
    (Spot.spread set least none before taken near text).head?.map Spot.taken =
      if least ≤ (text.takeWhile set).length then some (taken + (text.takeWhile set).length)
      else near.head?.map Spot.taken := by
  induction text generalizing least taken before near with
  | nil => cases least <;> rfl
  | cons c text ih =>
    rw [Spot.spread]
    by_cases hc : set c = true
    · rw [if_pos (by simp [hc]), List.takeWhile_cons, if_pos hc, List.length_cons]
      refine (ih ..).trans ?_
      cases least with
      | zero => simp [Nat.add_assoc, Nat.add_comm 1]
      | succ least => simp [Nat.add_assoc, Nat.add_comm 1]
    · rw [if_neg (by simp [hc]), List.takeWhile_cons, if_neg hc]
      cases least <;> rfl

theorem length?_oneOrMore (set : Char → Bool) (before : Option Char) (text : List Char) :
    (oneOrMore set).length? before text =
      if 1 ≤ (text.takeWhile set).length then some (text.takeWhile set).length else none := by
  have hfirst (spots : List Spot) : spots.findSome? (some ·.taken) =
      spots.head?.map Spot.taken := by
    cases spots <;> rfl
  rw [length?, oneOrMore, run, hfirst, head?_spread, Nat.zero_add]
  rfl

/-- Around what a pattern takes it only matters which characters are word characters. -/
theorem Takes.congr {rest' : List Char} (hbefore : Wordy other ↔ Wordy before)
    (hrest : Wordy rest'.head? ↔ Wordy rest.head?) (h : p.Takes before cs rest) :
    p.Takes other cs rest' := by
  induction p generalizing before other cs rest rest' with
  | nothing => exact h
  | edge =>
    refine ⟨h.1, ?_⟩
    have hedge := h.2
    rw [Wordy, Wordy, ← Bool.eq_iff_iff] at hbefore hrest
    rwa [Spot.atEdge, hbefore, hrest]
  | row set least most => exact h
  | seq first second ihfirst ihsecond =>
    obtain ⟨xs, ys, rfl, hxs, hys⟩ := h
    refine ⟨xs, ys, rfl, ihfirst hbefore ?_ hxs, ihsecond ?_ hrest hys⟩
    · cases ys with
      | nil => exact hrest
      | cons c ys => exact Iff.rfl
    · cases xs with
      | nil => exact hbefore
      | cons c xs => exact Iff.rfl
  | optional part ih => exact h.imp id (ih hbefore hrest)

/-! ## Replacing -/

/-- The least number of characters that a pattern takes. -/
def least : Pattern → Nat
  | row _ least _ => least
  | seq first second => first.least + second.least
  | _ => 0

theorem Takes.least_le (h : p.Takes before cs rest) : p.least ≤ cs.length := by
  induction p generalizing before cs rest with
  | nothing => exact Nat.zero_le _
  | edge => exact Nat.zero_le _
  | row set least most => exact h.2.1
  | seq first second ihfirst ihsecond =>
    obtain ⟨xs, ys, rfl, hxs, hys⟩ := h
    rw [List.length_append]
    exact Nat.add_le_add (ihfirst hxs) (ihsecond hys)
  | optional part ih => exact Nat.zero_le _

/-- A pattern that takes something behind a character that it passes over takes that character with
it. -/
theorem Takes.of_leads {c : Char} (hc : p.leads c = true) (h : p.Takes (some c) cs rest) :
    p.Takes before (c :: cs) rest := by
  induction p generalizing cs rest with
  | row set least most =>
    cases least with
    | succ least => cases hc
    | zero =>
      cases most with
      | some most => cases hc
      | none => exact ⟨List.forall_mem_cons.2 ⟨hc, h.1⟩, Nat.zero_le _, fun m hm => by cases hm⟩
  | seq first second ihfirst ihsecond =>
    obtain ⟨xs, ys, rfl, hxs, hys⟩ := h
    exact ⟨c :: xs, ys, rfl, ihfirst hc hxs, hys⟩
  | nothing => cases hc
  | edge => cases hc
  | optional part ih => cases hc

/-- The second text is the first one with a replacement for whatever the pattern takes first at each
place. -/
inductive Replaced (p : Pattern) (replacement : List Char) :
    Option Char → List Char → List Char → Prop
  | nil {before : Option Char} : Replaced p replacement before [] []
  | keep {before : Option Char} {c : Char} {text out : List Char}
    (h : p.length? before (c :: text) = none)
      (hrest : Replaced p replacement (some c) text out) :
      Replaced p replacement before (c :: text) (c :: out)
  | take {before : Option Char} {cs rest out : List Char} (hcs : cs ≠ [])
      (h : p.length? before (cs ++ rest) = some cs.length)
      (hrest : Replaced p replacement (lastOr before cs) rest out) :
      Replaced p replacement before (cs ++ rest) (replacement ++ out)

theorem takes_of_length?_append (h : p.length? before (cs ++ rest) = some cs.length) :
    p.Takes before cs rest := by
  obtain ⟨xs, ys, hxy, hlength, htake⟩ := takes_of_length? h
  obtain ⟨rfl, rfl⟩ := List.append_inj hxy hlength.symm
  exact htake

theorem replaceFrom_replaced (hp : 0 < p.least) (replacement : List Char) (text : List Char)
    (skip : Nat) (barred : Bool) (before : Option Char) (done : List Char)
    (hbarred : skip = 0 → barred = true → ¬p.TakesFront before text) :
    ∃ out, p.replaceFrom replacement skip barred before done text = done.reverse ++ out ∧
      Replaced p replacement (lastOr before (text.take skip)) (text.drop skip) out := by
  induction text generalizing skip barred before done with
  | nil =>
    rw [List.take_nil, List.drop_nil]
    exact ⟨[], by rw [replaceFrom, List.append_nil], .nil⟩
  | cons c text ih =>
    cases skip with
    | succ skip =>
      rw [replaceFrom]
      exact ih skip false (some c) done fun _ h => absurd h Bool.false_ne_true
    | zero =>
      rw [replaceFrom]
      have hkeep (hno : ¬p.TakesFront before (c :: text)) :
          ∃ out, p.replaceFrom replacement 0 (p.leads c) (some c) (c :: done) text =
            done.reverse ++ out ∧
            Replaced p replacement before (c :: text) out := by
        obtain ⟨out, hout, hrest⟩ := ih 0 (p.leads c) (some c) (c :: done) (by
          rintro - hc ⟨cs, rest, rfl, htake⟩
          exact hno ⟨c :: cs, rest, rfl, htake.of_leads hc⟩)
        refine ⟨c :: out, ?_, .keep (length?_eq_none_iff.2 hno) hrest⟩
        rw [hout, List.reverse_cons, List.append_assoc, List.singleton_append]
      rcases hn : (if barred = true then none else p.length? before (c :: text)) with _ | _ | n
      · apply hkeep
        split at hn
        · next hb => exact hbarred rfl hb
        · exact length?_eq_none_iff.1 hn
      · split at hn
        · cases hn
        · -- what is taken is not empty
          obtain ⟨cs, rest, -, hlength, htake⟩ := takes_of_length? hn
          have hleast := htake.least_le
          omega
      · split at hn
        · cases hn
        · obtain ⟨cs, rest, hcs, hlength, -⟩ := takes_of_length? hn
          have hlong : n ≤ text.length := by
            have hboth := congrArg List.length hcs
            rw [List.length_cons, List.length_append, hlength] at hboth
            omega
          obtain ⟨out, hout, hrest⟩ := ih n false (some c) (replacement.reverse ++ done)
            fun _ h => absurd h Bool.false_ne_true
          refine ⟨replacement ++ out, ?_, ?_⟩
          · dsimp only
            rw [hout, List.reverse_append, List.reverse_reverse, List.append_assoc]
          · have htext : c :: text = (c :: text.take n) ++ text.drop n := by
              rw [List.cons_append, List.take_append_drop]
            rw [List.take_zero, List.drop_zero, lastOr_nil, htext]
            refine .take (List.cons_ne_nil _ _) ?_ hrest
            rw [← htext, hn, List.length_cons, List.length_take, Nat.min_eq_left hlong]

/-- Replacing goes by what is taken first at each place. -/
theorem replaceAll_replaced (hp : 0 < p.least) (replacement text : List Char) :
    Replaced p replacement none text (p.replaceAll replacement text) := by
  obtain ⟨out, hout, hrest⟩ := replaceFrom_replaced hp replacement text 0 false none []
    fun _ h => absurd h Bool.false_ne_true
  rw [replaceAll, hout]
  exact hrest

end Pattern

end IndexAdvisor
