import IndexAdvisor.Proofs.Text.Pattern
import Mathlib.Data.List.Basic

/-!
# Which patterns occur in a text

A pattern occurs in a text if it takes something at some place (`OccursIn`). After a replacement it
still may: what is put in can be part of a match, and what has been apart can come together. A
replacement is `Foreign` to a pattern if no match touches it; this is read off the pattern. Where
such a replacement is put in for the matches of some pattern,

* a pattern without edges does not occur if it did not before, or if it is the one replaced
  (`Replaced.not_occursFrom`);
* a pattern that stands between edges does not occur if it is the one replaced
  (`Replaced.not_occursFrom_self`), although the characters around a place have changed: next to
  what was replaced there is no word character, as otherwise there would be no edge.
-/

namespace IndexAdvisor.Pattern

variable {p q : Pattern} {before other : Option Char} {cs rest text out replacement : List Char}
  {c : Char}

/-! ## Occurrences -/

/-- Whether a pattern takes something at some place of a text that has a character before it. -/
def OccursFrom (p : Pattern) (before : Option Char) (text : List Char) : Prop :=
  ∃ pre post, text = pre ++ post ∧ p.TakesFront (lastOr before pre) post

/-- Whether a pattern takes something at some place of a text. -/
def OccursIn (p : Pattern) (text : List Char) : Prop := p.OccursFrom none text

theorem occursFrom_nil_iff : p.OccursFrom before [] ↔ p.TakesFront before [] := by
  constructor
  · rintro ⟨pre, post, htext, hfront⟩
    obtain ⟨rfl, rfl⟩ := List.append_eq_nil_iff.1 htext.symm
    exact hfront
  · intro h
    exact ⟨[], [], rfl, h⟩

theorem occursFrom_cons_iff :
    p.OccursFrom before (c :: text) ↔ p.TakesFront before (c :: text) ∨
      p.OccursFrom (some c) text := by
  constructor
  · rintro ⟨pre, post, htext, hfront⟩
    cases pre with
    | nil =>
      obtain rfl : c :: text = post := htext
      exact .inl hfront
    | cons d pre =>
      obtain ⟨rfl, rfl⟩ := List.cons.inj htext
      exact .inr ⟨pre, post, rfl, hfront⟩
  · rintro (h | ⟨pre, post, rfl, hfront⟩)
    · exact ⟨[], c :: text, rfl, h⟩
    · exact ⟨c :: pre, post, rfl, hfront⟩

theorem OccursFrom.append_left {xs ys : List Char} (h : p.OccursFrom (lastOr before xs) ys) :
    p.OccursFrom before (xs ++ ys) := by
  obtain ⟨pre, post, rfl, hfront⟩ := h
  exact ⟨xs ++ pre, post, (List.append_assoc ..).symm, by rwa [lastOr_append]⟩

/-- A pattern occurs where a search finds it. -/
theorem occursIn_of_length? {n : Nat} (h : p.length? none text = some n) : p.OccursIn text := by
  obtain ⟨cs, rest, rfl, -, htake⟩ := takes_of_length? h
  exact ⟨[], cs ++ rest, rfl, cs, rest, rfl, htake⟩

/-- What may be taken behind a match does not matter. -/
theorem occursIn_seq_iff (hq : ∀ before rest, q.Takes before [] rest) :
    (seq p q).OccursIn text ↔ p.OccursIn text := by
  constructor
  · rintro ⟨pre, _, rfl, _, rest, rfl, xs, ys, rfl, hxs, -⟩
    exact ⟨pre, _, rfl, xs, ys ++ rest, List.append_assoc .., hxs⟩
  · rintro ⟨pre, _, rfl, cs, rest, rfl, htake⟩
    exact ⟨pre, _, rfl, cs, rest, rfl, cs, [], (List.append_nil cs).symm, htake, hq _ _⟩

/-- What may be taken before a match does not matter. -/
theorem occursIn_anyNumber_seq_iff {set : Char → Bool} : (seq (anyNumber set) p).OccursIn text ↔
    p.OccursIn text := by
  constructor
  · rintro ⟨pre, _, rfl, _, rest, rfl, xs, ys, rfl, -, hys⟩
    exact ⟨pre ++ xs, ys ++ rest, by simp only [List.append_assoc], ys, rest, rfl,
      by rwa [lastOr_append]⟩
  · rintro ⟨pre, _, rfl, cs, rest, rfl, htake⟩
    exact ⟨pre, _, rfl, cs, rest, rfl, [], cs, rfl, fits_nil_iff.2 rfl, htake⟩

/-! ## Given texts -/

theorem takes_one_iff {c : Char} : (one c).Takes before cs rest ↔ cs = [c] := by
  refine fits_single_iff.trans ⟨?_, ?_⟩
  · rintro ⟨d, rfl, hd⟩
    rw [eq_of_beq hd]
  · rintro rfl
    exact ⟨c, rfl, beq_self_eq_true c⟩

theorem takes_literal_iff {w : String} : (literal w).Takes before cs rest ↔ cs = w.toList := by
  rw [literal]
  generalize w.toList = l
  induction l generalizing before cs with
  | nil => exact Iff.rfl
  | cons c l ih =>
    constructor
    · rintro ⟨xs, ys, rfl, hxs, hys⟩
      rw [takes_one_iff.1 hxs, ih.1 hys, List.singleton_append]
    · rintro rfl
      exact ⟨[c], l, rfl, takes_one_iff.2 rfl, ih.2 rfl⟩

/-- A given text occurs where it is a part. -/
theorem occursIn_literal_iff {w : String} : (literal w).OccursIn text ↔ w.toList <:+: text := by
  constructor
  · rintro ⟨pre, _, rfl, cs, rest, rfl, htake⟩
    obtain rfl := takes_literal_iff.1 htake
    exact ⟨pre, rest, List.append_assoc ..⟩
  · rintro ⟨pre, rest, rfl⟩
    exact ⟨pre, w.toList ++ rest, List.append_assoc .., w.toList, rest, rfl,
      takes_literal_iff.2 rfl⟩

theorem takes_literal_seq_iff {w : String} : (seq (literal w) p).Takes before cs rest ↔
    ∃ ys, cs = w.toList ++ ys ∧ p.Takes (lastOr before w.toList) ys rest := by
  constructor
  · rintro ⟨xs, ys, rfl, hxs, hys⟩
    obtain rfl := takes_literal_iff.1 hxs
    exact ⟨ys, rfl, hys⟩
  · rintro ⟨ys, rfl, hys⟩
    exact ⟨w.toList, ys, rfl, takes_literal_iff.2 rfl, hys⟩

/-! ## Characters of a match -/

/-- Whether a pattern never takes a character. -/
def avoids : Pattern → Char → Bool
  | row set _ _, c => !set c
  | seq first second, c => first.avoids c && second.avoids c
  | optional part, c => part.avoids c
  | _, _ => true

theorem Takes.notMem_of_avoids (hc : p.avoids c = true) (h : p.Takes before cs rest) : c ∉ cs := by
  induction p generalizing before cs rest with
  | nothing => exact h ▸ List.not_mem_nil
  | edge => exact h.1 ▸ List.not_mem_nil
  | row set least most =>
    intro hmem
    rw [avoids, h.1 c hmem] at hc
    cases hc
  | seq first second ihfirst ihsecond =>
    obtain ⟨xs, ys, rfl, hxs, hys⟩ := h
    rw [avoids, Bool.and_eq_true] at hc
    rw [List.mem_append, not_or]
    exact ⟨ihfirst hc.1 hxs, ihsecond hc.2 hys⟩
  | optional part ih =>
    rcases h with rfl | h
    · exact List.not_mem_nil
    · exact ih hc h

/-- Whether a pattern always takes a character. -/
def Needs (c : Char) : Pattern → Prop
  | row set least _ => 0 < least ∧ ∀ d, set d = true → d = c
  | seq first second => first.Needs c ∨ second.Needs c
  | _ => False

theorem needs_one (c : Char) : Needs c (one c) := ⟨Nat.one_pos, fun _ h => eq_of_beq h⟩

theorem Takes.mem_of_needs (hc : p.Needs c) (h : p.Takes before cs rest) : c ∈ cs := by
  induction p generalizing before cs rest with
  | row set least most =>
    obtain ⟨hleast, hset⟩ := hc
    cases cs with
    | nil => exact absurd h.2.1 (Nat.not_le_of_lt hleast)
    | cons d cs =>
      obtain rfl := hset d (h.1 d (List.mem_cons_self ..))
      exact List.mem_cons_self ..
  | seq first second ihfirst ihsecond =>
    obtain ⟨xs, ys, rfl, hxs, hys⟩ := h
    rw [List.mem_append]
    exact hc.imp (ihfirst · hxs) (ihsecond · hys)
  | nothing => exact hc.elim
  | edge => exact hc.elim
  | optional part ih => exact hc.elim

/-- Whether a pattern takes no character at all. -/
def idle : Pattern → Bool
  | nothing => true
  | edge => true
  | seq first second => first.idle && second.idle
  | _ => false

theorem Takes.eq_nil_of_idle (hp : p.idle = true) (h : p.Takes before cs rest) : cs = [] := by
  induction p generalizing before cs rest with
  | nothing => exact h
  | edge => exact h.1
  | row set least most => cases hp
  | seq first second ihfirst ihsecond =>
    obtain ⟨xs, ys, rfl, hxs, hys⟩ := h
    rw [idle, Bool.and_eq_true] at hp
    rw [ihfirst hp.1 hxs, ihsecond hp.2 hys, List.append_nil]
  | optional part ih => cases hp

/-- Whether the first character that a pattern takes is always one of a set. -/
def Begins (set : Char → Bool) : Pattern → Prop
  | row own least _ => 0 < least ∧ ∀ c, own c = true → set c = true
  | seq first second => first.Begins set ∨ first.idle = true ∧ second.Begins set
  | _ => False

theorem Takes.begins {set : Char → Bool} (hp : p.Begins set) (h : p.Takes before cs rest) :
    ∃ c xs, cs = c :: xs ∧ set c = true := by
  induction p generalizing before cs rest with
  | row own least most =>
    cases cs with
    | nil => exact absurd h.2.1 (Nat.not_le_of_lt hp.1)
    | cons c xs => exact ⟨c, xs, rfl, hp.2 c (h.1 c (List.mem_cons_self ..))⟩
  | seq first second ihfirst ihsecond =>
    obtain ⟨xs, ys, rfl, hxs, hys⟩ := h
    rcases hp with hp | ⟨hidle, hp⟩
    · obtain ⟨c, zs, rfl, hc⟩ := ihfirst hp hxs
      exact ⟨c, zs ++ ys, rfl, hc⟩
    · obtain ⟨c, zs, rfl, hc⟩ := ihsecond hp hys
      exact ⟨c, zs, by rw [hxs.eq_nil_of_idle hidle, List.nil_append], hc⟩
  | nothing => exact hp.elim
  | edge => exact hp.elim
  | optional part ih => exact hp.elim

/-- Whether the last character that a pattern takes is always one of a set. -/
def Ends (set : Char → Bool) : Pattern → Prop
  | row own least _ => 0 < least ∧ ∀ c, own c = true → set c = true
  | seq first second => second.Ends set ∨ second.idle = true ∧ first.Ends set
  | _ => False

theorem Takes.ends {set : Char → Bool} (hp : p.Ends set) (h : p.Takes before cs rest) :
    ∃ xs c, cs = xs ++ [c] ∧ set c = true := by
  induction p generalizing before cs rest with
  | row own least most =>
    rcases cs.eq_nil_or_concat' with rfl | ⟨xs, c, rfl⟩
    · exact absurd h.2.1 (Nat.not_le_of_lt hp.1)
    · exact ⟨xs, c, rfl, hp.2 c (h.1 c (by simp))⟩
  | seq first second ihfirst ihsecond =>
    obtain ⟨xs, ys, rfl, hxs, hys⟩ := h
    rcases hp with hp | ⟨hidle, hp⟩
    · obtain ⟨zs, c, rfl, hc⟩ := ihsecond hp hys
      exact ⟨xs ++ zs, c, (List.append_assoc ..).symm, hc⟩
    · obtain ⟨zs, c, rfl, hc⟩ := ihfirst hp hxs
      exact ⟨zs, c, by rw [hys.eq_nil_of_idle hidle, List.append_nil], hc⟩
  | nothing => exact hp.elim
  | edge => exact hp.elim
  | optional part ih => exact hp.elim

theorem ends_all {set : Char → Bool} (hp : p.Ends set) (front : List Pattern) :
    (all (front ++ [p])).Ends set := by
  induction front with
  | nil => exact .inr ⟨rfl, hp⟩
  | cons q front ih => exact .inl ih

/-- A text that no match of the pattern touches: neither end can be taken, and what the pattern
needs is missing. -/
structure Foreign (p : Pattern) (r : List Char) : Prop where
  first : ∃ c ∈ r.head?, p.avoids c = true
  last : ∃ c ∈ r.getLast?, p.avoids c = true
  needs : ∃ c, p.Needs c ∧ c ∉ r

/-- Behind a foreign text a match begins after it. -/
theorem Foreign.occursFrom (h : p.Foreign replacement)
    (hoccurs : p.OccursFrom before (replacement ++ out)) :
    p.OccursFrom (lastOr before replacement) out := by
  obtain ⟨pre, post, hpre, cs, rest, rfl, htake⟩ := hoccurs
  rcases List.append_eq_append_iff.1 hpre with ⟨inside, rfl, hout⟩ | ⟨inside, hreplacement, hcs⟩
  · exact ⟨inside, cs ++ rest, hout, cs, rest, rfl, by rwa [lastOr_append] at htake⟩
  · -- a match that begins in the text either lies in it or reaches over its end
    obtain ⟨c, hneeds, hc⟩ := h.needs
    obtain ⟨d, hd, havoids⟩ := h.last
    rcases List.append_eq_append_iff.1 hcs with ⟨beyond, rfl, hrest⟩ | ⟨beyond, rfl, hrest⟩
    · rw [hreplacement] at hc
      exact absurd (by simp [htake.mem_of_needs hneeds]) hc
    · rcases inside.eq_nil_or_concat' with rfl | ⟨front, e, rfl⟩
      · rw [List.append_nil] at hreplacement
        refine ⟨[], out, rfl, beyond, rest, hrest, ?_⟩
        rw [List.nil_append] at htake
        rw [hreplacement]
        exact htake
      · rw [hreplacement] at hd
        have hde : e = d := by simpa using hd
        exact absurd (by simp [hde]) (htake.notMem_of_avoids havoids)

/-! ## What a replacement leaves -/

/-- Characters that are not those of the replacement have been kept. -/
theorem Replaced.of_append (h : Replaced q replacement before text (cs ++ rest))
    (hcs : ∃ c ∈ replacement.head?, c ∉ cs) :
    ∃ rest', text = cs ++ rest' ∧ Replaced q replacement (lastOr before cs) rest' rest := by
  induction cs generalizing before text with
  | nil => exact ⟨text, rfl, h⟩
  | cons d cs ih =>
    obtain ⟨c, hc, hmem⟩ := hcs
    rw [List.mem_cons, not_or] at hmem
    generalize hout : d :: cs ++ rest = out at h
    cases h with
    | nil => cases hout
    | keep hnone hrest =>
      obtain ⟨rfl, rfl⟩ := List.cons.inj hout
      obtain ⟨rest', rfl, hrest'⟩ := ih hrest ⟨c, hc, hmem.2⟩
      exact ⟨rest', rfl, hrest'⟩
    | take hxs hlength hrest =>
      cases replacement with
      | nil => cases hc
      | cons e replacement =>
        obtain ⟨rfl, -⟩ := List.cons.inj hout
        exact absurd (Option.some.inj hc).symm hmem.1

/-- Whether a pattern has no edges. -/
def edgeFree : Pattern → Bool
  | edge => false
  | seq first second => first.edgeFree && second.edgeFree
  | optional part => part.edgeFree
  | _ => true

theorem Takes.of_edgeFree {rest' : List Char} (hp : p.edgeFree = true)
    (h : p.Takes before cs rest) :
    p.Takes other cs rest' := by
  induction p generalizing before other cs rest rest' with
  | nothing => exact h
  | edge => cases hp
  | row set least most => exact h
  | seq first second ihfirst ihsecond =>
    obtain ⟨xs, ys, rfl, hxs, hys⟩ := h
    rw [edgeFree, Bool.and_eq_true] at hp
    exact ⟨xs, ys, rfl, ihfirst hp.1 hxs, ihsecond hp.2 hys⟩
  | optional part ih => exact h.imp id (ih hp)

theorem Foreign.not_takes_nil (h : p.Foreign replacement) : ¬p.OccursFrom before [] := by
  rw [occursFrom_nil_iff]
  rintro ⟨cs, rest, htext, htake⟩
  obtain ⟨rfl, rfl⟩ := List.append_eq_nil_iff.1 htext.symm
  obtain ⟨c, hneeds, -⟩ := h.needs
  exact List.not_mem_nil (htake.mem_of_needs hneeds)

/-- What a match in the new text takes stood at the same place of the old text. -/
theorem Foreign.of_append (hp : p.Foreign replacement) (htake : p.Takes other cs rest)
    (h : Replaced q replacement before text (cs ++ rest)) :
    ∃ rest', text = cs ++ rest' ∧ Replaced q replacement (lastOr before cs) rest' rest := by
  obtain ⟨c, hc, havoids⟩ := hp.first
  exact h.of_append ⟨c, hc, htake.notMem_of_avoids havoids⟩

/-- A pattern without edges does not occur where it has been replaced, nor where it did not occur
before. -/
theorem Replaced.not_occursFrom (h : Replaced q replacement before text out)
    (hedge : p.edgeFree = true) (hforeign : p.Foreign replacement)
    (hp : p = q ∨ ¬p.OccursFrom before text) : ¬p.OccursFrom other out := by
  induction h generalizing other with
  | nil => exact hforeign.not_takes_nil
  | @keep before c text out hnone hrest ih =>
    rw [occursFrom_cons_iff]
    rintro (⟨cs, rest, hout, htake⟩ | hoccurs)
    · have hkept := Replaced.keep hnone hrest
      rw [hout] at hkept
      obtain ⟨rest', htext, -⟩ := hforeign.of_append htake hkept
      have hfront : p.TakesFront before (c :: text) := ⟨cs, rest', htext, htake.of_edgeFree hedge⟩
      rcases hp with rfl | hp
      · exact length?_eq_none_iff.1 hnone hfront
      · exact hp (occursFrom_cons_iff.2 (.inl hfront))
    · exact ih (hp.imp_right fun hp hrest => hp (occursFrom_cons_iff.2 (.inr hrest))) hoccurs
  | take hcs hlength hrest ih =>
    intro hoccurs
    exact ih (hp.imp_right fun hp hrest => hp hrest.append_left) (hforeign.occursFrom hoccurs)

/-- Replacing one pattern after the other leaves none of those replaced, and none that was not there
before. -/
theorem not_occursIn_foldl {steps : List (Pattern × String)}
    (hleast : ∀ step ∈ steps, 0 < step.1.least) (hforeign : ∀ step ∈ steps, p.Foreign step.2.toList)
    (hedge : p.edgeFree = true) (hp : (∃ step ∈ steps, p = step.1) ∨ ¬p.OccursIn text) :
    ¬p.OccursIn (steps.foldl (fun cs step => step.1.replaceAll step.2.toList cs) text) := by
  induction steps generalizing text with
  | nil =>
    rcases hp with ⟨_, hstep, -⟩ | hp
    · cases hstep
    · exact hp
  | cons step steps ih =>
    rw [List.forall_mem_cons] at hleast hforeign
    have hreplaced := replaceAll_replaced hleast.1 step.2.toList text
    apply ih hleast.2 hforeign.2
    rcases hp with ⟨other, hother, rfl⟩ | hp
    · rcases List.mem_cons.1 hother with rfl | hother
      · exact .inr (hreplaced.not_occursFrom hedge hforeign.1 (.inl rfl))
      · exact .inl ⟨other, hother, rfl⟩
    · exact .inr (hreplaced.not_occursFrom hedge hforeign.1 (.inr hp))

/-- A pattern that takes from one word character to another, with none before and behind. -/
structure Framed (p : Pattern) : Prop where
  before : ∀ {before cs rest}, p.Takes before cs rest → ¬Wordy before
  first : ∀ {before cs rest}, p.Takes before cs rest → Wordy cs.head?
  last : ∀ {before cs rest}, p.Takes before cs rest → Wordy (lastOr none cs)
  after : ∀ {before cs rest}, p.Takes before cs rest → ¬Wordy rest.head?

theorem takes_edges_iff : (all [edge, p, edge]).Takes before cs rest ↔
    Spot.atEdge { before, rest := cs ++ rest } = true ∧ p.Takes before cs rest ∧
      Spot.atEdge { before := lastOr before cs, rest } = true := by
  constructor
  · rintro ⟨_, _, rfl, ⟨rfl, hbefore⟩, _, _, rfl, hp, _, _, rfl, ⟨rfl, hafter⟩, rfl⟩
    simp only [List.nil_append, List.append_nil, lastOr_nil] at hbefore hp hafter ⊢
    exact ⟨hbefore, hp, hafter⟩
  · rintro ⟨hbefore, hp, hafter⟩
    exact ⟨[], cs, rfl, ⟨rfl, hbefore⟩, cs, [], (List.append_nil cs).symm, hp, [], [], rfl,
      ⟨rfl, hafter⟩, rfl⟩

theorem framed_of_edges (hfirst : p.Begins isWordChar) (hlast : p.Ends isWordChar) :
    (all [edge, p, edge]).Framed := by
  constructor
  · intro before cs rest h hwordy
    obtain ⟨hedge, hp, -⟩ := takes_edges_iff.1 h
    obtain ⟨c, xs, rfl, hc⟩ := hp.begins hfirst
    simp [Spot.atEdge, show before.any isWordChar = true from hwordy, hc] at hedge
  · intro before cs rest h
    obtain ⟨c, xs, rfl, hc⟩ := (takes_edges_iff.1 h).2.1.begins hfirst
    exact hc
  · intro before cs rest h
    obtain ⟨xs, c, rfl, hc⟩ := (takes_edges_iff.1 h).2.1.ends hlast
    rw [lastOr_append]
    exact hc
  · intro before cs rest h hwordy
    obtain ⟨-, hp, hedge⟩ := takes_edges_iff.1 h
    obtain ⟨xs, c, rfl, hc⟩ := hp.ends hlast
    simp [Spot.atEdge, show rest.head?.any isWordChar = true from hwordy, hc] at hedge

/-- A pattern between edges does not occur where it has been replaced. -/
theorem Replaced.not_occursFrom_self (h : Replaced p replacement before text out)
    (hframed : p.Framed) (hforeign : p.Foreign replacement)
    (hother : (Wordy other ↔ Wordy before) ∨ ¬Wordy text.head?) :
    ¬p.OccursFrom other out := by
  induction h generalizing other with
  | nil => exact hforeign.not_takes_nil
  | @keep before c text out hnone hrest ih =>
    rw [occursFrom_cons_iff]
    rintro (⟨cs, rest, hout, htake⟩ | hoccurs)
    · have hkept := Replaced.keep hnone hrest
      rw [hout] at hkept
      obtain ⟨rest', htext, hreplaced⟩ := hforeign.of_append htake hkept
      have hfirst := hframed.first htake
      have hhead : (c :: text).head? = cs.head? := by
        cases cs with
        | nil => cases hfirst
        | cons d cs => rw [htext, List.cons_append, List.head?_cons, List.head?_cons]
      -- a match that is replaced right behind this one would have a word character before it
      have hafter : ¬Wordy rest'.head? := by
        cases hreplaced with
        | nil => exact fun h => Bool.false_ne_true h
        | keep _ _ =>
          have hafter := hframed.after htake
          rwa [List.head?_cons] at hafter ⊢
        | take _ hlength _ =>
          have hne : cs ≠ [] := by
            rintro rfl
            cases hfirst
          have hlast := hframed.last htake
          rw [lastOr_congr hne] at hlast
          exact absurd hlast (hframed.before (takes_of_length?_append hlength))
      have hsame : Wordy other ↔ Wordy before := by
        rcases hother with hother | hother
        · exact hother
        · rw [hhead] at hother
          exact absurd hfirst hother
      exact length?_eq_none_iff.1 hnone ⟨cs, rest', htext,
        htake.congr hsame.symm (iff_of_false hafter (hframed.after htake))⟩
    · exact ih (.inl Iff.rfl) hoccurs
  | take hcs hlength hrest ih =>
    intro hoccurs
    exact ih (.inr (hframed.after (takes_of_length?_append hlength))) (hforeign.occursFrom hoccurs)

/-! ## Padding -/

theorem not_wordy_append {pad : List Char} (hpad : ∀ c ∈ pad, isWordChar c = false)
    (text : List Char) :
    Wordy (text ++ pad).head? ↔ Wordy text.head? := by
  cases text with
  | cons c text => exact Iff.rfl
  | nil =>
    cases pad with
    | nil => exact Iff.rfl
    | cons c pad =>
      refine iff_of_false (fun h => ?_) fun h => Bool.false_ne_true h
      rw [Wordy, List.nil_append, List.head?_cons, Option.any_some,
        hpad c (List.mem_cons_self ..)] at h
      cases h

theorem not_wordy_lastOr {pad : List Char} (hpad : ∀ c ∈ pad, isWordChar c = false)
    (text : List Char) :
    Wordy (lastOr none (pad ++ text)) ↔ Wordy (lastOr none text) := by
  cases text with
  | cons c text => rw [lastOr_append, lastOr_cons, lastOr_cons]
  | nil =>
    rcases pad.eq_nil_or_concat' with rfl | ⟨front, c, rfl⟩
    · exact Iff.rfl
    · refine iff_of_false (fun h => ?_) fun h => Bool.false_ne_true h
      rw [List.append_nil, lastOr_append, lastOr_cons, lastOr_nil, Wordy, Option.any_some,
        hpad c (by simp)] at h
      cases h

/-- Around a text there may be characters that no match begins or ends with and that make no
difference to edges. -/
theorem occursIn_pad_iff {left right : List Char} (hleft : ∀ c ∈ left, isWordChar c = false)
    (hright : ∀ c ∈ right, isWordChar c = false)
    (hfirst : ∀ {before cs rest}, p.Takes before cs rest → ∃ c xs, cs = c :: xs ∧ c ∉ left)
    (hlast : ∀ {before cs rest}, p.Takes before cs rest → ∃ xs c, cs = xs ++ [c] ∧ c ∉ right) :
    p.OccursIn (left ++ text ++ right) ↔ p.OccursIn text := by
  constructor
  · rintro ⟨pre, post, htext, cs, rest, rfl, htake⟩
    obtain ⟨inside, rfl, hinside⟩ : ∃ inside, pre = left ++ inside ∧ text ++ right = inside ++
        (cs ++ rest) := by
      rw [List.append_assoc] at htext
      rcases List.append_eq_append_iff.1 htext with ⟨inside, rfl, hinside⟩ | ⟨inside, rfl, hinside⟩
      · exact ⟨inside, rfl, hinside⟩
      · obtain ⟨c, xs, rfl, hc⟩ := hfirst htake
        cases inside with
        | nil => exact ⟨[], by simp, hinside.symm⟩
        | cons d inside =>
          obtain ⟨rfl, -⟩ := List.cons.inj hinside
          exact absurd (by simp) hc
    obtain ⟨behind, rfl, rfl⟩ : ∃ behind, text = inside ++ cs ++ behind ∧
        rest = behind ++ right := by
      rw [← List.append_assoc] at hinside
      rcases List.append_eq_append_iff.1 hinside with ⟨tail, htail, rfl⟩ | ⟨behind, rfl, hbehind⟩
      · rcases tail.eq_nil_or_concat' with rfl | ⟨front, d, rfl⟩
        · exact ⟨[], by simpa using htail.symm, by simp⟩
        · obtain ⟨xs, c, rfl, hc⟩ := hlast htake
          rw [← List.append_assoc, ← List.append_assoc] at htail
          obtain ⟨-, hdc⟩ := List.append_inj' htail rfl
          obtain rfl := List.head_eq_of_cons_eq hdc
          exact absurd (by simp) hc
      · exact ⟨behind, rfl, hbehind⟩
    refine ⟨inside, cs ++ behind, by rw [List.append_assoc], cs, behind, rfl, htake.congr ?_ ?_⟩
    · exact (not_wordy_lastOr hleft inside).symm
    · exact (not_wordy_append hright behind).symm
  · rintro ⟨pre, post, rfl, cs, rest, rfl, htake⟩
    refine ⟨left ++ pre, cs ++ (rest ++ right), by simp only [List.append_assoc], cs, rest ++ right,
      rfl, htake.congr ?_ ?_⟩
    · exact not_wordy_lastOr hleft pre
    · exact not_wordy_append hright rest

end IndexAdvisor.Pattern
