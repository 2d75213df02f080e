import IndexAdvisor.Proofs.Text.Occurrence
import IndexAdvisor.Text.Blank

/-!
# Rows of blanks

Replacing every row of blanks by one space is `squeeze`. A text that is squeezed in parts is
squeezed as a whole, as long as no row of blanks is cut (`squeeze_append_of_head`), and each part of
a squeezed text comes from a part of the text (`exists_of_squeeze_append`). So a pattern occurs in
the squeezed text just where another one occurs in the text, if what the one takes is what the other
takes, squeezed (`occursIn_squeeze_iff`).
-/

namespace IndexAdvisor

open Pattern

variable {cs xs ys bs text w : List Char} {c : Char}

/-! ## Blanks -/

/-- The blanks by number. -/
def blankNumbers : List Nat := [0x09, 0x0A, 0x0B, 0x0C, 0x0D, 0x20, 0x85, 0xA0, 0x1680, 0x2000,
    0x2001, 0x2002, 0x2003,
  0x2004, 0x2005, 0x2006, 0x2007, 0x2008, 0x2009, 0x200A, 0x2028, 0x2029, 0x202F, 0x205F, 0x3000]

theorem mem_blankNumbers (h : isBlank c = true) : c.toNat ∈ blankNumbers := by
  simp only [isBlank, Bool.or_eq_true, Bool.and_eq_true, decide_eq_true_eq, beq_iff_eq] at h
  simp only [blankNumbers, List.mem_cons, List.not_mem_nil, or_false]
  omega

/-- What holds of the blanks by number holds of every blank. -/
theorem forall_isBlank {P : Char → Prop} (h : ∀ n ∈ blankNumbers, P (Char.ofNat n))
    (hc : isBlank c = true) : P c := by
  have hp := h c.toNat (mem_blankNumbers hc)
  rwa [Char.ofNat_toNat] at hp

/-- A blank is no word character. -/
theorem not_word_of_isBlank (hc : isBlank c = true) : isWordChar c = false :=
  forall_isBlank (P := (isWordChar · = false)) (by decide +kernel) hc

/-- A text without blanks. -/
def Solid (cs : List Char) : Prop := ∀ c ∈ cs, isBlank c = false

instance (cs : List Char) : Decidable (Solid cs) := List.decidableBAll (isBlank · = false) cs

/-- A text of blanks. -/
def Blank (cs : List Char) : Prop := ∀ c ∈ cs, isBlank c = true

/-- A text that does not consist of blanks has a first character that is none. -/
theorem not_blank_iff : ¬Blank cs ↔ ∃ bs c rest, cs = bs ++ c :: rest ∧ Blank bs ∧
    isBlank c = false := by
  constructor
  · intro hcs
    induction cs with
    | nil => exact absurd (fun c hc => absurd hc List.not_mem_nil) hcs
    | cons d cs ih =>
      rcases hd : isBlank d with _ | _
      · exact ⟨[], d, cs, rfl, fun c hc => absurd hc List.not_mem_nil, hd⟩
      · obtain ⟨bs, c, rest, rfl, hbs, hc⟩ := ih fun h => hcs (List.forall_mem_cons.2 ⟨hd, h⟩)
        exact ⟨d :: bs, c, rest, rfl, List.forall_mem_cons.2 ⟨hd, hbs⟩, hc⟩
  · rintro ⟨bs, c, rest, rfl, -, hc⟩ hblank
    rw [hblank c (by simp)] at hc
    cases hc

/-- Whether a text begins with a blank. -/
def StartsBlank (cs : List Char) : Prop := cs.head?.any isBlank = true

instance (cs : List Char) : Decidable (StartsBlank cs) := inferInstanceAs (Decidable (_ = true))

/-! ## Squeezing -/

/-- A text with one space for every row of blanks: the last blank of a row makes the space. -/
def squeeze : List Char → List Char
  | [] => []
  | c :: cs =>
    if isBlank c then
      if StartsBlank cs then squeeze cs else ' ' :: squeeze cs
    else c :: squeeze cs

theorem squeeze_cons_of_not_blank (hc : isBlank c = false) (cs : List Char) :
    squeeze (c :: cs) = c :: squeeze cs := by
  rw [squeeze, hc, if_neg Bool.false_ne_true]

theorem squeeze_of_solid (h : Solid cs) : squeeze cs = cs := by
  induction cs with
  | nil => rfl
  | cons c cs ih =>
    obtain ⟨hc, hcs⟩ := List.forall_mem_cons.1 h
    rw [squeeze_cons_of_not_blank hc, ih hcs]

theorem squeeze_of_blank (h : Blank bs) (hne : bs ≠ []) : squeeze bs = [' '] := by
  induction bs with
  | nil => exact absurd rfl hne
  | cons b bs ih =>
    obtain ⟨hb, hbs⟩ := List.forall_mem_cons.1 h
    rw [squeeze, if_pos hb]
    cases bs with
    | nil => rfl
    | cons d bs =>
      have hstarts : StartsBlank (d :: bs) := hbs d (List.mem_cons_self ..)
      rw [if_pos hstarts, ih hbs (List.cons_ne_nil d bs)]

/-- The squeezed text begins with a blank if the text does. -/
theorem startsBlank_squeeze_iff : StartsBlank (squeeze cs) ↔ StartsBlank cs := by
  induction cs with
  | nil => exact Iff.rfl
  | cons c cs ih =>
    rw [squeeze]
    split
    · next hc =>
      have hstarts : StartsBlank (c :: cs) := hc
      split
      · next hcs => exact iff_of_true (ih.2 hcs) hstarts
      · exact iff_of_true rfl hstarts
    · exact Iff.rfl

/-- Squeezing goes part by part where no row of blanks is cut. -/
theorem squeeze_append_of_head (hys : ¬StartsBlank ys) (xs : List Char) :
    squeeze (xs ++ ys) = squeeze xs ++ squeeze ys := by
  induction xs with
  | nil => rfl
  | cons c xs ih =>
    have hstarts : StartsBlank (xs ++ ys) ↔ StartsBlank xs := by
      cases xs with
      | nil => exact iff_of_false hys Bool.false_ne_true
      | cons d xs => exact Iff.rfl
    rw [List.cons_append, squeeze, squeeze, ih]
    simp only [hstarts]
    split
    · split
      · rfl
      · rfl
    · rfl

theorem squeeze_append_of_last (hc : isBlank c = false) (xs ys : List Char) :
    squeeze (xs ++ [c] ++ ys) = squeeze (xs ++ [c]) ++ squeeze ys := by
  have hhead (zs : List Char) : ¬StartsBlank (c :: zs) := by
    rw [StartsBlank, List.head?_cons, Option.any_some, hc]
    exact Bool.false_ne_true
  rw [List.append_assoc, List.singleton_append, squeeze_append_of_head (hhead ys),
    squeeze_append_of_head (hhead []), squeeze_cons_of_not_blank hc, squeeze_cons_of_not_blank hc,
    List.append_assoc]
  rfl

/-- A part of a squeezed text comes from a part of the text. -/
theorem exists_of_squeeze_append (h : squeeze text = xs ++ ys) :
    ∃ us vs, text = us ++ vs ∧ squeeze us = xs ∧ squeeze vs = ys := by
  induction text generalizing xs with
  | nil =>
    obtain ⟨rfl, rfl⟩ := List.append_eq_nil_iff.1 h.symm
    exact ⟨[], [], rfl, rfl, rfl⟩
  | cons c text ih =>
    cases xs with
    | nil => exact ⟨[], c :: text, rfl, rfl, h⟩
    | cons x xs =>
      rw [squeeze] at h
      split at h
      · next hc =>
        split at h
        · next hstarts =>
          obtain ⟨us, vs, rfl, hus, hvs⟩ := ih h
          refine ⟨c :: us, vs, rfl, ?_, hvs⟩
          cases us with
          | nil => cases hus
          | cons d us =>
            have hus' : StartsBlank (d :: us) := hstarts
            rw [squeeze, if_pos hc, if_pos hus', hus]
        · next hstarts =>
          obtain ⟨rfl, htext⟩ := List.cons.inj h
          obtain ⟨us, vs, rfl, rfl, hvs⟩ := ih htext
          refine ⟨c :: us, vs, rfl, ?_, hvs⟩
          have hus : ¬StartsBlank us := by
            cases us with
            | nil => exact Bool.false_ne_true
            | cons d us => exact hstarts
          rw [squeeze, if_pos hc, if_neg hus]
      · next hc =>
        obtain ⟨rfl, htext⟩ := List.cons.inj h
        obtain ⟨us, vs, rfl, rfl, hvs⟩ := ih htext
        exact ⟨c :: us, vs, rfl, squeeze_cons_of_not_blank (Bool.not_eq_true _ ▸ hc) us, hvs⟩

/-- A squeezed text has no blanks only if the text has none. -/
theorem solid_of_squeeze (h : Solid (squeeze cs)) : Solid cs := by
  induction cs with
  | nil => exact fun c hc => absurd hc List.not_mem_nil
  | cons c cs ih =>
    rw [squeeze] at h
    split at h
    · next hc =>
      split at h
      · next hstarts =>
        -- the row of blanks goes on, so it makes its space later
        cases cs with
        | nil => cases hstarts
        | cons d cs =>
          have hd : isBlank d = false := ih h d (List.mem_cons_self ..)
          have hd' : isBlank d = true := hstarts
          rw [hd] at hd'
          cases hd'
      · cases h ' ' (List.mem_cons_self ..)
    · next hc =>
      obtain ⟨-, hcs⟩ := List.forall_mem_cons.1 h
      exact List.forall_mem_cons.2 ⟨Bool.not_eq_true _ ▸ hc, ih hcs⟩

theorem squeeze_eq_iff_of_solid (hw : Solid w) : squeeze cs = w ↔ cs = w := by
  constructor
  · rintro rfl
    exact (squeeze_of_solid (solid_of_squeeze hw)).symm
  · rintro rfl
    exact squeeze_of_solid hw

/-- A squeezed text consists of blanks only if the text does. -/
theorem blank_squeeze_iff : Blank (squeeze cs) ↔ Blank cs := by
  induction cs with
  | nil => exact Iff.rfl
  | cons c cs ih =>
    rw [squeeze]
    split
    · next hc =>
      have hcons : Blank (c :: cs) ↔ Blank cs := by simp [Blank, hc]
      split
      · rw [ih, hcons]
      · rw [hcons, ← ih, Blank, List.forall_mem_cons]
        exact and_iff_right rfl
    · rw [Blank, List.forall_mem_cons, Blank, List.forall_mem_cons]
      exact and_congr_right fun _ => ih

/-! ## Squeezing as a replacement -/

theorem squeeze_blank_append (hbs : Blank bs) (hne : bs ≠ []) (hcs : ¬StartsBlank cs) :
    squeeze (bs ++ cs) = ' ' :: squeeze cs := by
  rw [squeeze_append_of_head hcs, squeeze_of_blank hbs hne, List.singleton_append]

theorem squeeze_of_replaced {before : Option Char} {out : List Char}
    (h : Replaced (oneOrMore isBlank) [' '] before text out) : out = squeeze text := by
  induction h with
  | nil => rfl
  | @keep before c text out hnone hrest ih =>
    have hc : isBlank c = false := by
      rw [length?_oneOrMore] at hnone
      rcases hblank : isBlank c with _ | _
      · rfl
      · simp [hblank] at hnone
    rw [squeeze_cons_of_not_blank hc, ih]
  | @take before bs rest out hne hlength hrest ih =>
    have hblank : Blank bs := (takes_of_length?_append hlength).1
    -- the row is as long as it can be
    have hcut : ¬StartsBlank rest := by
      rw [length?_oneOrMore, List.takeWhile_append_of_pos hblank] at hlength
      cases rest with
      | nil => exact Bool.false_ne_true
      | cons c rest =>
        intro hc
        have hc : isBlank c = true := hc
        simp [hc] at hlength
    rw [squeeze_blank_append hblank hne hcut, ih, List.singleton_append]

/-- Replacing rows of blanks by spaces squeezes the text. -/
theorem replaceAll_blanks (text : List Char) :
    (oneOrMore isBlank).replaceAll [' '] text = squeeze text := by
  have hleast : 0 < (oneOrMore isBlank).least := Nat.one_pos
  exact squeeze_of_replaced (replaceAll_replaced hleast [' '] text)

/-! ## What occurs in a squeezed text -/

theorem wordy_head?_squeeze (cs : List Char) : Wordy (squeeze cs).head? ↔ Wordy cs.head? := by
  induction cs with
  | nil => exact Iff.rfl
  | cons c cs ih =>
    rw [squeeze]
    split
    · next hc =>
      have hno : ¬Wordy (c :: cs).head? := by
        rw [Wordy, List.head?_cons, Option.any_some, not_word_of_isBlank hc]
        exact Bool.false_ne_true
      refine iff_of_false ?_ hno
      split
      · next hstarts =>
        cases cs with
        | nil => cases hstarts
        | cons d cs =>
          have hd : isBlank d = true := hstarts
          rw [ih, Wordy, List.head?_cons, Option.any_some, not_word_of_isBlank hd]
          exact Bool.false_ne_true
      · exact Bool.false_ne_true
    · exact Iff.rfl

theorem wordy_lastOr_squeeze (before : Option Char) (cs : List Char) :
    Wordy (lastOr before (squeeze cs)) ↔ Wordy (lastOr before cs) := by
  induction cs generalizing before with
  | nil => exact Iff.rfl
  | cons c cs ih =>
    rw [squeeze, lastOr_cons]
    split
    · next hc =>
      split
      · next hstarts =>
        have hne : cs ≠ [] := by
          rintro rfl
          cases hstarts
        rw [ih, lastOr_congr hne]
      · rw [lastOr_cons, ih]
        cases cs with
        | nil =>
          rw [lastOr_nil, lastOr_nil, Wordy, Wordy, Option.any_some, Option.any_some,
            not_word_of_isBlank hc]
          exact iff_of_false Bool.false_ne_true Bool.false_ne_true
        | cons d cs => exact Iff.rfl
    · rw [lastOr_cons, ih]

/-- Two patterns of which the one takes, squeezed, what the other takes. -/
theorem occursIn_squeeze_iff {p q : Pattern}
    (hfirst : ∀ {before cs rest}, q.Takes before cs rest → ∃ c xs, cs = c :: xs ∧ isBlank c = false)
    (hlast : ∀ {before cs rest}, q.Takes before cs rest → ∃ xs c,
      cs = xs ++ [c] ∧ isBlank c = false)
    (hpq : ∀ {before cs rest}, p.Takes before (squeeze cs) rest ↔ q.Takes before cs rest) :
    p.OccursIn (squeeze text) ↔ q.OccursIn text := by
  constructor
  · rintro ⟨_, _, htext, _, _, rfl, htake⟩
    obtain ⟨us, vs, rfl, rfl, hvs⟩ := exists_of_squeeze_append htext
    obtain ⟨cs, rest, rfl, rfl, rfl⟩ := exists_of_squeeze_append hvs
    exact ⟨us, cs ++ rest, rfl, cs, rest, rfl,
      (hpq.1 htake).congr (wordy_lastOr_squeeze none us).symm (wordy_head?_squeeze rest).symm⟩
  · rintro ⟨pre, _, rfl, cs, rest, rfl, htake⟩
    obtain ⟨c, xs, hcs, hc⟩ := hfirst htake
    obtain ⟨ys, d, hcs', hd⟩ := hlast htake
    have hstarts : ¬StartsBlank (cs ++ rest) := by
      rw [hcs, StartsBlank, List.cons_append, List.head?_cons, Option.any_some, hc]
      exact Bool.false_ne_true
    have hparts : squeeze (cs ++ rest) = squeeze cs ++ squeeze rest := by
      rw [hcs', squeeze_append_of_last hd]
    refine ⟨squeeze pre, squeeze cs ++ squeeze rest, ?_, squeeze cs, squeeze rest, rfl, ?_⟩
    · rw [squeeze_append_of_head hstarts, hparts]
    · exact (hpq.2 htake).congr (wordy_lastOr_squeeze none pre) (wordy_head?_squeeze rest)

theorem takes_squeeze_iff_of_solid {p : Pattern}
    (hp : ∀ {before cs rest}, p.Takes before cs rest → Solid cs) {before : Option Char}
    {rest : List Char} :
    p.Takes before (squeeze cs) rest ↔ p.Takes before cs rest := by
  constructor
  · intro htake
    rwa [squeeze_of_solid (solid_of_squeeze (hp htake))] at htake
  · intro htake
    rwa [squeeze_of_solid (hp htake)]

/-! ## Squeezed words -/

theorem squeeze_eq_word_append_iff (hw : Solid w) (hne : w ≠ []) :
    squeeze cs = w ++ ys ↔ ∃ vs, cs = w ++ vs ∧ squeeze vs = ys := by
  constructor
  · intro h
    obtain ⟨us, vs, rfl, hus, hvs⟩ := exists_of_squeeze_append h
    obtain rfl := (squeeze_eq_iff_of_solid hw).1 hus
    exact ⟨vs, rfl, hvs⟩
  · rintro ⟨vs, rfl, rfl⟩
    rcases w.eq_nil_or_concat' with rfl | ⟨xs, c, rfl⟩
    · exact absurd rfl hne
    · rw [squeeze_append_of_last (hw c (by simp)), squeeze_of_solid hw]

theorem squeeze_eq_space_append_iff (hys : ¬StartsBlank ys) :
    squeeze cs = ' ' :: ys ↔ ∃ bs vs, cs = bs ++ vs ∧ (bs ≠ [] ∧ Blank bs) ∧ squeeze vs = ys := by
  constructor
  · intro h
    have hparts : squeeze cs = [' '] ++ ys := h
    obtain ⟨us, vs, rfl, hus, hvs⟩ := exists_of_squeeze_append hparts
    refine ⟨us, vs, rfl, ⟨?_, ?_⟩, hvs⟩
    · rintro rfl
      cases hus
    · have hspace : Blank (squeeze us) := by
        rw [hus]
        exact fun c hc => List.mem_singleton.1 hc ▸ rfl
      exact blank_squeeze_iff.1 hspace
  · rintro ⟨bs, vs, rfl, ⟨hne, hbs⟩, rfl⟩
    exact squeeze_blank_append hbs hne fun h => hys (startsBlank_squeeze_iff.2 h)

/-! ## Words with blanks between them -/

/-- Words with a row of blanks behind each, and then a pattern. -/
def spaced (words : List String) (last : Pattern) : Pattern :=
  words.foldr (fun w rest => seq (literal w) (seq (oneOrMore isBlank) rest)) last

/-- Words with one space behind each. -/
def singleSpaced (words : List String) : List Char := words.flatMap fun w => w.toList ++ [' ']

/-- A word is not empty and has no blanks. -/
def IsWord (w : String) : Prop := Solid w.toList ∧ w.toList ≠ []

instance (w : String) : Decidable (IsWord w) := inferInstanceAs (Decidable (_ ∧ _))

theorem takes_blanks_iff {before : Option Char} {rest : List Char} :
    (oneOrMore isBlank).Takes before bs rest ↔ bs ≠ [] ∧ Blank bs := by
  rw [← List.length_pos_iff]
  constructor
  · rintro ⟨hblank, hleast, -⟩
    exact ⟨hleast, hblank⟩
  · rintro ⟨hleast, hblank⟩
    exact ⟨hblank, hleast, fun m hm => by cases hm⟩

theorem not_startsBlank_of_solid (hw : Solid w) (hne : w ≠ []) (ys : List Char) :
    ¬StartsBlank (w ++ ys) := by
  cases w with
  | nil => exact absurd rfl hne
  | cons c w =>
    rw [StartsBlank, List.cons_append, List.head?_cons, Option.any_some,
      hw c (List.mem_cons_self ..)]
    exact Bool.false_ne_true

theorem singleSpaced_cons (w : String) (words : List String) (ys : List Char) :
    singleSpaced (w :: words) ++ ys = w.toList ++ ' ' :: (singleSpaced words ++ ys) := by
  simp [singleSpaced]

theorem not_startsBlank_singleSpaced {words : List String} (hwords : ∀ w ∈ words, IsWord w)
    (hys : ¬StartsBlank ys) :
    ¬StartsBlank (singleSpaced words ++ ys) := by
  cases words with
  | nil => exact hys
  | cons w words =>
    obtain ⟨hsolid, hne⟩ := hwords w (List.mem_cons_self ..)
    rw [singleSpaced_cons]
    exact not_startsBlank_of_solid hsolid hne _

/-- A pattern that reads the same in a squeezed text, and does not begin or end with a blank. -/
structure Unspaced (p : Pattern) : Prop where
  edgeFree : p.edgeFree = true
  starts : ∀ {before cs rest}, p.Takes before cs rest → ¬StartsBlank cs
  ends : p.Ends (!isBlank ·)
  squeeze : ∀ {before cs rest}, p.Takes before (squeeze cs) rest ↔ p.Takes before cs rest

/-- Squeezed, the words have single spaces behind them. -/
theorem takes_spaced_iff {words : List String} {last : Pattern} (hwords : ∀ w ∈ words, IsWord w)
    (hlast : Unspaced last) {before : Option Char} {rest : List Char} :
    (spaced words last).Takes before cs rest ↔
      ∃ ys, squeeze cs = singleSpaced words ++ ys ∧ last.Takes before ys rest := by
  induction words generalizing before cs with
  | nil =>
    constructor
    · intro htake
      exact ⟨squeeze cs, rfl, hlast.squeeze.2 htake⟩
    · rintro ⟨ys, hys, htake⟩
      obtain rfl : squeeze cs = ys := hys
      exact hlast.squeeze.1 htake
  | cons w words ih =>
    obtain ⟨⟨hsolid, hne⟩, hwords⟩ := List.forall_mem_cons.1 hwords
    constructor
    · intro htake
      obtain ⟨_, rfl, bs, vs, rfl, hbs, hvs⟩ := takes_literal_seq_iff.1 htake
      obtain ⟨ys, hys, htake⟩ := (ih hwords).1 hvs
      refine ⟨ys, ?_, htake.of_edgeFree hlast.edgeFree⟩
      have hcut := not_startsBlank_singleSpaced hwords (hlast.starts htake)
      rw [singleSpaced_cons, squeeze_eq_word_append_iff hsolid hne]
      exact ⟨bs ++ vs, rfl, (squeeze_eq_space_append_iff hcut).2 ⟨bs, vs, rfl,
        takes_blanks_iff.1 hbs, hys⟩⟩
    · rintro ⟨ys, hys, htake⟩
      have hcut := not_startsBlank_singleSpaced hwords (hlast.starts htake)
      rw [singleSpaced_cons, squeeze_eq_word_append_iff hsolid hne] at hys
      obtain ⟨_, rfl, hys⟩ := hys
      obtain ⟨bs, vs, rfl, hbs, hvs⟩ := (squeeze_eq_space_append_iff hcut).1 hys
      refine takes_literal_seq_iff.2 ⟨bs ++ vs, rfl, bs, vs, rfl, takes_blanks_iff.2 hbs, ?_⟩
      exact (ih hwords).2 ⟨ys, hvs, htake.of_edgeFree hlast.edgeFree⟩

theorem ends_spaced {set : Char → Bool} {last : Pattern} (hlast : last.Ends set)
    (words : List String) :
    (spaced words last).Ends set := by
  induction words with
  | nil => exact hlast
  | cons w words ih => exact .inl (.inl ih)

/-- A phrase occurs in a squeezed text where its words occur in the text with any blanks between
them. -/
theorem occursIn_spaced_iff {words : List String} {last : Pattern} (phrase : String)
    (hphrase : phrase.toList = singleSpaced words) (hwords : ∀ w ∈ words, IsWord w)
    (hlast : Unspaced last) :
    (seq (literal phrase) last).OccursIn (squeeze text) ↔ (spaced words last).OccursIn text := by
  apply occursIn_squeeze_iff
  · intro before cs rest htake
    obtain ⟨ys, hys, hlastTake⟩ := (takes_spaced_iff hwords hlast).1 htake
    have hcut := not_startsBlank_singleSpaced hwords (hlast.starts hlastTake)
    rw [← hys, startsBlank_squeeze_iff] at hcut
    obtain ⟨xs, c, rfl, -⟩ := htake.ends (ends_spaced hlast.ends words)
    have hne : xs ++ [c] ≠ [] := List.append_ne_nil_of_right_ne_nil xs (List.cons_ne_nil c [])
    obtain ⟨d, ds, hcs⟩ := List.exists_cons_of_ne_nil hne
    rw [hcs] at hcut
    exact ⟨d, ds, hcs, Bool.not_eq_true _ ▸ hcut⟩
  · intro before cs rest htake
    obtain ⟨xs, c, rfl, hc⟩ := htake.ends (ends_spaced hlast.ends words)
    exact ⟨xs, c, rfl, by simpa using hc⟩
  · intro before cs rest
    rw [takes_spaced_iff hwords hlast, takes_literal_seq_iff, hphrase]
    constructor
    · rintro ⟨ys, hys, htake⟩
      exact ⟨ys, hys, htake.of_edgeFree hlast.edgeFree⟩
    · rintro ⟨ys, hys, htake⟩
      exact ⟨ys, hys, htake.of_edgeFree hlast.edgeFree⟩

/-! ## Trimming -/

theorem exists_dropBlanksEnd (cs : List Char) :
    ∃ right, Blank right ∧ cs = dropBlanksEnd cs ++ right := by
  refine ⟨(cs.reverse.takeWhile isBlank).reverse, fun c hc => ?_, ?_⟩
  · exact List.all_eq_true.1 List.all_takeWhile c (List.mem_reverse.1 hc)
  · rw [dropBlanksEnd, dropBlanks, ← List.reverse_append, List.takeWhile_append_dropWhile,
      List.reverse_reverse]

/-- What is trimmed stands between blanks. -/
theorem exists_trimBlanks (cs : List Char) :
    ∃ left right, Blank left ∧ Blank right ∧ cs = left ++ trimBlanks cs ++ right := by
  obtain ⟨right, hright, hcs⟩ := exists_dropBlanksEnd (dropBlanks cs)
  refine ⟨cs.takeWhile isBlank, right, fun c hc => ?_, hright, ?_⟩
  · exact List.all_eq_true.1 List.all_takeWhile c hc
  · rw [trimBlanks, List.append_assoc, ← hcs, dropBlanks, List.takeWhile_append_dropWhile]

/-- A trimmed text does not end with a blank. -/
theorem not_blank_of_trimBlanks (h : trimBlanks cs = xs ++ [c]) : isBlank c = false := by
  have hreverse := congrArg List.reverse h
  rw [trimBlanks, dropBlanksEnd, List.reverse_reverse, List.reverse_append,
    List.reverse_singleton] at hreverse
  have hhead := List.head?_dropWhile_not isBlank (dropBlanks cs).reverse
  rw [dropBlanks] at hreverse
  rw [hreverse] at hhead
  simpa using hhead

end IndexAdvisor
