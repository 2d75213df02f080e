import IndexAdvisor.Proofs.Text.Occurrence
import IndexAdvisor.Redaction

/-!
# Paths and addresses

The first five steps leave no path and no address (`not_occursIn_covered`). Each kind is gone after
the step that replaces it, and the later ones do not bring it back: what stands for a part taken out
begins and ends with a bracket, which no path and no address has, and within the brackets there is
neither a slash nor a colon nor a point.

An address with a service number is an address with something behind it, so the step for these is
not needed for this; it decides how much is taken out.
-/

namespace IndexAdvisor.Redaction

open Pattern

variable {before : Option Char} {cs rest : List Char}

/-- The steps that cover paths and addresses. -/
def placeSteps : List (Pattern × String) := (steps.drop 1).take 4

/-- A text after the first five steps: paths and addresses have been covered. -/
def covered (text : List Char) : List Char :=
  placeSteps.foldl (fun cs step => step.1.replaceAll step.2.toList cs)
    (driverNote.replaceAll [] text)

/-- A text after six steps: what stood on both sides of a system error has been joined. -/
def joined (text : List Char) : List Char := systemError.replaceAll [] (covered text)

/-- The patterns for paths and addresses. -/
def places : List Pattern := [rootedPath, drivePath, addressAndService, address]

/-! ## Characters -/

theorem isWordChar_of_isDecimalDigit {c : Char} (h : isDecimalDigit c = true) :
    isWordChar c = true := by
  rw [isDecimalDigit] at h
  rw [isWordChar]
  split at h
  · next hc =>
    rw [if_pos hc, Char.isAlphanum, h, Bool.or_true, Bool.true_or]
  · next hc =>
    rw [if_neg hc, h, Bool.or_true, Bool.true_or]

/-! ## What stands for a part taken out -/

theorem foreign_redacted {p : Pattern} (hfirst : p.avoids '[' = true) (hlast : p.avoids ']' = true)
    (hneeds : ∃ c, p.Needs c ∧ c ∉ redacted.toList) : p.Foreign redacted.toList where
  first := ⟨'[', by decide, hfirst⟩
  last := ⟨']', by decide, hlast⟩
  needs := hneeds

theorem foreign_rootedPath : rootedPath.Foreign redacted.toList :=
  foreign_redacted (by decide) (by decide) ⟨'/', .inl (needs_one '/'), by decide⟩

theorem foreign_drivePath : drivePath.Foreign redacted.toList :=
  foreign_redacted (by decide) (by decide) ⟨':', .inr (.inl (.inl (needs_one ':'))), by decide⟩

theorem foreign_address : address.Foreign redacted.toList :=
  foreign_redacted (by decide) (by decide) ⟨'.',
    .inr (.inl (.inr (.inl (needs_one '.')))), by decide⟩

/-! ## Addresses -/

theorem fourNumbers_begins {set : Char → Bool}
    (hset : ∀ c, isDecimalDigit c = true → set c = true) :
    fourNumbers.Begins set :=
  .inl ⟨Nat.one_pos, hset⟩

theorem fourNumbers_ends {set : Char → Bool} (hset : ∀ c, isDecimalDigit c = true → set c = true) :
    fourNumbers.Ends set :=
  ends_all (p := shortNumber) ⟨Nat.one_pos, hset⟩
    [shortNumber, one '.', shortNumber, one '.', shortNumber, one '.']

theorem framed_address : address.Framed :=
  framed_of_edges (fourNumbers_begins fun _ => isWordChar_of_isDecimalDigit)
    (fourNumbers_ends fun _ => isWordChar_of_isDecimalDigit)

/-- Where there is an address with a service number there is the address. -/
theorem takesFront_address {text : List Char} (h : addressAndService.TakesFront before text) :
    address.TakesFront before text := by
  obtain ⟨_, rest, rfl, _, _, rfl, ⟨rfl, hedge⟩, cs, more, rfl, hnumbers, hservice⟩ := h
  rw [List.append_assoc] at hedge
  rw [List.nil_append, List.append_assoc]
  have hbegins : (all [one ':', row isDecimalDigit 1 (some 5), edge]).Begins (· == ':') :=
    .inl ⟨Nat.one_pos, fun _ h => h⟩
  obtain ⟨mark, more, rfl, hmark⟩ := hservice.begins hbegins
  obtain ⟨xs, c, rfl, hc⟩ := hnumbers.ends (fourNumbers_ends fun _ => isWordChar_of_isDecimalDigit)
  -- the colon is no word character, so the last digit stands at an edge
  have hcolon : isWordChar mark = false := by
    rw [eq_of_beq hmark]
    decide
  refine ⟨xs ++ [c], mark :: more ++ rest, rfl, takes_edges_iff.2 ⟨hedge, hnumbers, ?_⟩⟩
  simp [Spot.atEdge, hc, hcolon]

/-! ## The five steps -/

theorem not_occursIn_covered_of_edgeFree {p : Pattern} (hp : ∃ step ∈ placeSteps, p = step.1)
    (hedge : p.edgeFree = true) (hforeign : p.Foreign redacted.toList) (text : List Char) :
    ¬p.OccursIn (covered text) := by
  refine not_occursIn_foldl (by decide) (fun step hstep => ?_) hedge (.inl hp)
  have hredacted : ∀ step ∈ placeSteps, step.2 = redacted := by decide
  rwa [hredacted step hstep]

/-- No path and no address is left when paths and addresses have been covered. -/
theorem not_occursIn_covered (text : List Char) : ∀ p ∈ places, ¬p.OccursIn (covered text) := by
  have haddress : ¬address.OccursIn (covered text) :=
    (replaceAll_replaced (by decide) _ _).not_occursFrom_self framed_address
      foreign_address (.inl Iff.rfl)
  have hservice : ¬addressAndService.OccursIn (covered text) := by
    rintro ⟨pre, post, hpre, hfront⟩
    exact haddress ⟨pre, post, hpre, takesFront_address hfront⟩
  have hrooted :=
    not_occursIn_covered_of_edgeFree ⟨_, List.mem_cons_self .., rfl⟩ rfl foreign_rootedPath text
  have hdrive :=
    not_occursIn_covered_of_edgeFree ⟨_, List.mem_cons_of_mem _ (List.mem_cons_self ..),
      rfl⟩ rfl foreign_drivePath text
  simpa only [places, List.forall_mem_cons, List.not_mem_nil, false_implies,
    implies_true, and_true] using
    ⟨hrooted, hdrive, hservice, haddress⟩

end IndexAdvisor.Redaction
