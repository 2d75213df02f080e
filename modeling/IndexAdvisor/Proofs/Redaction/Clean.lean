import IndexAdvisor.Proofs.Redaction.Places
import IndexAdvisor.Proofs.Text.Blank

/-!
# Whether a redacted text is clean

A text is clean if nothing occurs in it that was to be taken out. The steps run once, so this
depends on what the last of them bring together: the sixth step deletes system errors, which joins
what stood on both sides, and the ones after it make one space of a row of blanks. The rest,
trimming and dropping a mark, brings nothing together.

So a redacted text is clean exactly if the text after the sixth step has no path, no address, no
system error however its parts are set apart by blanks, and no note of the driver set apart in any
way and followed by something (`redact_clean_iff`).
-/

namespace IndexAdvisor.Redaction

open Pattern

variable {p : Pattern} {before : Option Char} {cs rest : List Char} {c : Char}

/-- What must not be shown. -/
def secrets : List Pattern := [driverNote, rootedPath, drivePath, addressAndService,
    address, systemError]

/-- Whether nothing occurs in a text that must not be shown. -/
def Clean (text : String) : Prop := ∀ p ∈ secrets, ¬p.OccursIn text.toList

/-- The number of a system error behind its words. -/
def errorNumber : Pattern := all [oneOrMore isDecimalDigit, literal ")"]

/-- The number of a system error, with any blanks between its words. -/
def spacedSystemError : Pattern := spaced ["(os", "error"] errorNumber

/-- The last word of the driver's note, and something behind it. -/
def noteEnd : Pattern := all [literal "database:", anyNumber isBlank, row (!isBlank ·) 1 (some 1)]

/-- The driver's note with any blanks between its words, and something behind it. -/
def spacedDriverNote : Pattern := spaced ["error", "returned", "from"] noteEnd

/-! ## Places in a squeezed text -/

/-- A mark that is dropped at the end. -/
def isMark (c : Char) : Bool := c == ':' || c == ','

section
variable (hc : isBlank c = true)
include hc

theorem ne_of_isBlank {d : Char} (hd : isBlank d = false) : (c == d) = false := by
  rw [beq_eq_false_iff_ne]
  rintro rfl
  rw [hc] at hd
  cases hd

theorem not_alpha_of_isBlank : c.isAlpha = false :=
  forall_isBlank (P := (Char.isAlpha · = false)) (by decide) hc

theorem not_digit_of_isBlank : isDecimalDigit c = false := by
  rcases hd : isDecimalDigit c with _ | _
  · rfl
  · have hword := isWordChar_of_isDecimalDigit hd
    rw [not_word_of_isBlank hc] at hword
    cases hword

theorem not_pathChar_of_isBlank : isPathChar c = false := by
  rw [isPathChar, not_word_of_isBlank hc, ne_of_isBlank hc rfl, ne_of_isBlank hc rfl,
    ne_of_isBlank hc rfl]
  rfl

theorem not_drivePathChar_of_isBlank : isDrivePathChar c = false := by
  rw [isDrivePathChar, not_pathChar_of_isBlank hc, ne_of_isBlank hc rfl]
  rfl

/-- No place has blanks. -/
theorem avoids_of_isBlank (hp : p ∈ places) : p.avoids c = true := by
  have hslash : (c == '/') = false := ne_of_isBlank hc rfl
  have hpoint : (c == '.') = false := ne_of_isBlank hc rfl
  have hcolon : (c == ':') = false := ne_of_isBlank hc rfl
  have hback : (c == '\\') = false := ne_of_isBlank hc rfl
  have hdigit := not_digit_of_isBlank hc
  simp only [places, List.mem_cons, List.not_mem_nil, or_false] at hp
  rcases hp with rfl | rfl | rfl | rfl
  · simp [rootedPath, all, one, oneOrMore, avoids, hslash, not_pathChar_of_isBlank hc]
  · simp [drivePath, all, one, oneOrMore, literal, avoids, not_alpha_of_isBlank hc, hcolon, hback,
      not_drivePathChar_of_isBlank hc]
  · simp [addressAndService, fourNumbers, shortNumber, all, one, avoids, hdigit, hcolon, hpoint]
  · simp [address, fourNumbers, shortNumber, all, one, avoids, hdigit, hpoint]

end

theorem solid_of_place (hp : p ∈ places) (htake : p.Takes before cs rest) : Solid cs := by
  intro c hmem
  rcases hc : isBlank c with _ | _
  · rfl
  · exact absurd hmem (htake.notMem_of_avoids (avoids_of_isBlank hc hp))

/-- Neither a blank nor a mark. -/
def isPlain (c : Char) : Bool := !isBlank c && !isMark c

theorem isPlain_of_class {set : Char → Bool} (hblank : ∀ {c}, isBlank c = true → set c = false)
    (hcolon : set ':' = false) (hcomma : set ',' = false) (c : Char) (hc : set c = true) :
    isPlain c = true := by
  have hblankc : isBlank c = false := by
    rcases hb : isBlank c with _ | _
    · rfl
    · rw [hblank hb] at hc
      cases hc
  have hmark : isMark c = false := by
    rw [isMark, Bool.or_eq_false_iff, beq_eq_false_iff_ne, beq_eq_false_iff_ne]
    constructor
    · rintro rfl
      rw [hcolon] at hc
      cases hc
    · rintro rfl
      rw [hcomma] at hc
      cases hc
  rw [isPlain, hblankc, hmark]
  rfl

/-- No place ends with a blank or a mark. -/
theorem ends_place (hp : p ∈ places) : p.Ends isPlain := by
  have hdigit := isPlain_of_class not_digit_of_isBlank (by decide) (by decide)
  simp only [places, List.mem_cons, List.not_mem_nil, or_false] at hp
  rcases hp with rfl | rfl | rfl | rfl
  · have hpath := isPlain_of_class not_pathChar_of_isBlank (by decide) (by decide)
    exact ends_all (p := oneOrMore isPathChar) ⟨Nat.one_pos, hpath⟩ [one '/',
      oneOrMore isPathChar, one '/']
  · have hpath := isPlain_of_class not_drivePathChar_of_isBlank (by decide) (by decide)
    exact ends_all (p := oneOrMore isDrivePathChar) ⟨Nat.one_pos, hpath⟩
      [row Char.isAlpha 1 (some 1), literal ":\\"]
  · exact .inl <| .inl <| .inl <| .inr ⟨rfl, Nat.one_pos, hdigit⟩
  · exact .inl <| .inr ⟨rfl, fourNumbers_ends hdigit⟩

theorem place_begins (hp : p ∈ places) (htake : p.Takes before cs rest) :
    ∃ c xs, cs = c :: xs ∧ isBlank c = false := by
  obtain ⟨xs, c, rfl, -⟩ := htake.ends (ends_place hp)
  have hne : xs ++ [c] ≠ [] := List.append_ne_nil_of_right_ne_nil xs (List.cons_ne_nil c [])
  obtain ⟨d, ds, hcs⟩ := List.exists_cons_of_ne_nil hne
  exact ⟨d, ds, hcs, solid_of_place hp htake d (by rw [hcs]; exact List.mem_cons_self ..)⟩

theorem place_ends (hp : p ∈ places) (htake : p.Takes before cs rest) :
    ∃ xs c, cs = xs ++ [c] ∧ isBlank c = false ∧ isMark c = false := by
  obtain ⟨xs, c, rfl, hc⟩ := htake.ends (ends_place hp)
  exact ⟨xs, c, rfl, by simpa [isPlain] using hc⟩

/-- Squeezing makes no place and hides none. -/
theorem occursIn_place_squeeze_iff (hp : p ∈ places) (text : List Char) :
    p.OccursIn (squeeze text) ↔ p.OccursIn text := by
  apply occursIn_squeeze_iff (place_begins hp)
  · intro before cs rest htake
    obtain ⟨xs, c, hcs, hc, -⟩ := place_ends hp htake
    exact ⟨xs, c, hcs, hc⟩
  · exact takes_squeeze_iff_of_solid (solid_of_place hp)

/-! ## The end of a text -/

/-- What is dropped is one mark, and a mark at the end is dropped. -/
theorem exists_dropMark (cs : List Char) : ∃ marks, cs = dropMark cs ++ marks ∧ marks.length ≤ 1 ∧
    (∀ c ∈ marks, isMark c = true) ∧ (marks = [] → ∀ xs c, cs = xs ++ [c] → isMark c = false) := by
  rw [dropMark]
  split
  · next hmark =>
    rcases cs.eq_nil_or_concat' with rfl | ⟨xs, c, rfl⟩
    · cases hmark
    · refine ⟨[c], by rw [List.dropLast_concat], Nat.le_refl 1, fun d hd => ?_, fun h => by cases h⟩
      obtain rfl := List.mem_singleton.1 hd
      simpa [isMark] using hmark
  · next hmark =>
    refine ⟨[], (List.append_nil cs).symm, Nat.zero_le 1,
      fun c hc => absurd hc List.not_mem_nil, ?_⟩
    rintro - xs c rfl
    simpa [isMark] using hmark

theorem not_word_of_isMark (hc : isMark c = true) : isWordChar c = false := by
  rw [isMark, Bool.or_eq_true, beq_iff_eq, beq_iff_eq] at hc
  rcases hc with rfl | rfl <;> decide

theorem toList_redact (text : String) :
    (redact text).toList = dropMark (trimBlanks (squeeze (joined text.toList))) := by
  rw [redact, String.toList_ofList, ← replaceAll_blanks]
  rfl

/-- The redacted text is a squeezed one without blanks and marks at its ends. -/
theorem exists_redact (text : String) :
    ∃ left right, squeeze (joined text.toList) = left ++ (redact text).toList ++ right ∧
    Blank left ∧ ∀ c ∈ right, isBlank c = true ∨ isMark c = true := by
  obtain ⟨left, right, hleft, hright, htrim⟩ := exists_trimBlanks (squeeze (joined text.toList))
  obtain ⟨marks, hdrop, -, hmarks, -⟩ := exists_dropMark (trimBlanks (squeeze (joined text.toList)))
  refine ⟨left, marks ++ right, ?_, hleft, fun c hc => ?_⟩
  · rw [toList_redact]
    conv_lhs => rw [htrim, hdrop]
    simp only [List.append_assoc]
  · rcases List.mem_append.1 hc with hc | hc
    · exact .inr (hmarks c hc)
    · exact .inl (hright c hc)

/-- What begins and ends with plain characters is neither made nor hidden at the ends. -/
theorem occursIn_redact_iff (text : String)
    (hfirst : ∀ {before cs rest}, p.Takes before cs rest → ∃ c xs, cs = c :: xs ∧ isBlank c = false)
    (hlast : ∀ {before cs rest}, p.Takes before cs rest → ∃ xs c,
      cs = xs ++ [c] ∧ isBlank c = false ∧ isMark c = false) :
    p.OccursIn (redact text).toList ↔ p.OccursIn (squeeze (joined text.toList)) := by
  obtain ⟨left, right, htext, hleft, hright⟩ := exists_redact text
  rw [htext]
  refine (occursIn_pad_iff (fun c hc => not_word_of_isBlank (hleft c hc))
    (fun c hc => ?_) ?_ ?_).symm
  · exact (hright c hc).elim not_word_of_isBlank not_word_of_isMark
  · intro before cs rest htake
    obtain ⟨c, xs, hcs, hc⟩ := hfirst htake
    refine ⟨c, xs, hcs, fun hmem => ?_⟩
    rw [hleft c hmem] at hc
    cases hc
  · intro before cs rest htake
    obtain ⟨xs, c, hcs, hblank, hmark⟩ := hlast htake
    refine ⟨xs, c, hcs, fun hmem => ?_⟩
    rcases hright c hmem with hc | hc
    · rw [hc] at hblank
      cases hblank
    · rw [hc] at hmark
      cases hmark

theorem occursIn_place_redact_iff (hp : p ∈ places) (text : String) :
    p.OccursIn (redact text).toList ↔ p.OccursIn (joined text.toList) :=
  (occursIn_redact_iff text (place_begins hp) (place_ends hp)).trans
    (occursIn_place_squeeze_iff hp _)

/-! ## System errors -/

theorem takes_errorNumber_iff : errorNumber.Takes before cs rest ↔
    ∃ ds, (ds ≠ [] ∧ ∀ d ∈ ds, isDecimalDigit d = true) ∧ cs = ds ++ [')'] := by
  constructor
  · rintro ⟨ds, _, rfl, ⟨hdigit, hleast, -⟩, hmark⟩
    obtain ⟨_, rfl, rfl⟩ := takes_literal_seq_iff.1 hmark
    exact ⟨ds, ⟨List.length_pos_iff.1 hleast, hdigit⟩, rfl⟩
  · rintro ⟨ds, ⟨hne, hdigit⟩, rfl⟩
    exact ⟨ds, [')'], rfl, ⟨hdigit, List.length_pos_iff.2 hne, fun m hm => by cases hm⟩,
      takes_literal_seq_iff.2 ⟨[], rfl, rfl⟩⟩

theorem solid_of_errorNumber (htake : errorNumber.Takes before cs rest) : Solid cs := by
  obtain ⟨ds, ⟨-, hdigit⟩, rfl⟩ := takes_errorNumber_iff.1 htake
  intro c hmem
  rcases hc : isBlank c with _ | _
  · rfl
  · rcases List.mem_append.1 hmem with hmem | hmem
    · have hno := not_digit_of_isBlank hc
      rw [hdigit c hmem] at hno
      cases hno
    · rw [List.mem_singleton.1 hmem] at hc
      cases hc

theorem unspaced_errorNumber : Unspaced errorNumber where
  edgeFree := rfl
  starts htake := by
    have hsolid := solid_of_errorNumber htake
    obtain ⟨ds, -, rfl⟩ := takes_errorNumber_iff.1 htake
    have hno :=
      not_startsBlank_of_solid hsolid
        (List.append_ne_nil_of_right_ne_nil ds (List.cons_ne_nil _ _)) []
    rwa [List.append_nil] at hno
  ends := .inl <| .inr ⟨rfl, .inr ⟨rfl, Nat.one_pos, fun c hc => by rw [eq_of_beq hc]; decide⟩⟩
  squeeze := takes_squeeze_iff_of_solid solid_of_errorNumber

theorem occursIn_systemError_redact_iff (text : String) :
    systemError.OccursIn (redact text).toList ↔
      spacedSystemError.OccursIn (joined text.toList) := by
  rw [spacedSystemError, ← occursIn_spaced_iff "(os error " (by decide +kernel) (by decide +kernel)
    unspaced_errorNumber]
  refine occursIn_anyNumber_seq_iff.trans (occursIn_redact_iff text ?_ ?_)
  · intro before cs rest htake
    obtain ⟨ys, rfl, -⟩ := takes_literal_seq_iff.1 htake
    exact ⟨'(', _, rfl, by decide⟩
  · intro before cs rest htake
    obtain ⟨ys, rfl, hys⟩ := takes_literal_seq_iff.1 htake
    obtain ⟨ds, -, rfl⟩ := takes_errorNumber_iff.1 hys
    exact ⟨"(os error ".toList ++ ds, ')', (List.append_assoc ..).symm, by decide, by decide⟩

/-! ## The note of the driver -/

/-- The words of the note. -/
def note : String := "error returned from database:"

/-- The note of the driver, blanks, and something that is no blank. -/
def keptNote : Pattern := seq (literal "error returned from ") noteEnd

theorem takes_noteEnd_iff : noteEnd.Takes before cs rest ↔
    ∃ bs c, (Blank bs ∧ isBlank c = false) ∧ cs = "database:".toList ++ (bs ++ [c]) := by
  constructor
  · intro htake
    obtain ⟨_, rfl, bs, _, rfl, ⟨hblank, -, -⟩, xs, _, rfl, hxs, rfl⟩ :=
      takes_literal_seq_iff.1 htake
    obtain ⟨c, rfl, hc⟩ := fits_single_iff.1 hxs
    refine ⟨bs, c, ⟨hblank, by simpa using hc⟩, ?_⟩
    rw [List.append_nil]
  · rintro ⟨bs, c, ⟨hblank, hc⟩, rfl⟩
    refine takes_literal_seq_iff.2 ⟨bs ++ [c], rfl, bs, [c], rfl,
      ⟨hblank, Nat.zero_le _, fun m hm => by cases hm⟩, ?_⟩
    exact ⟨[c], [], rfl, fits_single_iff.2 ⟨c, rfl, by simpa using hc⟩, rfl⟩

theorem unspaced_noteEnd : Unspaced noteEnd where
  edgeFree := rfl
  starts htake := by
    obtain ⟨bs, c, -, rfl⟩ := takes_noteEnd_iff.1 htake
    exact not_startsBlank_of_solid (by decide +kernel) (by decide +kernel) _
  ends := .inl <| .inl <| .inr ⟨rfl, Nat.one_pos, fun _ h => h⟩
  squeeze {before cs rest} := by
    have hsolid : Solid "database:".toList := by decide +kernel
    have hne : "database:".toList ≠ [] := by decide +kernel
    rw [takes_noteEnd_iff, takes_noteEnd_iff]
    constructor
    · rintro ⟨bs, c, ⟨hblank, hc⟩, hcs⟩
      obtain ⟨vs, rfl, hvs⟩ := (squeeze_eq_word_append_iff hsolid hne).1 hcs
      obtain ⟨us, ws, rfl, rfl, hws⟩ := exists_of_squeeze_append hvs
      have hone : Solid [c] := List.forall_mem_singleton.2 hc
      rw [(squeeze_eq_iff_of_solid hone).1 hws]
      exact ⟨us, c, ⟨blank_squeeze_iff.1 hblank, hc⟩, rfl⟩
    · rintro ⟨bs, c, ⟨hblank, hc⟩, rfl⟩
      have hone : Solid [c] := List.forall_mem_singleton.2 hc
      refine ⟨squeeze bs, c, ⟨blank_squeeze_iff.2 hblank, hc⟩, ?_⟩
      rw [squeeze_eq_word_append_iff hsolid hne]
      refine ⟨_, rfl, ?_⟩
      have hcut : ¬StartsBlank [c] := not_startsBlank_of_solid hone (List.cons_ne_nil c []) []
      rw [squeeze_append_of_head hcut, squeeze_of_solid hone]

theorem takes_keptNote_iff : keptNote.Takes before cs rest ↔
    ∃ bs c, (Blank bs ∧ isBlank c = false) ∧ cs = note.toList ++ (bs ++ [c]) := by
  have hnote : note.toList = "error returned from ".toList ++ "database:".toList := by
    decide +kernel
  rw [keptNote, takes_literal_seq_iff, hnote]
  constructor
  · rintro ⟨_, rfl, htake⟩
    obtain ⟨bs, c, h, rfl⟩ := takes_noteEnd_iff.1 htake
    exact ⟨bs, c, h, (List.append_assoc ..).symm⟩
  · rintro ⟨bs, c, h, rfl⟩
    exact ⟨"database:".toList ++ (bs ++ [c]), List.append_assoc ..,
      takes_noteEnd_iff.2 ⟨bs, c, h, rfl⟩⟩

/-- The note occurs with something behind it where not all that is behind it is blank. -/
theorem occursIn_keptNote_iff {text : List Char} :
    keptNote.OccursIn text ↔ ∃ pre post, text = pre ++ note.toList ++ post ∧ ¬Blank post := by
  constructor
  · rintro ⟨pre, _, rfl, cs, rest, rfl, htake⟩
    obtain ⟨bs, c, ⟨hbs, hc⟩, rfl⟩ := takes_keptNote_iff.1 htake
    exact ⟨pre, bs ++ c :: rest, by simp only [List.append_assoc, List.singleton_append],
      not_blank_iff.2 ⟨bs, c, rest, rfl, hbs, hc⟩⟩
  · rintro ⟨pre, post, rfl, hpost⟩
    obtain ⟨bs, c, rest, rfl, hbs, hc⟩ := not_blank_iff.1 hpost
    refine ⟨pre, note.toList ++ (bs ++ [c]) ++ rest, ?_, _, rest, rfl,
      takes_keptNote_iff.2 ⟨bs, c, ⟨hbs, hc⟩, rfl⟩⟩
    simp only [List.append_assoc, List.singleton_append]

/-- The note stays in a text if something comes behind it; otherwise its colon is dropped. -/
theorem occursIn_note_dropMark_iff (hcs : ∀ xs c, cs = xs ++ [c] → isBlank c = false) :
    (literal note).OccursIn (dropMark cs) ↔ keptNote.OccursIn cs := by
  obtain ⟨marks, hdrop, hlength, -, hnil⟩ := exists_dropMark cs
  rw [occursIn_literal_iff, occursIn_keptNote_iff]
  constructor
  · rintro ⟨pre, rest, hpre⟩
    rw [← hpre, List.append_assoc] at hdrop
    refine ⟨pre, rest ++ marks, hdrop, fun hblank => ?_⟩
    rcases (rest ++ marks).eq_nil_or_concat' with hnone | ⟨front, d, hfront⟩
    · -- the note would stand at the end with its colon
      obtain ⟨-, rfl⟩ := List.append_eq_nil_iff.1 hnone
      have hnote : note.toList = "error returned from database".toList ++ [':'] := by decide +kernel
      rw [hnone, List.append_nil, hnote, ← List.append_assoc] at hdrop
      cases hnil rfl _ _ hdrop
    · rw [hfront, ← List.append_assoc] at hdrop
      have hd := hcs _ d hdrop
      rw [hblank d (by simp [hfront])] at hd
      cases hd
  · rintro ⟨pre, post, hpre, hpost⟩
    rcases List.append_eq_append_iff.1 (hpre.symm.trans hdrop)
      with ⟨more, hmore, -⟩ | ⟨rest, hrest, hmarks⟩
    · exact ⟨pre, more, hmore.symm⟩
    · -- what is dropped is one mark at most, and stands behind the note
      have hlong := congrArg List.length hmarks
      rw [List.length_append] at hlong
      have hpos : 0 < post.length :=
        List.length_pos_iff.2 fun h => hpost (h ▸ fun c hc => absurd hc List.not_mem_nil)
      have hnone : rest = [] := List.eq_nil_of_length_eq_zero (by omega)
      exact ⟨pre, [], by rw [hrest, hnone, List.append_nil, List.append_nil]⟩

theorem keptNote_begins : keptNote.Begins (!isBlank ·) :=
  .inl (.inl ⟨Nat.one_pos, fun c hc => by rw [eq_of_beq hc]; decide⟩)

theorem keptNote_ends : keptNote.Ends (!isBlank ·) := .inl unspaced_noteEnd.ends

theorem occursIn_keptNote_trimBlanks_iff : keptNote.OccursIn (trimBlanks cs) ↔
    keptNote.OccursIn cs := by
  obtain ⟨left, right, hleft, hright, htrim⟩ := exists_trimBlanks cs
  conv_rhs => rw [htrim]
  refine (occursIn_pad_iff (fun c hc => not_word_of_isBlank (hleft c hc))
    (fun c hc => not_word_of_isBlank (hright c hc)) ?_ ?_).symm
  · intro before cs rest htake
    obtain ⟨c, xs, rfl, hc⟩ := htake.begins keptNote_begins
    refine ⟨c, xs, rfl, fun hmem => ?_⟩
    rw [hleft c hmem] at hc
    cases hc
  · intro before cs rest htake
    obtain ⟨xs, c, rfl, hc⟩ := htake.ends keptNote_ends
    refine ⟨xs, c, rfl, fun hmem => ?_⟩
    rw [hright c hmem] at hc
    cases hc

theorem occursIn_driverNote_redact_iff (text : String) :
    driverNote.OccursIn (redact text).toList ↔ spacedDriverNote.OccursIn (joined text.toList) := by
  have hrest (before : Option Char) (rest : List Char) : (all [anyNumber isBlank,
      optional (all [literal "(code: ", oneOrMore isDecimalDigit, literal ")",
        anyNumber isBlank])]).Takes before [] rest :=
    ⟨[], [], rfl, fits_nil_iff.2 rfl, [], [], rfl, .inl rfl, rfl⟩
  rw [spacedDriverNote, ← occursIn_spaced_iff "error returned from " (by decide +kernel)
    (by decide +kernel) unspaced_noteEnd, toList_redact]
  refine (occursIn_seq_iff hrest).trans ?_
  exact (occursIn_note_dropMark_iff fun _ _ => not_blank_of_trimBlanks).trans
    occursIn_keptNote_trimBlanks_iff

/-! ## The whole text -/

/-- What may be brought together when system errors are deleted, with any blanks between the
words. -/
def remnants : List Pattern := [rootedPath, drivePath, address, spacedSystemError, spacedDriverNote]

/-- Before system errors are deleted there is no path and no address; and a redacted text is clean
just if deleting them has brought together no path, no address, no system error and no note that
something follows. -/
theorem redact_clean_iff (text : String) : (∀ p ∈ places, ¬p.OccursIn (covered text.toList)) ∧
    (Clean (redact text) ↔ ∀ p ∈ remnants, ¬p.OccursIn (joined text.toList)) := by
  refine ⟨not_occursIn_covered text.toList, ?_⟩
  have hplace {p : Pattern} (hp : p ∈ places) := occursIn_place_redact_iff hp text
  have hservice (h : addressAndService.OccursIn (joined text.toList)) :
      address.OccursIn (joined text.toList) := by
    obtain ⟨pre, post, hpre, hfront⟩ := h
    exact ⟨pre, post, hpre, takesFront_address hfront⟩
  have hrooted := hplace (p := rootedPath) (by simp [places])
  have hdrive := hplace (p := drivePath) (by simp [places])
  have haddressAndService := hplace (p := addressAndService) (by simp [places])
  have haddress := hplace (p := address) (by simp [places])
  simp only [Clean, secrets, remnants, List.forall_mem_cons, List.not_mem_nil, false_implies,
    implies_true, and_true, occursIn_driverNote_redact_iff, occursIn_systemError_redact_iff,
    hrooted, hdrive, haddressAndService, haddress]
  constructor
  · rintro ⟨hnote, hrooted, hdrive, -, haddress, herror⟩
    exact ⟨hrooted, hdrive, haddress, herror, hnote⟩
  · rintro ⟨hrooted, hdrive, haddress, herror, hnote⟩
    exact ⟨hnote, hrooted, hdrive, fun h => haddress (hservice h), haddress, herror⟩

/-- A note that is broken over two lines, a path and an address around a system error, and a system
error inside another one: each is in the text that is shown. -/
theorem redact_not_clean :
    (redact "error returned from\ndatabase: (code: 1) no such table: t" =
        "error returned from database: (code: 1) no such table: t" ∧
      redact "cannot open /srv (os error 13)/app.db" = "cannot open /srv/app.db" ∧
      redact "no route to 10.0 (os error 113).0.7" = "no route to 10.0.0.7" ∧
      redact "failed (os error(os error 2) 13)" = "failed (os error 13)") ∧
    ¬Clean (redact "error returned from\ndatabase: (code: 1) no such table: t") := by
  have hredact : redact "error returned from\ndatabase: (code: 1) no such table: t" =
      "error returned from database: (code: 1) no such table: t" := by decide +kernel
  have hfound : driverNote.length? none
      "error returned from database: (code: 1) no such table: t".toList = some 40 := by
    decide +kernel
  refine ⟨⟨hredact, by decide +kernel, by decide +kernel, by decide +kernel⟩, fun hclean => ?_⟩
  rw [hredact] at hclean
  exact hclean driverNote (List.mem_cons_self ..) (occursIn_of_length? hfound)

end IndexAdvisor.Redaction
