import IndexAdvisor.Json.Text

/-!
# Strings read back

A string is read in three steps, and each of them takes the characters of a written text one by one:
the closing quote is not found inside an escape, an escape has the unit of the character it stands
for, and the unit of a character is never half a surrogate pair.

> `readString?_escaped`: what is written between quotes is read back, whatever comes after them.
-/

namespace IndexAdvisor.Json

/-- Whether a character stands for itself in a string. -/
def StandsPlain (c : Char) : Prop := c ≠ '"' ∧ c ≠ '\\' ∧ 0x20 ≤ c.toNat

instance : DecidablePred StandsPlain := fun _ => inferInstanceAs (Decidable (_ ∧ _ ∧ _))

/-- The four digits of the escape of a control. -/
def controlDigits (n : Nat) : List Char :=
  ['0', '0', Nat.digitChar (n / 16), Nat.digitChar (n % 16)]

/-! ## The ways to write a character -/

/-- A character is written as a letter after a backslash, as a code in hexadecimal, or as itself. -/
theorem escapedChar_cases (c : Char) :
    (∃ letter, (c, letter) ∈ shortEscapes ∧ escapedChar c = ['\\', letter]) ∨
    (c.toNat < 0x20 ∧ escapedChar c = '\\' :: 'u' :: controlDigits c.toNat) ∨
    (StandsPlain c ∧ escapedChar c = [c]) := by
  unfold escapedChar
  split
  · next letter hletter =>
    obtain ⟨l₁, l₂, htable, -⟩ := List.lookup_eq_some_iff.1 hletter
    exact .inl ⟨letter, htable ▸ List.mem_append_right l₁ List.mem_cons_self, rfl⟩
  · next hnone =>
    have hself : ∀ e ∈ shortEscapes, c ≠ e.1 := fun e he => by
      simpa using List.lookup_eq_none_iff.1 hnone e he
    split
    · next hcontrol => exact .inr (.inl ⟨hcontrol, rfl⟩)
    · next hcontrol =>
      exact .inr (.inr ⟨⟨hself ('"', '"') (by decide), hself ('\\', '\\') (by decide), by omega⟩,
        rfl⟩)

theorem shortEscape?_of_mem :
    ∀ e ∈ shortEscapes, shortEscape? e.2 = some e.1.toNat ∧ e.2 ≠ 'u' := by decide

theorem standsPlain_digitChar : ∀ n < 16, StandsPlain (Nat.digitChar n) := by decide

theorem hexValue?_digitChar : ∀ n < 16, hexValue? (Nat.digitChar n) = some n := by decide

theorem standsPlain_controlDigits {n : Nat} (h : n < 0x20) :
    ∀ d ∈ controlDigits n, StandsPlain d := by
  intro d hd
  simp only [controlDigits, List.mem_cons, List.not_mem_nil, or_false] at hd
  rcases hd with rfl | rfl | rfl | rfl
  · decide
  · decide
  · exact standsPlain_digitChar _ (by omega)
  · exact standsPlain_digitChar _ (by omega)

theorem hexUnit?_controlDigits {n : Nat} (h : n < 0x20) :
    hexUnit? '0' '0' (Nat.digitChar (n / 16)) (Nat.digitChar (n % 16)) = some n := by
  have hzero : hexValue? '0' = some 0 := by decide
  have hhigh := hexValue?_digitChar (n / 16) (by omega)
  have hlow := hexValue?_digitChar (n % 16) (by omega)
  simp only [hexUnit?, hzero, hhigh, hlow, Option.bind_eq_bind, Option.bind_some, Option.some.injEq]
  omega

/-! ## The end of the body -/

theorem splitBody_plain {c : Char} (h : StandsPlain c) (done cs : List Char) :
    splitBody done (c :: cs) = splitBody (c :: done) cs := by
  obtain ⟨hquote, hslash, hcode⟩ := h
  rw [splitBody]
  · rw [if_neg (by omega)]
  · exact hquote
  · intro d rest heq _
    exact hslash heq

theorem splitBody_plains {ds : List Char} (h : ∀ d ∈ ds, StandsPlain d) (done cs : List Char) :
    splitBody done (ds ++ cs) = splitBody (ds.reverse ++ done) cs := by
  induction ds generalizing done with
  | nil => rfl
  | cons d ds ih =>
    rw [List.cons_append, splitBody_plain (h d List.mem_cons_self),
      ih fun e he => h e (List.mem_cons_of_mem d he), List.reverse_cons, List.append_assoc,
      List.singleton_append]

/-- No quote inside a written character ends the body. -/
theorem splitBody_escapedChar (c : Char) (done cs : List Char) :
    splitBody done (escapedChar c ++ cs) = splitBody ((escapedChar c).reverse ++ done) cs := by
  rcases escapedChar_cases c with ⟨letter, -, heq⟩ | ⟨hcontrol, heq⟩ | ⟨hplain, heq⟩
  · rw [heq]
    rfl
  · rw [heq, List.cons_append, List.cons_append, splitBody,
      splitBody_plains (standsPlain_controlDigits hcontrol)]
    simp
  · rw [heq]
    exact splitBody_plain hplain done cs

theorem splitBody_escaped (s done rest : List Char) :
    splitBody done (s.flatMap escapedChar ++ '"' :: rest) =
      some (done.reverse ++ s.flatMap escapedChar, rest) := by
  induction s generalizing done with
  | nil => simp [splitBody]
  | cons c s ih =>
    rw [List.flatMap_cons, List.append_assoc, splitBody_escapedChar, ih]
    simp

/-! ## The units of the body -/

theorem units?_short {letter : Char} {u : Nat} (h : letter ≠ 'u')
    (hu : shortEscape? letter = some u) (done : List Nat) (cs : List Char) :
    units? done ('\\' :: letter :: cs) = units? (u :: done) cs := by
  rw [units?]
  · rw [hu]
  · rintro _ _ _ _ _ rfl
    exact absurd rfl h

/-- A written character has one unit, its code. -/
theorem units?_escapedChar (c : Char) (done : List Nat) (cs : List Char) :
    units? done (escapedChar c ++ cs) = units? (c.toNat :: done) cs := by
  rcases escapedChar_cases c with ⟨letter, hletter, heq⟩ | ⟨hcontrol, heq⟩ | ⟨hplain, heq⟩
  · obtain ⟨hu, hne⟩ := shortEscape?_of_mem _ hletter
    rw [heq]
    exact units?_short hne hu done cs
  · rw [heq]
    simp only [controlDigits, List.cons_append, List.nil_append, units?,
      hexUnit?_controlDigits hcontrol]
  · rw [heq, List.singleton_append, units?]
    · rintro _ _ _ _ _ rfl
      exact absurd rfl hplain.2.1
    · rintro _ _ rfl
      exact absurd rfl hplain.2.1

theorem units?_escaped (s : List Char) (done : List Nat) :
    units? done (s.flatMap escapedChar) = some (done.reverse ++ s.map Char.toNat) := by
  induction s generalizing done with
  | nil => simp [units?]
  | cons c s ih =>
    rw [List.flatMap_cons, units?_escapedChar, ih]
    simp

/-! ## The characters of the units -/

theorem not_isHighUnit (c : Char) : isHighUnit c.toNat = false := by
  have := c.valid
  simp only [UInt32.isValidChar, Nat.isValidChar] at this
  simp only [isHighUnit, Char.toNat, Bool.and_eq_false_iff, decide_eq_false_iff_not]
  omega

theorem not_isLowUnit (c : Char) : isLowUnit c.toNat = false := by
  have := c.valid
  simp only [UInt32.isValidChar, Nat.isValidChar] at this
  simp only [isLowUnit, Char.toNat, Bool.and_eq_false_iff, decide_eq_false_iff_not]
  omega

theorem joinUnits?_codes (s done : List Char) :
    joinUnits? done (s.map Char.toNat) = some (String.ofList (done.reverse ++ s)) := by
  induction s generalizing done with
  | nil => simp [joinUnits?]
  | cons c s ih =>
    cases s with
    | nil => simp [joinUnits?, not_isHighUnit, not_isLowUnit]
    | cons d s =>
      have hrest := ih (c :: done)
      simp only [List.map_cons] at hrest ⊢
      simp [joinUnits?, not_isHighUnit, not_isLowUnit, hrest]

theorem readString?_escaped (s : String) (rest : List Char) :
    readString? (escaped s ++ '"' :: rest) = some (some s, rest) := by
  have hsplit := splitBody_escaped s.toList [] rest
  have hunits := units?_escaped s.toList []
  have hjoin := joinUnits?_codes s.toList []
  simp only [List.reverse_nil, List.nil_append, String.ofList_toList] at hsplit hunits hjoin
  simp [readString?, escaped, hsplit, hunits, hjoin]

end IndexAdvisor.Json
