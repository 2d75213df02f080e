import IndexAdvisor.Sql.Lexer

/-!
# Tokens read back

Rendered tokens stand apart by one space, and every token that the lexer reads from a text is read
back from its rendering, whatever comes after that space: such a token is `Readable`. It is shown
for each shape of a token that its end is found again where the token ends, because what ends it is
not a space.

> `tokenize?_render`: readable tokens are the tokens of their rendering.

The tokens of a text are readable (`tokens_readable`), and so is every part of them; a part that is
rendered by itself therefore has exactly the tokens of the part.
-/

namespace IndexAdvisor.Sql

namespace Lexer

/-! ## Rows of characters -/

/-- Whether a row of characters that satisfy a test is over at the front of a text. -/
def Stops (p : Char → Bool) (cs : List Char) : Prop := ∀ c ∈ cs.head?, p c = false

theorem stops_nil {p : Char → Bool} : Stops p [] := fun _ h => nomatch h

theorem stops_cons {p : Char → Bool} {c : Char} {cs : List Char} :
    Stops p (c :: cs) ↔ p c = false := by
  simp [Stops]

variable {p : Char → Bool} {w tail : List Char}

theorem takeWhile_of_stops (h : Stops p tail) : tail.takeWhile p = [] := by
  cases tail with
  | nil => rfl
  | cons c cs => rw [List.takeWhile_cons, stops_cons.1 h]; rfl

theorem dropWhile_of_stops (h : Stops p tail) : tail.dropWhile p = tail := by
  cases tail with
  | nil => rfl
  | cons c cs => rw [List.dropWhile_cons, stops_cons.1 h]; rfl

theorem takeWhile_append (hw : ∀ c ∈ w, p c = true) (h : Stops p tail) :
    (w ++ tail).takeWhile p = w := by
  rw [List.takeWhile_append_of_pos hw, takeWhile_of_stops h, List.append_nil]

theorem dropWhile_append (hw : ∀ c ∈ w, p c = true) (h : Stops p tail) :
    (w ++ tail).dropWhile p = tail := by
  rw [List.dropWhile_append_of_pos hw, dropWhile_of_stops h]

theorem of_mem_takeWhile {c : Char} {cs : List Char} (h : c ∈ cs.takeWhile p) : p c = true := by
  exact List.all_eq_true.1 List.all_takeWhile c h

/-! ## Quoted bodies -/

/-- The closing character ends the body if the next one does not double it. -/
theorem quotedFrom_close {closing : Char} (done : List Char) {tail : List Char}
    (htail : Stops (· == closing) tail) :
    quotedFrom closing done (closing :: tail) = some (done.reverse, tail) := by
  rcases tail with _ | ⟨d, ds⟩
  · simp [quotedFrom]
  · have hd : d ≠ closing := by simpa using stops_cons.1 htail
    simp [quotedFrom, hd]

theorem quotedFrom_reads {closing : Char} {done cs body rest : List Char}
    (h : quotedFrom closing done cs = some (body, rest)) :
    ∃ inside, body = done.reverse ++ inside ∧ ∀ done' tail, Stops (· == closing) tail →
      quotedFrom closing done' (inside ++ closing :: tail) =
        some (done'.reverse ++ inside, tail) := by
  fun_induction quotedFrom closing done cs with
  | case1 => cases h
  | case2 done c cs hc ih =>
    obtain ⟨inside, rfl, hreads⟩ := ih h
    refine ⟨c :: inside, by simp, fun done' tail htail => ?_⟩
    rw [List.cons_append, quotedFrom.eq_def]
    dsimp only
    rw [if_pos hc, hreads _ _ htail]
    simp
  | case3 done c hc ds ih =>
    obtain ⟨inside, rfl, hreads⟩ := ih h
    refine ⟨c :: closing :: inside, by simp, fun done' tail htail => ?_⟩
    rw [List.cons_append, List.cons_append, quotedFrom.eq_def]
    dsimp only
    rw [if_neg hc, if_pos rfl, hreads _ _ htail]
    simp
  | case4 done c hc d ds hd =>
    cases h
    refine ⟨[], by simp, fun done' tail htail => ?_⟩
    rw [List.nil_append, List.append_nil, quotedFrom_close done' htail]
  | case5 done c hc =>
    cases h
    refine ⟨[], by simp, fun done' tail htail => ?_⟩
    rw [List.nil_append, List.append_nil, quotedFrom_close done' htail]

/-- A quoted body is read back up to its closing character. -/
theorem quotedBody_append {closing : Char} {cs body rest tail : List Char}
    (h : quotedBody closing cs = some (body, rest)) (htail : Stops (· == closing) tail) :
    quotedBody closing (body ++ closing :: tail) = some (body, tail) := by
  obtain ⟨inside, rfl, hreads⟩ := quotedFrom_reads h
  exact hreads [] tail htail

theorem hexFrom_close (done : List Char) {tail : List Char} (htail : Stops (· == '\'') tail) :
    hexFrom done ('\'' :: tail) = some (done.reverse, tail) := by
  rcases tail with _ | ⟨d, ds⟩
  · simp [hexFrom]
  · have hd : d ≠ '\'' := by simpa using stops_cons.1 htail
    rw [hexFrom]
    intro es hes
    cases hes
    exact hd rfl

theorem hexFrom_reads {done cs body rest : List Char} (h : hexFrom done cs = some (body, rest)) :
    ∃ inside, body = done.reverse ++ inside ∧ ∀ done' tail, Stops (· == '\'') tail →
      hexFrom done' (inside ++ '\'' :: tail) = some (done'.reverse ++ inside, tail) := by
  fun_induction hexFrom done cs with
  | case1 => cases h
  | case2 => cases h
  | case3 done d ds ih =>
    obtain ⟨inside, rfl, hreads⟩ := ih h
    refine ⟨'\\' :: d :: inside, by simp, fun done' tail htail => ?_⟩
    rw [List.cons_append, List.cons_append, hexFrom, hreads _ _ htail]
    simp
  | case4 done cs ih =>
    obtain ⟨inside, rfl, hreads⟩ := ih h
    refine ⟨'\'' :: '\'' :: inside, by simp, fun done' tail htail => ?_⟩
    rw [List.cons_append, List.cons_append, hexFrom, hreads _ _ htail]
    simp
  | case5 done cs hcs =>
    cases h
    refine ⟨[], by simp, fun done' tail htail => ?_⟩
    rw [List.nil_append, List.append_nil, hexFrom_close done' htail]
  | case6 done c cs h₁ h₂ h₃ ih =>
    obtain ⟨inside, rfl, hreads⟩ := ih h
    refine ⟨c :: inside, by simp, fun done' tail htail => ?_⟩
    rw [List.cons_append, hexFrom, hreads _ _ htail]
    · simp
    · exact h₁
    · exact fun _ hc _ => h₃ hc
    · exact h₃

theorem hexBody_append {cs body rest tail : List Char} (h : hexBody cs = some (body, rest))
    (htail : Stops (· == '\'') tail) : hexBody (body ++ '\'' :: tail) = some (body, tail) := by
  obtain ⟨inside, rfl, hreads⟩ := hexFrom_reads h
  exact hreads [] tail htail

theorem hexFrom_digits {done ds tail : List Char} (hds : ∀ d ∈ ds, isHexDigit d = true)
    (htail : Stops (· == '\'') tail) :
    hexFrom done (ds ++ '\'' :: tail) = some (done.reverse ++ ds, tail) := by
  induction ds generalizing done with
  | nil => rw [List.nil_append, List.append_nil, hexFrom_close done htail]
  | cons d ds ih =>
    have hd := hds d (List.mem_cons_self ..)
    have hslash : d ≠ '\\' := by rintro rfl; revert hd; decide
    have hquote : d ≠ '\'' := by rintro rfl; revert hd; decide
    rw [List.cons_append, hexFrom, ih fun e he => hds e (List.mem_cons_of_mem _ he)]
    · simp
    · exact hslash
    · exact fun _ hc _ => hquote hc
    · exact hquote

/-! ## Numerals -/

/-- The shape of an exponent that was found. -/
theorem exponent_cases (cs : List Char) :
    (exponent cs).1 = [] ∨ ∃ x mark ds, (x = 'e' ∨ x = 'E') ∧
      (mark = [] ∨ mark = ['+'] ∨ mark = ['-']) ∧
      ds ≠ [] ∧ (∀ d ∈ ds, d.isDigit = true) ∧ (exponent cs).1 = x :: (mark ++ ds) := by
  unfold exponent
  extract_lets digits found
  rcases hfound : found with _ | power
  · exact .inl rfl
  · refine .inr ?_
    rw [Option.getD_some]
    -- whichever mark was read, digits follow it
    have hdigits {mark rest : List Char} (h : digits mark rest = some power) :
        power.1 = mark ++ rest.takeWhile Char.isDigit ∧ rest.takeWhile Char.isDigit ≠ [] := by
      unfold digits at h
      dsimp only at h
      split at h
      · cases h
      · next hne =>
        obtain rfl := Option.some.inj h
        exact ⟨rfl, by simpa using hne⟩
    unfold found at hfound
    split at hfound
    · next x s rest =>
      split at hfound
      · next hx =>
        split at hfound
        · next hs =>
          obtain ⟨hpower, hne⟩ := hdigits hfound
          exact ⟨x, [s], _, by simpa using hx, by simpa using hs, hne,
            fun d => of_mem_takeWhile, hpower⟩
        · obtain ⟨hpower, hne⟩ := hdigits hfound
          exact ⟨x, [], _, by simpa using hx, .inl rfl, hne, fun d => of_mem_takeWhile, hpower⟩
      · cases hfound
    · cases hfound

/-- The exponent of a numeral is read back if no digit and no exponent comes next. -/
theorem exponent_append (cs : List Char) {tail : List Char} (hdigit : Stops Char.isDigit tail)
    (hmark : Stops (fun c => c == 'e' || c == 'E') tail) :
    exponent ((exponent cs).1 ++ tail) = ((exponent cs).1, tail) := by
  rcases exponent_cases cs with hnone | ⟨x, mark, ds, hx, hm, hne, hds, hsome⟩
  · rw [hnone, List.nil_append, exponent.eq_def]
    rcases tail with _ | ⟨c, _ | ⟨d, rest⟩⟩
    · rfl
    · rfl
    · have hc := stops_cons.1 hmark
      simp only [Bool.or_eq_false_iff, beq_eq_false_iff_ne] at hc
      simp [hc.1, hc.2]
  · have htake := takeWhile_append hds hdigit
    have hdrop := dropWhile_append hds hdigit
    rw [hsome, exponent.eq_def]
    obtain ⟨d, ds, rfl⟩ := List.exists_cons_of_ne_nil hne
    have hd := hds d (List.mem_cons_self ..)
    have hplus : d ≠ '+' := by rintro rfl; revert hd; decide
    have hminus : d ≠ '-' := by rintro rfl; revert hd; decide
    rw [List.cons_append] at htake hdrop
    rcases hm with rfl | rfl | rfl <;> simp [hx, hplus, hminus, htake, hdrop]

/-- The shape of a mantissa: digits, and maybe a point and more digits. -/
theorem mantissa_cases (cs : List Char) :
    (∃ ds, (∀ d ∈ ds, d.isDigit = true) ∧ (mantissa cs).1 = ds) ∨
      ∃ ds fs, (∀ d ∈ ds, d.isDigit = true) ∧ (∀ d ∈ fs, d.isDigit = true) ∧
        (mantissa cs).1 = ds ++ '.' :: fs := by
  unfold mantissa
  split
  · exact .inr ⟨_, _, fun d => of_mem_takeWhile, fun d => of_mem_takeWhile, rfl⟩
  · exact .inl ⟨_, fun d => of_mem_takeWhile, rfl⟩

/-- The mantissa of a numeral is read back if neither a digit nor a point comes next. It is not
taken for the beginning of a hexadecimal numeral then, unless an `x` comes next. -/
theorem mantissa_append (cs : List Char) {tail : List Char} (hdigit : Stops Char.isDigit tail)
    (hpoint : Stops (· == '.') tail) (hx : Stops (· == 'x') tail) :
    mantissa ((mantissa cs).1 ++ tail) = ((mantissa cs).1, tail) ∧
      Stops (· == 'x') (((mantissa cs).1 ++ tail).dropWhile Char.isDigit) := by
  rcases mantissa_cases cs with ⟨ds, hds, hm⟩ | ⟨ds, fs, hds, hfs, hm⟩
  · have htake := takeWhile_append hds hdigit
    have hdrop := dropWhile_append hds hdigit
    rw [hm, hdrop]
    refine ⟨?_, hx⟩
    rw [mantissa.eq_def, htake, hdrop]
    rcases tail with _ | ⟨c, rest⟩
    · rfl
    · have hc : c ≠ '.' := by simpa using stops_cons.1 hpoint
      simp [hc]
  · have hpoint : Stops Char.isDigit ('.' :: (fs ++ tail)) := stops_cons.2 rfl
    have htake := takeWhile_append hds hpoint
    have hdrop := dropWhile_append hds hpoint
    rw [hm, List.append_assoc, List.cons_append, hdrop]
    refine ⟨?_, stops_cons.2 rfl⟩
    rw [mantissa.eq_def, htake, hdrop]
    show (ds ++ '.' :: (fs ++ tail).takeWhile Char.isDigit, (fs ++ tail).dropWhile Char.isDigit) = _
    rw [takeWhile_append hfs hdigit, dropWhile_append hfs hdigit]

/-- What may follow a rendered token: nothing, or a space. -/
def AtBlank (cs : List Char) : Prop := ∀ c ∈ cs.head?, c = ' '

theorem atBlank_nil : AtBlank [] := fun _ h => nomatch h

theorem AtBlank.stops {tail : List Char} (h : AtBlank tail) {p : Char → Bool} (hp : p ' ' = false) :
    Stops p tail := fun c hc => h c hc ▸ hp

theorem numeral_text {cs rest : List Char} {text : String} {long : Bool}
    (h : numeral cs = (.number text long, rest)) :
    (mantissa cs).1 ≠ ['.'] ∧ text.toList = (mantissa cs).1 ++ (exponent (mantissa cs).2).1 := by
  unfold numeral at h
  split at h
  · cases h
  · dsimp only at h
    split at h
    · cases h
    · next hm =>
      refine ⟨hm, ?_⟩
      unfold numeralTail at h
      dsimp only at h
      split at h <;> cases h <;> exact String.toList_ofList

/-- A numeral is read back at a blank. -/
theorem numeral_append {cs rest tail : List Char} {text : String} {long : Bool}
    (h : numeral cs = (.number text long, rest)) (htail : AtBlank tail) :
    numeral ((Token.number text long).render.toList ++ tail) = (.number text long, tail) := by
  obtain ⟨hm, hparts⟩ := numeral_text h
  -- what follows the exponent: the letter `L`, if the numeral has it, and then a blank
  generalize hmore : (if long then ['L'] else []) ++ tail = more
  have hstops {p : Char → Bool} (hL : p 'L' = false) (hp : p ' ' = false) : Stops p more := by
    rw [← hmore]
    cases long with
    | true => exact stops_cons.2 hL
    | false => exact htail.stops hp
  have hexponent := exponent_append (mantissa cs).2 (hstops rfl rfl) (hstops rfl rfl)
  have hnext {p : Char → Bool} (hL : p 'L' = false) (hp : p ' ' = false) (he : p 'e' = false)
      (hE : p 'E' = false) : Stops p ((exponent (mantissa cs).2).1 ++ more) := by
    rcases exponent_cases (mantissa cs).2 with hnone | ⟨x, mark, ds, hx, -, -, -, hsome⟩
    · rw [hnone]
      exact hstops hL hp
    · rw [hsome]
      rcases hx with rfl | rfl
      · exact stops_cons.2 he
      · exact stops_cons.2 hE
  obtain ⟨hmantissa, hx⟩ := mantissa_append cs (hnext (p := Char.isDigit) rfl rfl rfl rfl)
    (hnext rfl rfl rfl rfl) (hnext rfl rfl rfl rfl)
  have hrender : (Token.number text long).render.toList ++ tail =
      (mantissa cs).1 ++ ((exponent (mantissa cs).2).1 ++ more) := by
    rw [← hmore]
    cases long <;> simp [Token.render, hparts]
  rw [hrender, numeral.eq_def]
  split
  · next hex _ hhex =>
    rw [hhex] at hx
    cases stops_cons.1 hx
  · dsimp only
    rw [hmantissa, if_neg hm, numeralTail.eq_def, hexponent]
    dsimp only
    rw [← hparts, String.ofList_toList]
    cases long with
    | true => rw [← hmore]; rfl
    | false =>
      rw [← hmore]
      rcases tail with _ | ⟨c, tail⟩
      · rfl
      · rw [htail c rfl]; rfl

theorem numeral_period {tail : List Char} (htail : AtBlank tail) :
    numeral ('.' :: tail) = (.period, tail) := by
  have hdigit : Stops Char.isDigit tail := htail.stops rfl
  have hmantissa : mantissa ('.' :: tail) = (['.'], tail) := by
    show ([] ++ '.' :: tail.takeWhile Char.isDigit, tail.dropWhile Char.isDigit) = _
    rw [takeWhile_of_stops hdigit, dropWhile_of_stops hdigit]
    rfl
  show (if (mantissa ('.' :: tail)).1 = ['.'] then (Token.period,
      (mantissa ('.' :: tail)).2) else _) = _
  rw [hmantissa]
  rfl

/-! ## Operators -/

theorem isPrefixOf_append_atBlank {op w tail : List Char} (hop : ' ' ∉ op) (htail : AtBlank tail) :
    op.isPrefixOf (w ++ tail) = op.isPrefixOf w := by
  induction op generalizing w with
  | nil => simp
  | cons c op ih =>
    rw [List.mem_cons, not_or] at hop
    obtain ⟨hc, hop⟩ := hop
    rcases w with _ | ⟨d, w⟩
    · rcases tail with _ | ⟨d, tail⟩
      · rfl
      · have hd : (c == d) = false := by
          rw [htail d rfl]
          simpa using Ne.symm hc
        simp [List.isPrefixOf, hd]
    · rw [List.cons_append, List.isPrefixOf_cons_cons, List.isPrefixOf_cons_cons, ih hop]

theorem find?_operatorChars_append {w tail : List Char} (htail : AtBlank tail) :
    operatorChars.find? (fun op => op.1.isPrefixOf (w ++ tail)) =
      operatorChars.find? (fun op => op.1.isPrefixOf w) := by
  have hblank : ∀ op ∈ operatorChars, ' ' ∉ op.1 := by decide +kernel
  generalize operatorChars = ops at hblank
  induction ops with
  | nil => rfl
  | cons op ops ih =>
    rw [List.find?_cons, List.find?_cons,
      isPrefixOf_append_atBlank (hblank op (List.mem_cons_self ..)) htail,
      ih fun o ho => hblank o (List.mem_cons_of_mem _ ho)]

/-- The characters that begin neither a blank nor any token but an operator. -/
def beginsOperator (c : Char) : Bool :=
  !(isSpace c || isWordStart c || c == '\'' || c == '"' || c == Char.ofNat 0x60 || c ==
    '[' || c.isDigit ||
    c == '.' || c == '?' || c == '$')

/-- The letters that may stand before a string begin words. -/
theorem not_stringLetter {c : Char} (hword : isWordStart c = false) :
    c ≠ 'N' ∧ c ≠ 'n' ∧ c ≠ 'X' ∧ c ≠ 'x' := by
  refine ⟨?_, ?_, ?_, ?_⟩ <;>
  · rintro rfl
    revert hword
    decide

theorem scan_operator {c : Char} {cs : List Char} (hc : beginsOperator c = true)
    (hdash : ¬(c = '-' ∧ cs.head? = some '-')) (hslash : ¬(c = '/' ∧ cs.head? = some '*')) :
    scan c cs = .token (operator c cs).1 (operator c cs).2 := by
  simp only [beginsOperator, Bool.not_eq_true', Bool.or_eq_false_iff, beq_eq_false_iff_ne] at hc
  obtain ⟨⟨⟨⟨⟨⟨⟨⟨⟨hspace, hword⟩, hquote⟩, hdouble⟩, hback⟩, hbracket⟩, hdigit⟩, hpoint⟩, hmark⟩,
      hdollar⟩ := hc
  obtain ⟨hN, hn, hX, hx⟩ := not_stringLetter hword
  unfold scan
  simp [hspace, hword, hquote, hdouble, hback, hbracket, hdigit, hpoint, hmark, hdollar, hN, hn, hX,
    hx, hdash, hslash]

/-! ## Readable tokens -/

/-- A token that is read back from its rendering at any blank. -/
def Readable (t : Token) : Prop :=
  ∃ c cs, t.render.toList = c :: cs ∧ ∀ tail, AtBlank tail → scan c (cs ++ tail) = .token t tail

theorem head?_append_atBlank {cs tail : List Char} {d : Char} (htail : AtBlank tail) (hd : d ≠ ' ')
    (h : (cs ++ tail).head? = some d) : cs.head? = some d := by
  rcases cs with _ | ⟨c, cs⟩
  · exact absurd (htail d h) hd
  · exact h

theorem readable_symbol {c : Char} (hc : beginsOperator c = true)
    (hnone : operatorChars.find? (fun op => op.1.isPrefixOf [c]) = none) :
    Readable (.symbol c.toString) := by
  refine ⟨c, [], by simp [Token.render], fun tail htail => ?_⟩
  have hnot {d e : Char} (he : e ≠ ' ') : ¬(c = d ∧ ([] ++ tail).head? = some e) :=
    fun h => nomatch head?_append_atBlank htail he h.2
  rw [scan_operator hc (hnot (by decide)) (hnot (by decide))]
  have hfind := find?_operatorChars_append (w := [c]) htail
  rw [hnone] at hfind
  simp only [operator, List.nil_append, List.cons_append] at hfind ⊢
  rw [hfind]

/-- Each operator is found in the table by the spelling it is rendered in. -/
theorem readable_operator {op : List Char × Token} (hop : op ∈ operatorChars) : Readable op.2 := by
  -- read off the table, row by row
  have hbegins : ∀ op ∈ operatorChars, op.2.render.toList.head?.any beginsOperator = true := by
    decide +kernel
  have hslash : ∀ op ∈ operatorChars, op.2.render.toList.head? ≠ some '/' := by decide +kernel
  have hdash : ∀ op ∈ operatorChars, op.2.render.toList.head? = some '-' →
      op.2.render.toList.tail.head? = some '>' := by decide +kernel
  have hfind : ∀ op ∈ operatorChars, operatorChars.find?
      (fun o => o.1.isPrefixOf op.2.render.toList) =
      some (op.2.render.toList, op.2) := by decide +kernel
  have hbegins := hbegins op hop
  have hslash := hslash op hop
  have hdash := hdash op hop
  have hfind := hfind op hop
  rcases hrender : op.2.render.toList with _ | ⟨c, cs⟩
  · rw [hrender] at hbegins
    cases hbegins
  rw [hrender] at hbegins hslash hdash hfind
  refine ⟨c, cs, hrender, fun tail htail => ?_⟩
  rw [scan_operator hbegins]
  · have happend := find?_operatorChars_append (w := c :: cs) htail
    rw [hfind] at happend
    rw [operator, ← List.cons_append, happend]
    simp
  · rintro ⟨rfl, h⟩
    have hnext := hdash rfl
    rw [List.tail_cons, head?_append_atBlank htail (by decide) h] at hnext
    cases hnext
  · rintro ⟨rfl, -⟩
    exact hslash rfl

theorem readable_string {cs body rest : List Char} (h : quotedBody '\'' cs = some (body, rest)) :
    Readable (.string (String.ofList body)) := by
  refine ⟨'\'', body ++ ['\''], by simp [Token.render], fun tail htail => ?_⟩
  show quotedToken .string (quotedBody '\'' (body ++ ['\''] ++ tail)) = _
  rw [List.append_assoc, List.singleton_append, quotedBody_append h (htail.stops rfl)]
  rfl

theorem readable_quoted (q : Quote) {cs body rest : List Char}
    (h : quotedBody q.closing cs = some (body, rest)) :
    Readable (.word (some q) (String.ofList body)) := by
  refine ⟨q.opening, body ++ [q.closing], by simp [Token.render], fun tail htail => ?_⟩
  have hscan : scan q.opening (body ++ [q.closing] ++ tail) =
      quotedToken (.word (some q)) (quotedBody q.closing (body ++ [q.closing] ++ tail)) := by
    cases q <;> rfl
  have hstops : Stops (· == q.closing) tail := htail.stops (by cases q <;> rfl)
  rw [hscan, List.append_assoc, List.singleton_append, quotedBody_append h hstops]
  rfl

theorem readable_nationalString {cs body rest : List Char}
    (h : quotedBody '\'' cs = some (body, rest)) :
    Readable (.nationalString (String.ofList body)) := by
  refine ⟨'N', '\'' :: (body ++ ['\'']), by simp [Token.render], fun tail htail => ?_⟩
  show quotedToken .nationalString (quotedBody '\'' (body ++ ['\''] ++ tail)) = _
  rw [List.append_assoc, List.singleton_append, quotedBody_append h (htail.stops rfl)]
  rfl

theorem readable_hexString {body : List Char}
    (h : ∀ tail, AtBlank tail → hexBody (body ++ '\'' :: tail) = some (body, tail)) :
    Readable (.hexString (String.ofList body)) := by
  refine ⟨'X', '\'' :: (body ++ ['\'']), by simp [Token.render], fun tail htail => ?_⟩
  show quotedToken .hexString (hexBody (body ++ ['\''] ++ tail)) = _
  rw [List.append_assoc, List.singleton_append, h tail htail]
  rfl

theorem readable_word {c : Char} {cs : List Char} (hspace : isSpace c = false)
    (hc : isWordStart c = true) :
    Readable (.word none (String.ofList ([c] ++ cs.takeWhile isWordPart))) := by
  refine ⟨c, cs.takeWhile isWordPart, by simp [Token.render], fun tail htail => ?_⟩
  have hpart : Stops isWordPart tail := htail.stops rfl
  -- an `N` or an `X` would begin a string if a quote came next, but no word goes on with one
  have hquote : (cs.takeWhile isWordPart ++ tail).head? ≠ some '\'' := by
    intro hhead
    have hmem := List.mem_of_mem_head? (head?_append_atBlank htail (by decide) hhead)
    have hword := of_mem_takeWhile hmem
    revert hword
    decide
  have hrow := takeWhile_append (fun _ => of_mem_takeWhile) hpart (w := cs.takeWhile isWordPart)
  have hrest := dropWhile_append (fun _ => of_mem_takeWhile) hpart (w := cs.takeWhile isWordPart)
  simp only [scan, hspace, hc, hquote, beq_iff_eq, Bool.and_eq_true, and_false, Bool.false_eq_true,
    if_false, if_true, rowToken, hrow, hrest]

theorem eq_of_isDigit {c : Char} (h : c.isDigit = true) : ∃ k :
    Fin 10, c = Char.ofNat (48 + k) := by
  simp only [Char.isDigit, Bool.and_eq_true, decide_eq_true_eq, UInt32.le_iff_toNat_le] at h
  refine ⟨⟨c.toNat - 48, ?_⟩, ?_⟩
  · have hlt : c.toNat ≤ 57 := h.2
    omega
  · have hge : 48 ≤ c.toNat := h.1
    rw [show 48 + (c.toNat - 48) = c.toNat by omega, Char.ofNat_toNat]

theorem scan_numeral {c : Char} (cs : List Char) (hc : c.isDigit = true ∨ c = '.') :
    scan c cs = .token (numeral (c :: cs)).1 (numeral (c :: cs)).2 := by
  have hfacts : isSpace c = false ∧ isWordStart c = false ∧ c ≠ '\'' ∧ c ≠ '"' ∧
      c ≠ Char.ofNat 0x60 ∧
      c ≠ '[' := by
    rcases hc with hc | rfl
    · obtain ⟨k, rfl⟩ := eq_of_isDigit hc
      revert k
      decide
    · decide
  obtain ⟨hspace, hword, hquote, hdouble, hback, hbracket⟩ := hfacts
  obtain ⟨hN, hn, hX, hx⟩ := not_stringLetter hword
  unfold scan
  simp [hspace, hword, hquote, hdouble, hback, hbracket, hN, hn, hX, hx, hc]

theorem readable_number {c : Char} {cs rest : List Char} {text : String} {long : Bool}
    (hc : c.isDigit = true ∨ c = '.') (h : numeral (c :: cs) = (.number text long, rest)) :
    Readable (.number text long) := by
  have hhead : ∃ m, (mantissa (c :: cs)).1 = c :: m := by
    rcases hc with hc | rfl
    · rw [mantissa.eq_def, List.takeWhile_cons_of_pos hc]
      dsimp only
      split
      · exact ⟨_, rfl⟩
      · exact ⟨_, rfl⟩
    · exact ⟨_, rfl⟩
  obtain ⟨m, hm⟩ := hhead
  have htext := (numeral_text h).2
  rw [hm] at htext
  have hrender : (Token.number text long).render.toList =
      c :: (m ++ (exponent (mantissa (c :: cs)).2).1 ++ (if long then ['L'] else [])) := by
    cases long <;> simp [Token.render, htext]
  refine ⟨c, _, hrender, fun tail htail => ?_⟩
  have hnumeral := numeral_append h htail
  rw [hrender, List.cons_append] at hnumeral
  rw [scan_numeral _ hc, hnumeral]

theorem readable_period : Readable .period := by
  refine ⟨'.', [], rfl, fun tail htail => ?_⟩
  have hnumeral := numeral_period htail
  show Scan.token (numeral ('.' :: ([] ++ tail))).1 (numeral ('.' :: ([] ++ tail))).2 = _
  rw [List.nil_append, hnumeral]

theorem readable_placeholder (start : Char) (hstart : start = '?' ∧ p = isNumber ∨
    start = '$' ∧ p = fun d => isLetterOrNumber d || d = '_' || d = '$') (cs : List Char) :
    Readable (.placeholder (String.ofList ([start] ++ cs.takeWhile p))) := by
  refine ⟨start, cs.takeWhile p, by simp [Token.render], fun tail htail => ?_⟩
  have hscan : scan start (cs.takeWhile p ++ tail) =
      rowToken .placeholder [start] p (cs.takeWhile p ++ tail) := by
    rcases hstart with ⟨rfl, rfl⟩ | ⟨rfl, rfl⟩ <;> rfl
  have hblank : p ' ' = false := by
    rcases hstart with ⟨-, rfl⟩ | ⟨-, rfl⟩ <;> decide +kernel
  have hrow :=
    takeWhile_append (fun _ => of_mem_takeWhile) (htail.stops hblank) (w := cs.takeWhile p)
  have hrest :=
    dropWhile_append (fun _ => of_mem_takeWhile) (htail.stops hblank) (w := cs.takeWhile p)
  rw [hscan, rowToken, hrow, hrest]

theorem readable_numeral {c : Char} {cs : List Char} (hc : c.isDigit = true ∨ c = '.') :
    Readable (numeral (c :: cs)).1 := by
  rcases hnumeral : numeral (c :: cs) with ⟨t, rest⟩
  have hshape := hnumeral
  unfold numeral at hshape
  split at hshape
  · next hex _ _ =>
    cases hshape
    exact readable_hexString fun tail htail =>
      hexFrom_digits (fun _ => of_mem_takeWhile) (htail.stops rfl)
  · dsimp only at hshape
    split at hshape
    · cases hshape
      exact readable_period
    · unfold numeralTail at hshape
      dsimp only at hshape
      split at hshape <;> cases hshape <;> exact readable_number hc hnumeral

theorem readable_of_operator {c : Char} {cs : List Char} (hc : beginsOperator c = true) :
    Readable (operator c cs).1 := by
  unfold operator
  split
  · next spelling t hfind =>
    exact readable_operator (List.mem_of_find?_eq_some hfind)
  · next hnone =>
    apply readable_symbol hc
    rw [List.find?_eq_none] at hnone ⊢
    intro op hop hprefix
    -- a spelling before the one character would be one before the whole text
    rw [List.isPrefixOf_iff_prefix] at hprefix
    apply hnone op hop
    rw [List.isPrefixOf_iff_prefix]
    exact hprefix.trans ⟨cs, rfl⟩

/-- Whether the token at the front of a text, if there is one, is readable. -/
def ReadsBack (found : Scan) : Prop := ∀ t rest, found = .token t rest → Readable t

theorem readsBack_token {t : Token} {rest : List Char} (ht : Readable t) :
    ReadsBack (.token t rest) := by
  intro t' rest' h
  cases h
  exact ht

theorem readsBack_quotedToken {make : String → Token} {body : Option (List Char × List Char)}
    (hmake : ∀ text rest, body = some (text, rest) → Readable (make (String.ofList text))) :
    ReadsBack (quotedToken make body) := by
  unfold quotedToken
  split
  · exact readsBack_token (hmake _ _ rfl)
  · exact fun _ _ h => nomatch h

theorem readsBack_ite {q : Prop} [Decidable q] {x y : Scan} (hx : q → ReadsBack x)
    (hy : ¬q → ReadsBack y) :
    ReadsBack (if q then x else y) := by
  by_cases h : q
  · rw [if_pos h]
    exact hx h
  · rw [if_neg h]
    exact hy h

/-- Every token that the lexer reads is readable. -/
theorem scan_readsBack (c : Char) (cs : List Char) : ReadsBack (scan c cs) := by
  have hblank {rest : List Char} : ReadsBack (.blank rest) := fun _ _ h => nomatch h
  unfold scan
  refine readsBack_ite (fun _ => hblank) fun hspace => ?_
  refine readsBack_ite (fun _ => readsBack_quotedToken fun _ _ => readable_nationalString) fun _ =>
    ?_
  refine readsBack_ite (fun _ => readsBack_quotedToken fun _ _ hbody =>
    readable_hexString fun _ htail =>
    hexBody_append hbody (htail.stops rfl)) fun _ => ?_
  refine readsBack_ite (fun hword => readsBack_token (readable_word (by simpa using hspace) hword))
    fun hword => ?_
  refine readsBack_ite (fun _ => readsBack_quotedToken fun _ _ => readable_string) fun hquote => ?_
  refine readsBack_ite (fun _ => readsBack_quotedToken fun _ _ =>
    readable_quoted .double) fun hdouble => ?_
  refine readsBack_ite (fun _ => readsBack_quotedToken fun _ _ =>
    readable_quoted .backtick) fun hback => ?_
  refine readsBack_ite (fun _ => readsBack_quotedToken fun _ _ => readable_quoted .bracket)
    fun hbracket => ?_
  refine readsBack_ite (fun h => readsBack_token (readable_numeral (by simpa using h)))
    fun hnumeral => ?_
  refine readsBack_ite (fun _ => hblank) fun _ => ?_
  refine readsBack_ite (fun _ => ?_) fun _ => ?_
  · split
    · exact hblank
    · exact fun _ _ h => nomatch h
  refine readsBack_ite (fun _ => readsBack_token (readable_placeholder '?' (.inl ⟨rfl, rfl⟩) cs))
    fun hmark => ?_
  refine readsBack_ite (fun _ => readsBack_token (readable_placeholder '$' (.inr ⟨rfl, rfl⟩) cs))
    fun hdollar => ?_
  apply readsBack_token
  apply readable_of_operator
  rw [Bool.or_eq_true, decide_eq_true_eq, not_or] at hnumeral
  simp only [beginsOperator, Bool.not_eq_true', Bool.or_eq_false_iff, beq_eq_false_iff_ne]
  refine ⟨⟨⟨⟨⟨⟨⟨⟨⟨?_, ?_⟩, hquote⟩, hdouble⟩, hback⟩, hbracket⟩, ?_⟩, hnumeral.2⟩, hmark⟩, hdollar⟩
  · exact Bool.eq_false_iff.2 hspace
  · exact Bool.eq_false_iff.2 hword
  · exact Bool.eq_false_iff.2 hnumeral.1

/-- Readable tokens are told apart by their spelling. -/
theorem Readable.eq_of_render {t u : Token} (ht : Readable t) (hu : Readable u)
    (h : t.render = u.render) :
    t = u := by
  obtain ⟨c, cs, hrender, hscan⟩ := ht
  obtain ⟨d, ds, hrender', hscan'⟩ := hu
  rw [h, hrender'] at hrender
  cases hrender
  have hread := hscan [] atBlank_nil
  rw [hscan' [] atBlank_nil] at hread
  cases hread
  rfl

theorem readable_semicolon : Readable .semicolon := by
  have htable : ([';'], Token.semicolon) ∈ operatorChars := by decide +kernel
  exact readable_operator htable

theorem Readable.ne_symbol_semicolon {t : Token} (h : Readable t) : t ≠ .symbol ";" := by
  rintro rfl
  cases h.eq_of_render readable_semicolon rfl

/-- No rendering of a readable token begins with a blank. -/
theorem Readable.isSpace_head {t : Token} (h : Readable t) :
    ∃ c cs, t.render.toList = c :: cs ∧ isSpace c = false ∧
      ∀ tail, AtBlank tail → scan c (cs ++ tail) = .token t tail := by
  obtain ⟨c, cs, hrender, hscan⟩ := h
  refine ⟨c, cs, hrender, ?_, hscan⟩
  cases hspace : isSpace c with
  | false => rfl
  | true =>
    have hread := hscan [] atBlank_nil
    unfold scan at hread
    rw [if_pos hspace] at hread
    cases hread

theorem Readable.stops {t : Token} (ht : Readable t) (tail : List Char) :
    Stops isSpace (t.render.toList ++ tail) := by
  obtain ⟨c, cs, hrender, hspace, -⟩ := ht.isSpace_head
  rw [hrender]
  exact stops_cons.2 hspace

end Lexer

open Lexer

/-! ## Whole texts -/

theorem tokensFrom_token {done : List Token} {c : Char} {cs rest : List Char} {t : Token}
    (h : scan c cs = .token t rest) : tokensFrom done (c :: cs) = tokensFrom (t :: done) rest := by
  rw [tokensFrom]
  split
  · next hscan =>
    rw [h] at hscan
    cases hscan
    rfl
  · next hscan => rw [h] at hscan; cases hscan
  · next hscan => rw [h] at hscan; cases hscan

theorem tokensFrom_blank {done : List Token} {c : Char} {cs rest : List Char}
    (h : scan c cs = .blank rest) : tokensFrom done (c :: cs) = tokensFrom done rest := by
  rw [tokensFrom]
  split
  · next hscan => rw [h] at hscan; cases hscan
  · next hscan =>
    rw [h] at hscan
    cases hscan
    rfl
  · next hscan => rw [h] at hscan; cases hscan

/-- A space before something that is no space is a blank of its own. -/
theorem tokensFrom_space {done : List Token} {tail : List Char} (htail : Stops isSpace tail) :
    tokensFrom done (' ' :: tail) = tokensFrom done tail := by
  apply tokensFrom_blank
  show Scan.blank (tail.dropWhile isSpace) = _
  rw [dropWhile_of_stops htail]

/-- A readable token is read up to the space behind it. -/
theorem tokensFrom_spaced {done : List Token} {t : Token} {tail : List Char} (ht : Readable t)
    (htail : Stops isSpace tail) :
    tokensFrom done (t.render.toList ++ ' ' :: tail) = tokensFrom (t :: done) tail := by
  obtain ⟨c, cs, hrender, hscan⟩ := ht
  rw [hrender, List.cons_append, tokensFrom_token (hscan _ fun e he => (Option.mem_some.1 he).symm),
    tokensFrom_space htail]

theorem tokensFrom_readable {done ts : List Token} {cs : List Char} (hdone : ∀ t ∈ done, Readable t)
    (h : tokensFrom done cs = some ts) : ∀ t ∈ ts, Readable t := by
  fun_induction tokensFrom done cs with
  | case1 done =>
    cases h
    intro t ht
    exact hdone t (List.mem_reverse.1 ht)
  | case2 done c cs t rest hscan ih =>
    refine ih (fun u hu => ?_) h
    rcases List.mem_cons.1 hu with rfl | hu
    · exact scan_readsBack c cs u rest hscan
    · exact hdone u hu
  | case3 done c cs rest hscan ih => exact ih hdone h
  | case4 => cases h

theorem tokenize?_readable {sql : String} {ts : List Token} (h : tokenize? sql = some ts) :
    ∀ t ∈ ts, Readable t :=
  tokensFrom_readable (List.forall_mem_nil _) h

theorem tokens_readable (sql : String) : ∀ t ∈ tokens sql, Readable t := by
  rcases h : tokenize? sql with _ | ts
  · intro t ht
    rw [tokens, h] at ht
    cases ht
  · rw [tokens, h]
    exact tokenize?_readable h

theorem tokensFrom_render {done ts : List Token} (h : ∀ t ∈ ts, Readable t) :
    tokensFrom done (render ts).toList = some (done.reverse ++ ts) := by
  induction ts generalizing done with
  | nil => simp [render, tokensFrom]
  | cons t ts ih =>
    have ht := h t (List.mem_cons_self ..)
    rcases ts with _ | ⟨u, us⟩
    · obtain ⟨c, cs, hrender, hscan⟩ := ht
      have hchars : (render [t]).toList = c :: (cs ++ []) := by simp [render, hrender]
      rw [hchars, tokensFrom_token (hscan [] atBlank_nil), tokensFrom, List.reverse_cons]
    · have hchars : (render (t :: u :: us)).toList = t.render.toList ++ ' ' ::
          (render (u :: us)).toList := by
        simp [render, String.intercalate_cons_cons]
      have hrest : ∃ more, (render (u :: us)).toList = u.render.toList ++ more := by
        rcases us with _ | ⟨v, vs⟩ <;> simp [render, String.intercalate_cons_cons]
      obtain ⟨more, hmore⟩ := hrest
      have hstops : Stops isSpace (render (u :: us)).toList := by
        rw [hmore]
        exact (h u (by simp)).stops more
      rw [hchars, tokensFrom_spaced ht hstops, ih fun v hv => h v (List.mem_cons_of_mem _ hv)]
      simp

/-- Readable tokens are the tokens of their rendering. -/
theorem tokenize?_render {ts : List Token} (h : ∀ t ∈ ts, Readable t) :
    tokenize? (render ts) = some ts :=
  tokensFrom_render h

theorem tokens_render {ts : List Token} (h : ∀ t ∈ ts, Readable t) : tokens (render ts) = ts := by
  rw [tokens, tokenize?_render h, Option.getD_some]

end IndexAdvisor.Sql
