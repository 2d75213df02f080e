import IndexAdvisor.Json.Reader
import IndexAdvisor.Proofs.Json.Text

/-!
# Documents read back

A `Plain` value is one that a record can hold all through: nothing in it is foreign. Such a value
comes back from its document in two steps. Its tokens are found again where they end, which is in
doubt for a number only, as what comes after it might go on with it (`EndsNumber`); and the reader,
given the tokens of a value where a value may begin, has that value and all that was open before.

> `parse?_render`: a plain value is read back from its document.
-/

namespace IndexAdvisor.Json

/-- Whether nothing in a value is foreign. -/
inductive Plain : Json → Prop where
  | null : Plain .null
  | bool (b : Bool) : Plain (.bool b)
  | number (n : Int) : Plain (.number n)
  | string (s : String) : Plain (.string s)
  | array {items : List Json} (h : ∀ v ∈ items, Plain v) : Plain (.array items)
  | object {fields : List (String × Json)} (h : ∀ f ∈ fields, Plain f.2) : Plain (.object fields)

/-! ## Numbers -/

/-- Whether a text does not go on with a number that stands before it. -/
def EndsNumber (rest : List Char) : Prop :=
  ∀ c ∈ rest.head?, c.isDigit = false ∧ c ≠ '.' ∧ c ≠ 'e' ∧ c ≠ 'E'

theorem endsNumber_nil : EndsNumber [] := fun _ h => nomatch h

theorem endsNumber_cons {c : Char} (h : c.isDigit = false ∧ c ≠ '.' ∧ c ≠ 'e' ∧ c ≠ 'E')
    (cs : List Char) :
    EndsNumber (c :: cs) := fun _ hd => Option.some.inj hd ▸ h

theorem digitsValue_toDigits (n : Nat) : digitsValue (Nat.toDigits 10 n) = n := by
  have hvalue : Nat.ofDigitChars 10 (Nat.toDigits 10 n) 0 = n := Nat.ofDigitChars_ten_toDigits
  rwa [Nat.ofDigitChars_eq_foldl] at hvalue

namespace Lexer

theorem takeWhile_isDigit {ds rest : List Char} (hds : ∀ d ∈ ds, d.isDigit = true)
    (h : EndsNumber rest) :
    (ds ++ rest).takeWhile Char.isDigit = ds := by
  rw [List.takeWhile_append_of_pos hds]
  cases rest with
  | nil => simp
  | cons c cs => rw [List.takeWhile_cons, (h c rfl).1]; simp

theorem dropWhile_isDigit {ds rest : List Char} (hds : ∀ d ∈ ds, d.isDigit = true)
    (h : EndsNumber rest) :
    (ds ++ rest).dropWhile Char.isDigit = rest := by
  rw [List.dropWhile_append_of_pos hds]
  cases rest with
  | nil => simp
  | cons c cs => rw [List.dropWhile_cons, (h c rfl).1]; rfl

theorem afterDigits_of_endsNumber {rest : List Char} (h : EndsNumber rest) :
    afterDigits rest = some ([], rest) := by
  cases rest with
  | nil => rfl
  | cons c cs =>
    obtain ⟨-, hpoint, hlower, hupper⟩ := h c rfl
    have hfraction : fraction (c :: cs) = some ([], c :: cs) := by
      rw [fraction]
      rintro _ heq
      exact hpoint (List.cons.inj heq).1
    simp [afterDigits, hfraction, exponent, hlower, hupper]

/-- A number in decimal does not begin with the digit 0 unless it is 0. -/
theorem head?_toDigits {n : Nat} (h : 0 < n) : (Nat.toDigits 10 n).head? ≠ some '0' := by
  induction n using Nat.strongRecOn with
  | ind n ih =>
    by_cases hn : n < 10
    · rw [Nat.toDigits_of_lt_base hn]
      have hnonzero : ∀ m < 10, 0 < m → m.digitChar ≠ '0' := by decide
      simpa using hnonzero n hn h
    · rw [Nat.toDigits_of_base_le (by decide) (by omega), List.head?_append,
        List.head?_eq_some_head Nat.toDigits_ne_nil, Option.some_or, ← List.head?_eq_some_head]
      exact ih (n / 10) (by omega) (by omega)

theorem beginsNumber_toDigits (n : Nat) : beginsNumber (Nat.toDigits 10 n) = true := by
  have hne : (Nat.toDigits 10 n).isEmpty = false := by simp
  rcases Nat.eq_zero_or_pos n with rfl | hpos
  · decide
  · simp [beginsNumber, head?_toDigits hpos]

theorem isDigit_of_mem {n : Nat} : ∀ d ∈ Nat.toDigits 10 n, d.isDigit = true := fun _ hd =>
  Nat.isDigit_of_mem_toDigits (by decide) (by decide) hd

theorem unsigned_toDigits (negative : Bool) (n : Nat) {rest : List Char} (h : EndsNumber rest) :
    unsigned negative (Nat.toDigits 10 n ++ rest) =
      some (numberValue negative (Nat.toDigits 10 n) [], rest) := by
  rw [unsigned, takeWhile_isDigit isDigit_of_mem h, dropWhile_isDigit isDigit_of_mem h,
    if_pos (beginsNumber_toDigits n), afterDigits_of_endsNumber h]
  rfl

theorem scan_digit {c : Char} (hc : c.isDigit = true) (cs : List Char) :
    scan c cs = (unsigned false (c :: cs)).map fun read => (.leaf read.1, read.2) := by
  unfold scan
  split
  case h_12 => rw [if_pos hc]
  all_goals exact absurd hc (by decide)

end Lexer

/-! ## Tokens -/

theorem tokensFrom_scan {c : Char} {cs rest : List Char} {t : Token}
    (hspace : Lexer.isSpace c = false) (h : Lexer.scan c cs = some (t, rest)) (done : List Token) :
    tokensFrom done (c :: cs) = tokensFrom (t :: done) rest := by
  rw [tokensFrom, hspace, if_neg (by simp)]
  split
  · next hscan =>
    rw [h] at hscan
    cases hscan
    rfl
  · next hscan =>
    rw [h] at hscan
    cases hscan

theorem tokensFrom_text (s : String) (done : List Token) (rest : List Char) :
    tokensFrom done ((Token.text (some s)).chars ++ rest) =
      tokensFrom (.text (some s) :: done) rest := by
  have hscan : Lexer.scan '"' (escaped s ++ '"' :: rest) = some (.text (some s), rest) := by
    simp [Lexer.scan, readString?_escaped]
  simpa [Token.chars] using tokensFrom_scan (by decide) hscan done

theorem tokensFrom_number (n : Int) (done : List Token) {rest : List Char} (h : EndsNumber rest) :
    tokensFrom done (decimal n ++ rest) = tokensFrom (.leaf (.number n) :: done) rest := by
  cases n with
  | ofNat n =>
    have hvalue : Lexer.numberValue false (Nat.toDigits 10 n) [] = .number n := by
      simp [Lexer.numberValue, digitsValue_toDigits]
    have hread := Lexer.unsigned_toDigits false n h
    have hdigits := Lexer.isDigit_of_mem (n := n)
    rw [decimal]
    -- The scan is told by its first character, so the first digit has to be taken apart from the
    -- others.
    cases hcs : Nat.toDigits 10 n with
    | nil => exact absurd hcs Nat.toDigits_ne_nil
    | cons c cs =>
      rw [hvalue, hcs, List.cons_append] at hread
      have hc : c.isDigit = true := hdigits c (hcs ▸ List.mem_cons_self)
      have hspace : Lexer.isSpace c = false := by
        simp only [Lexer.isSpace, Bool.or_eq_false_iff, beq_eq_false_iff_ne]
        refine ⟨⟨⟨?_, ?_⟩, ?_⟩, ?_⟩ <;> rintro rfl <;> exact absurd hc (by decide)
      have hscan : Lexer.scan c (cs ++ rest) = some (.leaf (.number n), rest) := by
        rw [Lexer.scan_digit hc, hread]
        rfl
      exact tokensFrom_scan hspace hscan done
  | negSucc n =>
    have hvalue : Lexer.numberValue true (Nat.toDigits 10 (n + 1)) [] = .number (.negSucc n) := by
      simp [Lexer.numberValue, digitsValue_toDigits, Int.negSucc_eq]
    have hread := Lexer.unsigned_toDigits true (n + 1) h
    rw [hvalue] at hread
    exact tokensFrom_scan (by decide) (by simp [Lexer.scan, hread]) done

/-- Whether tokens are read back from their document, before a text that ends their last number. -/
def ReadBack (ts : List Token) : Prop :=
  ∀ (done : List Token) (rest : List Char), EndsNumber rest →
    tokensFrom done (ts.flatMap Token.chars ++ rest) = tokensFrom (ts.reverse ++ done) rest

/-- Whether tokens can stand after a number. -/
def EndNumber (ts : List Token) : Prop := ∀ rest, EndsNumber (ts.flatMap Token.chars ++ rest)

/-- Whether the end of a token shows in the token. -/
def Token.IsMark : Token → Prop
  | .leaf _ | .text none => False
  | _ => True

theorem Token.IsMark.read {t : Token} (h : t.IsMark) (done : List Token) (rest : List Char) :
    tokensFrom done (t.chars ++ rest) = tokensFrom (t :: done) rest := by
  cases t with
  | text s =>
    cases s with
    | none => exact h.elim
    | some s => exact tokensFrom_text s done rest
  | leaf v => exact h.elim
  | _ => exact tokensFrom_scan (by decide) rfl done

theorem readBack_nil : ReadBack [] := fun _ _ _ => rfl

theorem readBack_cons (t : Token) (ht : t.IsMark) {ts : List Token} (h : ReadBack ts) :
    ReadBack (t :: ts) := by
  intro done rest hrest
  rw [List.flatMap_cons, List.append_assoc, ht.read, h _ _ hrest]
  simp

theorem readBack_append {ts us : List Token} (hts : ReadBack ts) (hus : ReadBack us)
    (hend : EndNumber us) :
    ReadBack (ts ++ us) := by
  intro done rest hrest
  rw [List.flatMap_append, List.append_assoc, hts _ _ (hend rest), hus _ _ hrest]
  simp

theorem readBack_leaf {v : Json} (hread : ∀ done rest, EndsNumber rest →
    tokensFrom done (leafChars v ++ rest) = tokensFrom (.leaf v :: done) rest) :
      ReadBack [.leaf v] := by
  intro done rest hrest
  simpa [Token.chars] using hread done rest hrest

theorem endNumber_moreItems (vs : List Json) : EndNumber (moreItems vs) := by
  intro rest
  cases vs with
  | nil => exact endsNumber_cons (by decide) _
  | cons v vs => exact endsNumber_cons (by decide) _

theorem endNumber_moreFields (fs : List (String × Json)) : EndNumber (moreFields fs) := by
  intro rest
  cases fs with
  | nil => exact endsNumber_cons (by decide) _
  | cons f fs => exact endsNumber_cons (by decide) _

theorem readBack_moreItems {vs : List Json} (h : ∀ v ∈ vs, ReadBack v.tokens) :
    ReadBack (moreItems vs) := by
  induction vs with
  | nil =>
    rw [moreItems]
    exact readBack_cons .closeArray trivial readBack_nil
  | cons v vs ih =>
    have hrest := ih fun w hw => h w (List.mem_cons_of_mem v hw)
    rw [moreItems]
    exact readBack_cons .comma trivial
      (readBack_append (h v List.mem_cons_self) hrest (endNumber_moreItems vs))

theorem readBack_field {f : String × Json} {fs : List (String × Json)}
    (hvalue : ReadBack f.2.tokens) (hrest : ReadBack (moreFields fs)) :
    ReadBack (.text (some f.1) :: .colon :: (f.2.tokens ++ moreFields fs)) := by
  have htail := readBack_append hvalue hrest (endNumber_moreFields fs)
  exact readBack_cons (.text (some f.1)) trivial (readBack_cons .colon trivial htail)

theorem readBack_moreFields {fs : List (String × Json)} (h : ∀ f ∈ fs, ReadBack f.2.tokens) :
    ReadBack (moreFields fs) := by
  induction fs with
  | nil =>
    rw [moreFields]
    exact readBack_cons .closeObject trivial readBack_nil
  | cons f fs ih =>
    have hrest := ih fun g hg => h g (List.mem_cons_of_mem f hg)
    rw [moreFields]
    exact readBack_cons .comma trivial (readBack_field (h f List.mem_cons_self) hrest)

/-- The tokens of a plain value are read back. -/
theorem Plain.readBack {v : Json} (h : Plain v) : ReadBack v.tokens := by
  induction h with
  | null =>
    exact readBack_leaf fun done rest _ => tokensFrom_scan (by decide) (by simp [Lexer.scan]) done
  | bool b =>
    cases b <;> exact readBack_leaf fun done rest _ =>
      tokensFrom_scan (by decide) (by simp [Lexer.scan]) done
  | number n => exact readBack_leaf fun done rest hrest => tokensFrom_number n done hrest
  | string s =>
    rw [tokens]
    exact readBack_cons (.text (some s)) trivial readBack_nil
  | @array items _ ih =>
    cases items with
    | nil =>
      rw [tokens]
      exact readBack_cons .openArray trivial (readBack_cons .closeArray trivial readBack_nil)
    | cons v vs =>
      have hrest := readBack_moreItems fun w hw => ih w (List.mem_cons_of_mem v hw)
      rw [tokens]
      exact readBack_cons .openArray trivial
        (readBack_append (ih v List.mem_cons_self) hrest (endNumber_moreItems vs))
  | @object fields _ ih =>
    cases fields with
    | nil =>
      rw [tokens]
      exact readBack_cons .openObject trivial (readBack_cons .closeObject trivial readBack_nil)
    | cons f fs =>
      have hrest := readBack_moreFields fun g hg => ih g (List.mem_cons_of_mem f hg)
      rw [tokens]
      exact readBack_cons .openObject trivial (readBack_field (ih f List.mem_cons_self) hrest)

theorem tokenize?_render {v : Json} (h : Plain v) : tokenize? v.render = some v.tokens := by
  have hread := h.readBack [] [] endsNumber_nil
  rw [List.append_nil, List.append_nil] at hread
  rw [tokenize?, render, String.toList_ofList, hread, tokensFrom, List.reverse_reverse]

/-! ## The reader -/

/-- Whether a value may begin at a reading, and what is open around that value. -/
def Reading.Begins (outer : List Frame) : Reading → Prop
  | .value around => around = outer
  | .valueOrEnd around => .items [] :: around = outer
  | _ => False

theorem Reading.Begins.step? {outer : List Frame} {r : Reading} (h : r.Begins outer) {t : Token}
    (ht : t ≠ .closeArray) : r.step? t = begin? outer t := by
  cases r with
  | value => cases h; rfl
  | valueOrEnd => cases h; cases t <;> first | rfl | exact absurd rfl ht
  | _ => exact h.elim

/-- The fields of an open object, as the reader holds them. -/
def held (fs : List (String × Json)) : List (Option String × Json) :=
  (fs.map fun f => (some f.1, f.2)).reverse

theorem held_append (fs : List (String × Json)) (k : String) (v : Json) :
    (some k, v) :: held fs = held (fs ++ [(k, v)]) := by
  simp [held]

theorem closeObject_held (fs : List (String × Json)) : closeObject (held fs) = .object fs := by
  have hkeys : fs.mapM some = some fs := by
    induction fs with
    | nil => rfl
    | cons f fs ih => simp [ih]
  simp [closeObject, held, List.mapM_map, Function.comp_def, hkeys]

/-- Whether the tokens of a value have the reader come to that value. -/
def Read (v : Json) : Prop :=
  ∀ (outer : List Frame) (r : Reading), r.Begins outer →
    v.tokens.foldlM Reading.step? r = some (.after v outer)

theorem foldlM_moreItems {vs : List Json} (h : ∀ v ∈ vs, Read v) (v : Json) (done : List Json)
    (outer : List Frame) :
    (moreItems vs).foldlM Reading.step? (.after v (.items done :: outer)) =
      some (.after (.array (done.reverse ++ v :: vs)) outer) := by
  induction vs generalizing v done with
  | nil => simp [moreItems, Reading.step?]
  | cons w ws ih =>
    have hw := h w List.mem_cons_self (.items (v :: done) :: outer) (.value _) rfl
    have hrest := ih (fun u hu => h u (List.mem_cons_of_mem w hu)) w (v :: done)
    simp [moreItems, Reading.step?, hw, hrest]

theorem foldlM_moreFields {fs : List (String × Json)} (h : ∀ f ∈ fs, Read f.2) (k : String)
    (v : Json) (before : List (String × Json)) (outer : List Frame) :
    (moreFields fs).foldlM Reading.step? (.after v (.fields (held before) (some k) :: outer)) =
      some (.after (.object (before ++ (k, v) :: fs)) outer) := by
  induction fs generalizing k v before with
  | nil => simp [moreFields, Reading.step?, held_append, closeObject_held]
  | cons f fs ih =>
    have hf :=
      h f List.mem_cons_self (.fields (held (before ++ [(k, v)])) (some f.1) ::
        outer) (.value _) rfl
    have hrest := ih (fun g hg => h g (List.mem_cons_of_mem f hg)) f.1 f.2 (before ++ [(k, v)])
    simp [moreFields, Reading.step?, held_append, hf, hrest]

theorem read_array {vs : List Json} (h : ∀ v ∈ vs, Read v) : Read (.array vs) := by
  intro outer r hr
  have hopen : r.step? .openArray = some (.valueOrEnd outer) := hr.step? (by simp)
  cases vs with
  | nil =>
    rw [tokens, List.foldlM_cons, hopen]
    simp [Reading.step?]
  | cons v vs =>
    have hv := h v List.mem_cons_self (.items [] :: outer) (.valueOrEnd outer) rfl
    have hrest := foldlM_moreItems (fun w hw => h w (List.mem_cons_of_mem v hw)) v [] outer
    rw [tokens, List.foldlM_cons, hopen]
    simp [hv, hrest]

theorem read_object {fs : List (String × Json)} (h : ∀ f ∈ fs, Read f.2) : Read (.object fs) := by
  intro outer r hr
  have hopen : r.step? .openObject = some (.keyOrEnd outer) := hr.step? (by simp)
  cases fs with
  | nil =>
    rw [tokens, List.foldlM_cons, hopen]
    simp [Reading.step?]
  | cons f fs =>
    have hf := h f List.mem_cons_self (.fields [] (some f.1) :: outer) (.value _) rfl
    have hrest := foldlM_moreFields (fun g hg => h g (List.mem_cons_of_mem f hg)) f.1 f.2 [] outer
    rw [held, List.map_nil, List.reverse_nil] at hrest
    rw [tokens, List.foldlM_cons, hopen]
    simp [Reading.step?, hf, hrest]

theorem Plain.read {v : Json} (h : Plain v) : Read v := by
  induction h with
  | array _ ih => exact read_array ih
  | object _ ih => exact read_object ih
  | _ =>
    intro outer r hr
    rw [tokens, List.foldlM_cons, hr.step? (by simp)]
    rfl

theorem parse?_render {v : Json} (h : Plain v) : parse? v.render = some v := by
  have hread := h.read [] (.value []) rfl
  rw [parse?, tokenize?_render h, Option.bind_some, ofTokens?, hread]
  rfl

end IndexAdvisor.Json
