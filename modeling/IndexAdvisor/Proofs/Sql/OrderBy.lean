import IndexAdvisor.Proofs.Sql.SelectList
import IndexAdvisor.Sql.Lexer
import IndexAdvisor.Sql.OrderBy
import Mathlib.Tactic.Tauto

/-!
# Terms of ORDER BY that are numbers

A term that is a number means the column of the result at that place (`Positional`, `ResultColumn`).
The columns of the result are the items of the select list only as far as no item is a star, which
stands for any number of columns.

The reader takes the item at the place in any case.

> `sortTerms_positional_iff`: a number is resolved to the column it means exactly if the item at its
> place is no column, or no star stands before it and no comparison that cuts the list off.

Both gaps are met in `places_miscounted`.
-/

namespace IndexAdvisor.Sql

variable {ts term modifiers front : List Token} {place k : Nat} {text : String}

/-! ## Terms -/

/-- The terms of the outermost `ORDER BY`, in order. -/
def orderParts (ts : List Token) : List (List Token) :=
  match afterOrderBy? 0 ts with
  | none => []
  | some rest => splitCommas (takeOutside endsTerms 0 rest)

theorem sortTerms_eq (ts : List Token) : sortTerms ts =
    (orderParts ts).map fun term => resolveTerm (selectItems ts)
    (dropModifiers term.reverse).reverse := by
  rw [sortTerms, orderParts]
  cases afterOrderBy? 0 ts with
  | none => rfl
  | some rest => rfl

/-- Words about direction, nulls and collation that may follow the expression of a term. -/
inductive Modifiers : List Token → Prop where
  | nothing : Modifiers []
  | direction {t : Token} {rest : List Token} (ht : t.isKeyword "ASC" = true ∨
    t.isKeyword "DESC" = true)
      (hrest : Modifiers rest) : Modifiers (t :: rest)
  | nulls {n t : Token} {rest : List Token} (hn : n.isKeyword "NULLS" = true)
      (ht : t.isKeyword "FIRST" = true ∨ t.isKeyword "LAST" = true) (hrest : Modifiers rest) :
      Modifiers (n :: t :: rest)
  | collation {c name : Token} {rest : List Token} (hc : c.isKeyword "COLLATE" = true)
      (hname : name.name?.isSome = true) (hrest : Modifiers rest) : Modifiers (c :: name :: rest)

/-- A name is no word about direction. -/
theorem Token.not_direction {t : Token} (h : t.name?.isSome = true) :
    t.isKeyword "ASC" = false ∧ t.isKeyword "DESC" = false := by
  constructor
  · rw [← Bool.not_eq_true]
    intro hasc
    rw [name?_of_isKeyword (by decide) hasc] at h
    cases h
  · rw [← Bool.not_eq_true]
    intro hdesc
    rw [name?_of_isKeyword (by decide) hdesc] at h
    cases h

theorem dropModifiers_direction {t : Token}
    (ht : t.isKeyword "ASC" = true ∨ t.isKeyword "DESC" = true) (front : List Token) :
    dropModifiers (t :: front) = dropModifiers front := by
  have hdirection : (t.isKeyword "ASC" || t.isKeyword "DESC") = true := (Bool.or_eq_true ..).mpr ht
  have hnulls : (t.isKeyword "FIRST" || t.isKeyword "LAST") = false := by
    rcases ht with ht | ht
    · rw [Token.isKeyword_eq ht, Token.isKeyword_eq ht]
      rfl
    · rw [Token.isKeyword_eq ht, Token.isKeyword_eq ht]
      rfl
  cases front with
  | nil => exact if_pos hdirection
  | cons u front =>
    rw [dropModifiers, hnulls, Bool.and_false, if_neg Bool.false_ne_true, if_pos hdirection]

/-- Modifiers are dropped, whatever they follow. -/
theorem dropModifiers_append (h : Modifiers modifiers) (front : List Token) :
    dropModifiers (modifiers.reverse ++ front) = dropModifiers front := by
  induction h generalizing front with
  | nothing => rfl
  | @direction t rest ht _ ih =>
    rw [List.reverse_cons, List.append_assoc, ih]
    exact dropModifiers_direction ht front
  | @nulls n t rest hn ht _ ih =>
    have hboth : (n.isKeyword "NULLS" && (t.isKeyword "FIRST" || t.isKeyword "LAST")) = true := by
      rw [hn, Bool.true_and, Bool.or_eq_true]
      exact ht
    rw [List.reverse_cons, List.reverse_cons, List.append_assoc, List.append_assoc, ih]
    show dropModifiers (t :: n :: front) = dropModifiers front
    rw [dropModifiers, if_pos hboth]
  | @collation c name rest hc hname _ ih =>
    obtain ⟨hasc, hdesc⟩ := Token.not_direction hname
    have hnulls : c.isKeyword "NULLS" = false := by
      rw [Token.isKeyword_eq hc]
      rfl
    rw [List.reverse_cons, List.reverse_cons, List.append_assoc, List.append_assoc, ih]
    show dropModifiers (name :: c :: front) = dropModifiers front
    rw [dropModifiers, hnulls, Bool.false_and, if_neg Bool.false_ne_true, hasc, hdesc,
      Bool.or_false, if_neg Bool.false_ne_true, if_pos hc]

/-- A term that is a whole number, apart from its modifiers. -/
def Positional (term : List Token) (k : Nat) : Prop :=
  ∃ text long modifiers, term = .number text long :: modifiers ∧ Modifiers modifiers ∧
    parseDigits? text.toList = some k

theorem parseNat?_of_digits {max : Nat} (h : parseDigits? text.toList = some k) :
    parseNat? max text = if k ≤ max then some k else none := by
  have hsign : ∀ cs, text.toList ≠ '+' :: cs := by
    intro cs hcs
    rw [hcs] at h
    cases h
  have hparse : parseNat? max text = (parseDigits? text.toList).filter (· ≤ max) := by
    rw [parseNat?]
    split
    · next cs hcs => exact absurd hcs (hsign cs)
    · rfl
  rw [hparse, h, Option.filter_some]
  simp only [decide_eq_true_eq]

theorem resolveTerm_positional (h : Positional term k) (items : List SelectItem) :
    resolveTerm items (dropModifiers term.reverse).reverse =
      if k ≤ maxWord64 then itemColumn? items k else none := by
  obtain ⟨text, long, modifiers, rfl, hmodifiers, hk⟩ := h
  have hdrop : dropModifiers (Token.number text long :: modifiers).reverse =
      [.number text long] := by
    rw [List.reverse_cons, dropModifiers_append hmodifiers]
    rfl
  rw [hdrop]
  show (parseNat? maxWord64 text).bind (itemColumn? items) = _
  rw [parseNat?_of_digits hk]
  split
  · rfl
  · rfl

/-! ## Columns of the result -/

theorem selectItems_cutOff (ts : List Token) :
    ∃ read, CutOff (selectParts ts) read ∧ selectItems ts = read.map SelectItem.ofTokens := by
  rw [selectParts, selectItems]
  cases afterOutside? (·.isKeyword "SELECT") 0 ts with
  | none => exact ⟨[], .inl ⟨rfl, List.forall_mem_nil _⟩, rfl⟩
  | some rest =>
    refine ⟨_, itemsFrom_cutOff ?_ rfl (dropQuantifier rest), rfl⟩
    exact not_hasFrom_nil

/-- The reader finds the column of the item at a place, if no item before it is a comparison that
cuts the list off. -/
theorem itemColumn?_eq_some_iff {ref : ColumnRef} : itemColumn? (selectItems ts) k = some ref ↔
    0 < k ∧ ColumnAt (selectParts ts) (k - 1) ref ∧ ∀ item ∈ (selectParts ts).take (k - 1),
    ¬HasFrom item := by
  obtain ⟨read, hcut, hitems⟩ := selectItems_cutOff ts
  rw [← hcut.columnAt_iff, itemColumn?, hitems]
  split
  · next hzero => simp [hzero]
  · next hzero =>
    have hpositive : 0 < k := Nat.pos_of_ne_zero hzero
    simp only [List.getElem?_map, Option.bind_map, Option.bind_eq_some_iff, Function.comp_apply,
      column_ofTokens_eq_some_iff, hpositive, true_and]
    rfl

/-- The column of the result at a place, counted from one, as far as the select list tells: a star
among the first items leaves it open. -/
def ResultColumn (items : List (List Token)) (k : Nat) (ref : ColumnRef) : Prop :=
  (∀ item ∈ items.take k, ¬IsStar item) ∧ 0 < k ∧ ColumnAt items (k - 1) ref

/-- What a number in an `ORDER BY` is resolved to, and when this is the column that it means. -/
theorem sortTerms_positional_iff (hterm : (orderParts ts)[place]? = some term)
    (hk : Positional term k) :
    ∃ found, (sortTerms ts)[place]? = some found ∧
      (∀ ref, found = some ref ↔ 0 < k ∧ ColumnAt (selectParts ts) (k - 1) ref ∧ k ≤ maxWord64 ∧
        ∀ item ∈ (selectParts ts).take (k - 1), ¬HasFrom item) ∧
      ((∀ ref, found = some ref ↔ ResultColumn (selectParts ts) k ref) ↔
        ∀ ref, 0 < k → ColumnAt (selectParts ts) (k - 1) ref →
          ((∀ item ∈ (selectParts ts).take k, ¬IsStar item) ↔
            k ≤ maxWord64 ∧ ∀ item ∈ (selectParts ts).take (k - 1), ¬HasFrom item)) := by
  have hfound (ref : ColumnRef) : (if k ≤ maxWord64 then itemColumn? (selectItems ts) k else none) =
      some ref ↔
      0 < k ∧ ColumnAt (selectParts ts) (k - 1) ref ∧ k ≤ maxWord64 ∧
        ∀ item ∈ (selectParts ts).take (k - 1), ¬HasFrom item := by
    split
    · next hmax => rw [itemColumn?_eq_some_iff, and_iff_right hmax]
    · next hmax => simp [hmax]
  refine ⟨_, ?_, hfound, ?_⟩
  · rw [sortTerms_eq, List.getElem?_map, hterm, Option.map_some, resolveTerm_positional hk]
  · simp only [hfound, ResultColumn]
    constructor
    · intro h ref hpositive hcolumn
      have href := h ref
      tauto
    · intro h ref
      have href := h ref
      tauto

/-- A number is resolved to the second item of a list without stars, and its direction is of no
account. -/
theorem sortTerms_positional_descending :
    let ts := tokens "SELECT name, age AS years, age + 1 FROM t ORDER BY name, 02 DESC NULLS LAST"
    let term : List Token :=
      [.number "02" false, .word none "DESC", .word none "NULLS", .word none "LAST"]
    (orderParts ts)[1]? = some term ∧ Positional term 2 ∧
      ∀ ref, (sortTerms ts)[1]? = some (some ref) ↔ ResultColumn (selectParts ts) 2 ref := by
  intro ts term
  have hterm : (orderParts ts)[1]? = some term := by decide +kernel
  have hmodifiers : Modifiers [.word none "DESC", .word none "NULLS", .word none "LAST"] :=
    .direction (.inr rfl) (.nulls rfl (.inr rfl) .nothing)
  have hk : Positional term 2 := ⟨"02", false, _, rfl, hmodifiers, by decide +kernel⟩
  obtain ⟨found, hfound, -, hiff⟩ := sortTerms_positional_iff hterm hk
  refine ⟨hterm, hk, ?_⟩
  have hitems : selectParts ts = [[.word none "name"],
      [.word none "age", .word none "AS", .word none "years"], [.word none "age", .symbol "+",
        .number "1" false]] := by decide +kernel
  have hmeant := hiff.2 fun ref _ _ => by
    have hnoStar : ∀ item ∈ (selectParts ts).take 2, ¬IsStar item := by
      simp [hitems, IsStar]
    have hnoFrom : ∀ item ∈ (selectParts ts).take 1, ¬HasFrom item := by
      rw [hitems]
      simp only [List.take_succ_cons, List.take_zero, List.mem_singleton, forall_eq]
      rintro ⟨front, word, after, hsplit, hword, -⟩
      have hmem : word ∈ [Token.word none "name"] := hsplit ▸ by simp
      rw [List.mem_singleton.1 hmem] at hword
      cases hword
    exact ⟨fun _ => ⟨by decide, hnoFrom⟩, fun _ => hnoStar⟩
  intro ref
  rw [hfound, Option.some_inj]
  exact hmeant ref

/-- A statement with a star before the item at the place it sorts by. -/
def starFirst : List Token := tokens "SELECT *, b FROM t ORDER BY 2"

/-- A statement with a comparison before the item at the place it sorts by. -/
def comparisonFirst : List Token := tokens "SELECT a IS DISTINCT FROM b, c FROM t ORDER BY 2"

/-- Behind a star the item at a place is taken for the column of the result at that place, and
behind a comparison that has the word `FROM` no item is found. -/
theorem places_miscounted :
    (orderParts starFirst)[0]? = some [.number "2" false] ∧
      (orderParts comparisonFirst)[0]? = some [.number "2" false] ∧
      Positional [.number "2" false] 2 ∧
      sortTerms starFirst = [some { column := "b" }] ∧
        ¬ResultColumn (selectParts starFirst) 2 { column := "b" } ∧
      sortTerms comparisonFirst = [none] ∧
        ResultColumn (selectParts comparisonFirst) 2 { column := "c" } := by
  have hk : Positional [.number "2" false] 2 := ⟨"2", false, [], rfl, .nothing, by decide +kernel⟩
  refine ⟨by decide +kernel, by decide +kernel, hk, by decide +kernel, ?_, by decide +kernel, ?_⟩
  · rintro ⟨hnoStar, -⟩
    have hitems : selectParts starFirst = [[.symbol "*"], [.word none "b"]] := by decide +kernel
    rw [hitems] at hnoStar
    exact hnoStar [.symbol "*"] (by simp) (.inl rfl)
  · have hitems : selectParts comparisonFirst =
        [[.word none "a", .word none "IS", .word none "DISTINCT",
        .word none "FROM", .word none "b"], [.word none "c"]] := by decide +kernel
    rw [hitems]
    exact ⟨by simp [IsStar], by decide, [.word none "c"], rfl, [.word none "c"], [],
      rfl, rfl, .nothing⟩

end IndexAdvisor.Sql
