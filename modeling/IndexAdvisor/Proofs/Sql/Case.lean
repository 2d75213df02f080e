import IndexAdvisor.Sql.NullTest
import IndexAdvisor.Sql.OrderBy
import IndexAdvisor.Sql.Source

/-!
# Words in small letters

Keywords, names and aliases are compared without regard to case. So a statement whose words are
written in small letters (`Token.lower`) is cut into the same clauses and names the same tables and
columns, in small letters: whatever is read from tokens commutes with `lower`, from one word
(`name?_lower`) and one pair of parentheses (`splitClose_lower`) to the tables of a statement
(`tableRefs_lower`), its `ORDER BY` (`sortTerms_lower`) and its tests for NULL
(`allNullTests_lower`).

The tests for NULL are the exception: a test that is repeated counts once, but not if it is repeated
in other letters. So `allNullTests` keeps every repetition.
-/

namespace IndexAdvisor

/-! ## Names -/

@[simp]
theorem nameKey_lowerCase (a : String) : nameKey (lowerCase a) = nameKey a := by
  rw [nameKey, lowerCase, String.toList_ofList, List.map_map, nameKey]
  congr 1
  funext c
  exact toLower_toLower c

@[simp]
theorem sameName_lowerCase_left (a b : String) : sameName (lowerCase a) b = sameName a b := by
  rw [sameName, nameKey_lowerCase, sameName]

@[simp]
theorem sameName_lowerCase_right (a b : String) : sameName a (lowerCase b) = sameName a b := by
  rw [sameName, nameKey_lowerCase, sameName]

theorem lowerCase_eq_iff {a b : String} : lowerCase a = lowerCase b ↔ sameName a b = true := by
  rw [lowerCase, lowerCase, String.ofList_inj, sameName_iff, nameKey, nameKey]

namespace Sql

/-! ## Words -/

/-- A token with its word, if it is one, in small letters. -/
def Token.lower : Token → Token
  | .word quote text => .word quote (lowerCase text)
  | t => t

/-- A reference to a column in small letters. -/
def ColumnRef.lower (r : ColumnRef) : ColumnRef := ⟨r.qualifier.map lowerCase, lowerCase r.column⟩

/-- A table of a statement in small letters. -/
def TableRef.lower (r : TableRef) : TableRef := ⟨lowerCase r.name, r.aliasName.map lowerCase⟩

/-- An item of a select list in small letters. -/
def SelectItem.lower (i : SelectItem) : SelectItem :=
  ⟨i.column.map ColumnRef.lower, i.aliasName.map lowerCase⟩

/-- A test for NULL in small letters. -/
def NullTest.lower (t : NullTest) : NullTest := { t with column := t.column.lower }

namespace Token

variable (t : Token)

@[simp]
theorem isKeyword_lower (keyword : String) : t.lower.isKeyword keyword = t.isKeyword keyword := by
  cases t with
  | word quote text =>
    cases quote with
    | none => exact sameName_lowerCase_left text keyword
    | some q => rfl
  | _ => rfl

@[simp]
theorem isOneOf_lower (keywords : List String) : t.lower.isOneOf keywords = t.isOneOf keywords := by
  rw [isOneOf, isOneOf]
  congr 1
  funext keyword
  exact t.isKeyword_lower keyword

@[simp]
theorem name?_lower : t.lower.name? = t.name?.map lowerCase := by
  cases t with
  | word quote text =>
    cases quote with
    | none =>
      have hreserved := isOneOf_lower (.word none text) reserved
      rw [lower] at hreserved ⊢
      rw [name?, name?, hreserved]
      split
      · rfl
      · rfl
    | some q => rfl
  | _ => rfl

@[simp]
theorem depthAfter_lower (d : Nat) : t.lower.depthAfter d = t.depthAfter d := by
  cases t <;> rfl

@[simp]
theorem lower_eq_openParen : t.lower = .openParen ↔ t = .openParen := by
  cases t <;> simp [lower]

@[simp]
theorem lower_eq_closeParen : t.lower = .closeParen ↔ t = .closeParen := by
  cases t <;> simp [lower]

@[simp]
theorem lower_eq_comma : t.lower = .comma ↔ t = .comma := by
  cases t <;> simp [lower]

@[simp]
theorem lower_eq_semicolon : t.lower = .semicolon ↔ t = .semicolon := by
  cases t <;> simp [lower]

end Token

/-! ## Parentheses, commas and clauses -/

theorem splitClose_cons (d : Nat) (t : Token) (ts : List Token) : splitClose d (t :: ts) =
    if d = 0 ∧ t = .closeParen then some ([], ts)
    else (splitClose (t.depthAfter d) ts).map fun r => (t :: r.1, r.2) := by
  rw [splitClose.eq_def]
  split
  · next h => cases h
  · next h =>
    cases h
    rw [if_pos ⟨rfl, rfl⟩]
  · next hno h =>
    cases h
    rw [if_neg]
    rintro ⟨rfl, rfl⟩
    exact hno rfl rfl

theorem splitClose_lower (d : Nat) (ts : List Token) : splitClose d (ts.map Token.lower) =
    (splitClose d ts).map fun r => (r.1.map Token.lower, r.2.map Token.lower) := by
  induction ts generalizing d with
  | nil => rfl
  | cons t ts ih =>
    rw [List.map_cons, splitClose_cons, splitClose_cons, ih]
    simp only [Token.lower_eq_closeParen, Token.depthAfter_lower]
    split
    · rfl
    · rw [Option.map_map, Option.map_map]
      rfl

theorem enclosed?_lower (ts : List Token) : enclosed? (ts.map Token.lower) =
    (enclosed? ts).map fun r => (r.1.map Token.lower, r.2.map Token.lower) := splitClose_lower 0 ts

theorem takeOutside_lower {stop : Token → Bool} (hstop : ∀ t : Token, stop t.lower = stop t)
    (d : Nat) (ts : List Token) :
    takeOutside stop d (ts.map Token.lower) = (takeOutside stop d ts).map Token.lower := by
  induction ts generalizing d with
  | nil => rfl
  | cons t ts ih =>
    rw [List.map_cons, takeOutside, takeOutside, hstop, ih, Token.depthAfter_lower]
    split
    · rfl
    · rfl

theorem afterOutside?_lower {start : Token → Bool} (hstart : ∀ t : Token, start t.lower = start t)
    (d : Nat) (ts : List Token) :
    afterOutside? start d (ts.map Token.lower) = (afterOutside? start d ts).map
    (List.map Token.lower) := by
  induction ts generalizing d with
  | nil => rfl
  | cons t ts ih =>
    rw [List.map_cons, afterOutside?, afterOutside?, hstart, ih, Token.depthAfter_lower]
    split
    · rfl
    · rfl

theorem splitCommasFrom_cons (part : List Token) (d : Nat) (t : Token) (ts : List Token) :
    splitCommasFrom part d (t :: ts) =
      if d = 0 ∧ t = .comma then part.reverse :: splitCommasFrom [] 0 ts
      else splitCommasFrom (t :: part) (t.depthAfter d) ts := by
  rw [splitCommasFrom.eq_def]
  split
  · next h => cases h
  · next h =>
    cases h
    rw [if_pos ⟨rfl, rfl⟩]
  · next hno h =>
    cases h
    rw [if_neg]
    rintro ⟨rfl, rfl⟩
    exact hno rfl rfl

theorem splitCommasFrom_lower (part : List Token) (d : Nat) (ts : List Token) :
    splitCommasFrom (part.map Token.lower) d (ts.map Token.lower) =
      (splitCommasFrom part d ts).map (List.map Token.lower) := by
  induction ts generalizing part d with
  | nil =>
    rw [List.map_nil, splitCommasFrom, splitCommasFrom, List.isEmpty_map]
    split
    · rfl
    · rw [← List.map_reverse]
      rfl
  | cons t ts ih =>
    rw [List.map_cons, splitCommasFrom_cons, splitCommasFrom_cons, ← List.map_reverse]
    simp only [Token.lower_eq_comma, Token.depthAfter_lower]
    split
    · rw [List.map_cons, ← ih, List.map_nil]
    · rw [← ih, List.map_cons]

theorem splitCommas_lower (ts : List Token) :
    splitCommas (ts.map Token.lower) = (splitCommas ts).map (List.map Token.lower) :=
  splitCommasFrom_lower [] 0 ts

/-! ## References -/

@[simp]
theorem ofTokens?_lower (ts : List Token) :
    ColumnRef.ofTokens? (ts.map Token.lower) = (ColumnRef.ofTokens? ts).map ColumnRef.lower := by
  rcases ts with _ | ⟨q, _ | ⟨m, _ | ⟨c, _ | ⟨more, ts⟩⟩⟩⟩
  · rfl
  · rw [List.map_cons, List.map_nil, ColumnRef.ofTokens?, ColumnRef.ofTokens?, Token.name?_lower,
      Option.map_map, Option.map_map]
    rfl
  · cases m <;> rfl
  · -- a qualified reference has a period in the middle
    cases m with
    | period =>
      rw [List.map_cons, List.map_cons, List.map_cons, List.map_nil, Token.lower.eq_def .period]
      dsimp only
      rw [ColumnRef.ofTokens?, ColumnRef.ofTokens?, Token.name?_lower, Token.name?_lower]
      rcases q.name? with _ | qualifier
      · rfl
      · rcases c.name? with _ | column
        · rfl
        · rfl
    | _ => rfl
  · cases m <;> rfl

theorem resolveQualifier?_lower (refs : List TableRef) (qualifier : String) :
    resolveQualifier? (refs.map TableRef.lower) (lowerCase qualifier) =
      (resolveQualifier? refs qualifier).map lowerCase := by
  have halias (r : TableRef) : (r.lower.aliasName.any fun a => sameName a (lowerCase qualifier)) =
      r.aliasName.any fun a => sameName a qualifier := by
    rw [TableRef.lower]
    rcases r.aliasName with _ | a
    · rfl
    · simp
  have hname (r : TableRef) : sameName r.lower.name (lowerCase qualifier) =
      sameName r.name qualifier := by
    simp [TableRef.lower]
  rw [resolveQualifier?, resolveQualifier?]
  simp only [List.find?_map, Function.comp_def, halias, hname, ← Option.map_or, Option.map_map]
  rfl

/-! ## The select list -/

theorem selectItem_lower (ts : List Token) :
    SelectItem.ofTokens (ts.map Token.lower) = (SelectItem.ofTokens ts).lower := by
  unfold SelectItem.ofTokens
  rw [← List.map_reverse]
  rcases ts.reverse with _ | ⟨last, _ | ⟨word, front⟩⟩
  · rw [List.map_nil]
    dsimp only
    rw [ofTokens?_lower]
    rfl
  · rw [List.map_cons, List.map_nil]
    dsimp only
    rw [ofTokens?_lower]
    rfl
  · rw [List.map_cons, List.map_cons]
    dsimp only
    rw [Token.isKeyword_lower, ← List.map_cons, ← List.map_reverse, ← List.map_reverse,
      ofTokens?_lower, ofTokens?_lower, ofTokens?_lower, Token.name?_lower]
    split
    · rfl
    · rcases ColumnRef.ofTokens? (word :: front).reverse with _ | column
      · rfl
      · rcases last.name? with _ | aliasName
        · rfl
        · rfl

theorem dropQuantifier_lower (ts : List Token) :
    dropQuantifier (ts.map Token.lower) = (dropQuantifier ts).map Token.lower := by
  cases ts with
  | nil => rfl
  | cons t ts =>
    rw [List.map_cons, dropQuantifier, dropQuantifier, Token.isKeyword_lower, Token.isKeyword_lower]
    split
    · rfl
    · rfl

theorem selectItems_lower (ts : List Token) :
    selectItems (ts.map Token.lower) = (selectItems ts).map SelectItem.lower := by
  rw [selectItems, selectItems, afterOutside?_lower fun t => t.isKeyword_lower _]
  rcases afterOutside? (·.isKeyword "SELECT") 0 ts with _ | rest
  · rfl
  · dsimp only [Option.map_some]
    rw [dropQuantifier_lower, takeOutside_lower fun t => t.isKeyword_lower _, splitCommas_lower,
      List.map_map, List.map_map]
    congr 1
    funext item
    exact selectItem_lower item

/-! ## Terms of ORDER BY -/

theorem head?_isKeyword_lower (ts : List Token) (keyword : String) :
    ((ts.map Token.lower).head?.any fun t => t.isKeyword keyword) =
      ts.head?.any fun t => t.isKeyword keyword := by
  cases ts with
  | nil => rfl
  | cons t ts => exact t.isKeyword_lower keyword

theorem afterOrderBy?_lower (d : Nat) (ts : List Token) :
    afterOrderBy? d (ts.map Token.lower) = (afterOrderBy? d ts).map (List.map Token.lower) := by
  induction ts generalizing d with
  | nil => rfl
  | cons t ts ih =>
    rw [List.map_cons, afterOrderBy?, afterOrderBy?, ih, Token.depthAfter_lower,
      Token.isKeyword_lower, head?_isKeyword_lower, Option.map_or]
    congr 1
    split
    · rw [Option.map_some, List.map_tail]
    · rfl

theorem endsTerms_lower (t : Token) : endsTerms t.lower = endsTerms t := by
  have heq (u : Token) (h : t.lower = u ↔ t = u) : (t.lower == u) = (t == u) := by
    rw [Bool.eq_iff_iff, beq_iff_eq, beq_iff_eq]
    exact h
  rw [endsTerms, endsTerms, Token.isKeyword_lower, heq _ t.lower_eq_semicolon,
    heq _ t.lower_eq_closeParen]

theorem dropModifiers_lower (ts : List Token) :
    dropModifiers (ts.map Token.lower) = (dropModifiers ts).map Token.lower := by
  fun_induction dropModifiers ts with
  | case1 => rfl
  | case2 t h => simp [dropModifiers, h]
  | case3 t h => simp [dropModifiers, h]
  | case4 t u ts h ih => simpa [dropModifiers, h] using ih
  | case5 t u ts h h' ih => simpa [dropModifiers, h, h'] using ih
  | case6 t u ts h h' h'' ih => simpa [dropModifiers, h, h', h''] using ih
  | case7 t u ts h h' h'' => simp [dropModifiers, h, h', h'']

theorem itemColumn?_lower (items : List SelectItem) (place : Nat) :
    itemColumn? (items.map SelectItem.lower) place =
      (itemColumn? items place).map ColumnRef.lower := by
  rw [itemColumn?, itemColumn?]
  split
  · rfl
  · rw [List.getElem?_map]
    rcases items[place - 1]? with _ | item
    · rfl
    · rfl

/-- The column that a reference in a term sorts by: an alias of a select item hides a column of the
same name. -/
def resolveName (items : List SelectItem) (ref : ColumnRef) : SortTerm :=
  if ref.qualifier.isSome then some ref
  else (items.find? fun item => item.aliasName.any (sameName · ref.column)).elim
    (some ref) SelectItem.column

theorem resolveTerm_eq (items : List SelectItem) {term : List Token}
    (hterm : ∀ text long, term ≠ [.number text long]) :
    resolveTerm items term = (ColumnRef.ofTokens? term).bind (resolveName items) := by
  unfold resolveTerm
  split
  · next text long => exact absurd rfl (hterm text long)
  · rcases ColumnRef.ofTokens? term with _ | ref
    · rfl
    · rw [Option.bind_some, resolveName]
      dsimp only
      split
      · rfl
      · split
        · next h => rw [h, Option.elim_some]
        · next h => rw [h, Option.elim_none]

theorem resolveName_lower (items : List SelectItem) (ref : ColumnRef) :
    resolveName (items.map SelectItem.lower) ref.lower =
      (resolveName items ref).map ColumnRef.lower := by
  have halias (item : SelectItem) : (item.lower.aliasName.any fun a =>
      sameName a ref.lower.column) =
      item.aliasName.any fun a => sameName a ref.column := by
    rw [SelectItem.lower, ColumnRef.lower]
    rcases item.aliasName with _ | a
    · rfl
    · simp
  have hqualifier : ref.lower.qualifier.isSome = ref.qualifier.isSome := by
    rw [ColumnRef.lower, Option.isSome_map]
  rw [resolveName, resolveName, hqualifier, List.find?_map]
  simp only [Function.comp_def, halias]
  split
  · rfl
  · generalize List.find? _ items = found
    cases found with
    | none => rfl
    | some item => rfl

theorem resolveTerm_lower (items : List SelectItem) (term : List Token) :
    resolveTerm (items.map SelectItem.lower) (term.map Token.lower) =
      (resolveTerm items term).map ColumnRef.lower := by
  by_cases hterm : ∃ text long, term = [.number text long]
  · obtain ⟨text, long, rfl⟩ := hterm
    rw [List.map_cons, List.map_nil, Token.lower.eq_def]
    dsimp only [resolveTerm]
    rcases parseNat? maxWord64 text with _ | place
    · rfl
    · exact itemColumn?_lower items place
  · simp only [not_exists] at hterm
    have hlower : ∀ text long, term.map Token.lower ≠ [.number text long] := by
      intro text long h
      obtain ⟨t, ts, rfl, ht, hts⟩ := List.map_eq_cons_iff.1 h
      obtain rfl := List.map_eq_nil_iff.1 hts
      cases t <;> simp_all [Token.lower]
    rw [resolveTerm_eq _ hlower, resolveTerm_eq _ hterm, ofTokens?_lower]
    rcases ColumnRef.ofTokens? term with _ | ref
    · rfl
    · exact resolveName_lower items ref

theorem sortTerms_lower (ts : List Token) :
    sortTerms (ts.map Token.lower) = (sortTerms ts).map (Option.map ColumnRef.lower) := by
  rw [sortTerms, sortTerms, afterOrderBy?_lower]
  rcases afterOrderBy? 0 ts with _ | rest
  · rfl
  · dsimp only [Option.map_some]
    rw [takeOutside_lower endsTerms_lower, splitCommas_lower, List.map_map, List.map_map]
    congr 1
    funext term
    rw [Function.comp_apply, Function.comp_apply, ← List.map_reverse, dropModifiers_lower,
      ← List.map_reverse, selectItems_lower, resolveTerm_lower]

/-! ## Tables -/

theorem qualifiedName_lower (name : String) (ts : List Token) :
    qualifiedName (lowerCase name) (ts.map Token.lower) =
      (lowerCase (qualifiedName name ts).1, (qualifiedName name ts).2.map Token.lower) := by
  fun_induction qualifiedName name ts with
  | case1 name t ts part hpart ih =>
    rw [List.map_cons, List.map_cons, Token.lower.eq_def .period]
    dsimp only
    rw [qualifiedName, Token.name?_lower, hpart, Option.map_some]
    exact ih
  | case2 name t ts hnone =>
    rw [List.map_cons, List.map_cons, Token.lower.eq_def .period]
    dsimp only
    rw [qualifiedName, Token.name?_lower, hnone, Option.map_none]
  | case3 name ts hno =>
    rcases ts with _ | ⟨p, _ | ⟨t, ts⟩⟩
    · rfl
    · cases p <;> rfl
    · cases p with
      | period => exact absurd rfl (hno t ts)
      | _ => rfl

theorem tableName?_lower (ts : List Token) :
    tableName? (ts.map Token.lower) = (tableName? ts).map fun r =>
      (lowerCase r.1, r.2.map Token.lower) := by
  cases ts with
  | nil => rfl
  | cons t ts =>
    rw [List.map_cons, tableName?, tableName?, Token.name?_lower, Option.map_map, Option.map_map]
    congr 1
    funext name
    exact qualifiedName_lower name ts

theorem dropAs_lower (ts : List Token) :
    dropAs (ts.map Token.lower) = (dropAs ts).map Token.lower := by
  cases ts with
  | nil => rfl
  | cons t ts =>
    rw [List.map_cons, dropAs, dropAs, Token.isKeyword_lower]
    split
    · rfl
    · rfl

theorem readAlias_lower (ts : List Token) : readAlias (ts.map Token.lower) =
    ((readAlias ts).1.map lowerCase, (readAlias ts).2.map Token.lower) := by
  unfold readAlias
  rw [dropAs_lower]
  rcases dropAs ts with _ | ⟨t, rest⟩
  · rfl
  · rw [List.map_cons]
    dsimp only
    rw [Token.name?_lower, Option.isSome_map]
    split
    · rfl
    · rfl

/-- Small letters do not bring a token to the front that was not there. -/
theorem map_lower_ne_cons {u : Token} (hu : ∀ t : Token, t.lower = u ↔ t = u) {ts : List Token}
    (h : ∀ rest, ts ≠ u :: rest) (rest : List Token) : ts.map Token.lower ≠ u :: rest := by
  intro hts
  obtain ⟨t, rest', rfl, ht, -⟩ := List.map_eq_cons_iff.1 hts
  exact h rest' (by rw [(hu t).1 ht])

mutual

theorem tableRefs_lower (ts : List Token) :
    tableRefs (ts.map Token.lower) = (tableRefs ts).map TableRef.lower := by
  cases ts with
  | nil => rw [List.map_nil, tableRefs, List.map_nil]
  | cons t ts =>
    rw [List.map_cons, tableRefs, tableRefs, Token.isKeyword_lower, Token.isKeyword_lower,
      sourceRefs_lower ts, tableRefs_lower ts]
    split
    · rfl
    · rfl
termination_by 3 * ts.length

theorem sourceRefs_lower (ts : List Token) :
    sourceRefs (ts.map Token.lower) = (sourceRefs ts).map TableRef.lower := by
  by_cases hopen : ∃ inner, ts = .openParen :: inner
  · obtain ⟨inner, hts⟩ := hopen
    have hsize : ts.length = inner.length + 1 := by rw [hts, List.length_cons]
    rw [hts, List.map_cons, Token.lower.eq_def .openParen]
    dsimp only
    rw [sourceRefs, sourceRefs, enclosed?_lower]
    rcases h : enclosed? inner with _ | ⟨inside, after⟩
    · rfl
    · have hlength := splitClose_length_lt h
      have hafter := readAlias_length_le after
      dsimp only [Option.map_some]
      rw [readAlias_lower, tableRefs_lower inside,
        moreSources_lower (readAlias after).2, List.map_append]
  · simp only [not_exists] at hopen
    rw [sourceRefs.eq_2 _ (map_lower_ne_cons Token.lower_eq_openParen hopen),
      sourceRefs.eq_2 _ hopen, tableName?_lower]
    rcases h : tableName? ts with _ | ⟨name, rest⟩
    · exact moreSources_lower ts
    · have hlength := tableName?_length_lt h
      have hrest := readAlias_length_le rest
      dsimp only [Option.map_some]
      rw [readAlias_lower, moreSources_lower (readAlias rest).2, List.map_cons, TableRef.lower]
termination_by 3 * ts.length + 2

theorem moreSources_lower (ts : List Token) :
    moreSources (ts.map Token.lower) = (moreSources ts).map TableRef.lower := by
  by_cases hcomma : ∃ rest, ts = .comma :: rest
  · obtain ⟨rest, rfl⟩ := hcomma
    rw [List.map_cons, Token.lower.eq_def .comma]
    dsimp only
    rw [moreSources, moreSources]
    exact sourceRefs_lower rest
  · simp only [not_exists] at hcomma
    rw [moreSources.eq_2 _ (map_lower_ne_cons Token.lower_eq_comma hcomma),
      moreSources.eq_2 _ hcomma]
    exact tableRefs_lower ts
termination_by 3 * ts.length + 1

end

/-! ## Tests for NULL -/

theorem nullTestAt?_lower (ts : List Token) :
    nullTestAt? (ts.map Token.lower) = nullTestAt? ts := by
  cases ts with
  | nil => rfl
  | cons t ts =>
    rw [List.map_cons, nullTestAt?, nullTestAt?]
    simp only [Token.isKeyword_lower, head?_isKeyword_lower, ← List.map_tail]

theorem columnBefore?_lower (before : List Token) :
    columnBefore? (before.map Token.lower) = (columnBefore? before).map ColumnRef.lower := by
  rcases before with _ | ⟨c, _ | ⟨m, _ | ⟨q, rest⟩⟩⟩
  · rfl
  · exact ofTokens?_lower [c]
  · exact ofTokens?_lower [c]
  · have hqualified := ofTokens?_lower [q, m, c]
    have hbare := ofTokens?_lower [c]
    rw [List.map_cons, List.map_cons, List.map_cons, List.map_nil] at hqualified
    rw [List.map_cons, List.map_nil] at hbare
    rw [List.map_cons, List.map_cons, List.map_cons, columnBefore?, columnBefore?, hqualified,
      hbare, Option.map_or]

/-- The test at the front of some tokens, where `before` holds the tokens before it, last first. -/
def nullTestBehind? (before ts : List Token) : Option NullTest :=
  (nullTestAt? ts).bind fun negated => (columnBefore? before).map (⟨·, negated⟩)

theorem nullTestBehind?_lower (before ts : List Token) :
    nullTestBehind? (before.map Token.lower) (ts.map Token.lower) =
      (nullTestBehind? before ts).map NullTest.lower := by
  rw [nullTestBehind?, nullTestBehind?, nullTestAt?_lower, columnBefore?_lower]
  rcases nullTestAt? ts with _ | negated
  · rfl
  · rcases columnBefore? before with _ | column
    · rfl
    · rfl

theorem nullTestsFrom_cons (before : List Token) (found : List NullTest) (t : Token)
    (ts : List Token) :
    nullTestsFrom before found (t :: ts) =
      nullTestsFrom (t :: before) ((nullTestBehind? before (t :: ts)).elim found fun test =>
        if found.contains test then found else found ++ [test]) ts := by
  rw [nullTestsFrom, nullTestBehind?]
  rcases nullTestAt? (t :: ts) with _ | negated
  · rfl
  · rcases columnBefore? before with _ | column
    · rfl
    · rfl

/-- The tests in some tokens, each as often as it is repeated. -/
def allNullTestsFrom (before : List Token) : List Token → List NullTest
  | [] => []
  | t :: ts => (nullTestBehind? before (t :: ts)).toList ++ allNullTestsFrom (t :: before) ts

/-- All tests for NULL in a statement, with repetitions. -/
def allNullTests (ts : List Token) : List NullTest := allNullTestsFrom [] ts

theorem allNullTestsFrom_lower (before ts : List Token) :
    allNullTestsFrom (before.map Token.lower) (ts.map Token.lower) =
      (allNullTestsFrom before ts).map NullTest.lower := by
  induction ts generalizing before with
  | nil => rfl
  | cons t ts ih =>
    have hbehind := nullTestBehind?_lower before (t :: ts)
    have hrest := ih (t :: before)
    rw [List.map_cons] at hbehind hrest
    rw [List.map_cons, allNullTestsFrom, allNullTestsFrom, hbehind, hrest, List.map_append]
    congr 1
    rcases nullTestBehind? before (t :: ts) with _ | test
    · rfl
    · rfl

theorem allNullTests_lower (ts : List Token) :
    allNullTests (ts.map Token.lower) = (allNullTests ts).map NullTest.lower :=
  allNullTestsFrom_lower [] ts

end Sql

end IndexAdvisor
