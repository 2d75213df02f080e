import IndexAdvisor.Proofs.Sql.Case
import IndexAdvisor.Proofs.Sql.Reference
import IndexAdvisor.Sql.SelectList

/-!
# The items of a select list

A select list is what stands between `SELECT` and its `FROM`, cut at the commas outside all
parentheses. The word `FROM` also belongs to the comparison `IS [NOT] DISTINCT FROM`, and there the
list goes on (`itemsFrom`). The reader of select lists takes the first `FROM` for the end in any
case, so an item with such a comparison is cut off and the items behind it are not seen.

> `CutOff.columnAt_iff`: a column stands at a place of what is read exactly if it stands there in
> the list and no item before it has such a comparison.
-/

namespace IndexAdvisor.Sql

/-! ## Items -/

/-- What may follow the expression of an item: a name, the word `AS` and an alias, or nothing. -/
inductive IsAlias : List Token → Prop where
  | nothing : IsAlias []
  | name {x : Token} (hx : x.name?.isSome = true) : IsAlias [x]
  | behindAs {a x : Token} (ha : a.isKeyword "AS" = true) : IsAlias [a, x]

/-- The expression of an item is a reference to a column. -/
def Selects (item : List Token) (ref : ColumnRef) : Prop :=
  ∃ expr label, item = expr ++ label ∧ ColumnRef.ofTokens? expr = some ref ∧ IsAlias label

/-- An item that stands for all columns of the sources, or of one of them. -/
def IsStar (item : List Token) : Prop :=
  item = [.symbol "*"] ∨ ∃ q, item = [q, .period, .symbol "*"] ∧ q.name?.isSome = true

variable {ts item part front : List Token} {word last : Token} {ref : ColumnRef} {d : Nat}

theorem selects_append_iff : Selects (front ++ [word, last]) ref ↔
    ColumnRef.ofTokens? (front ++ [word, last]) = some ref ∨
      last.name?.isSome = true ∧ ColumnRef.ofTokens? (front ++ [word]) = some ref ∨
      word.isKeyword "AS" = true ∧ ColumnRef.ofTokens? front = some ref := by
  have hsplit : front ++ [word, last] = (front ++ [word]) ++ [last] := by simp
  constructor
  · rintro ⟨expr, label, hitem, href, halias⟩
    cases halias with
    | nothing =>
      rw [hitem, List.append_nil]
      exact .inl href
    | name hx =>
      obtain ⟨rfl, hlast⟩ := List.append_inj' (hsplit.symm.trans hitem) rfl
      cases hlast
      exact .inr (.inl ⟨hx, href⟩)
    | behindAs ha =>
      obtain ⟨rfl, hlast⟩ := List.append_inj' hitem rfl
      cases hlast
      exact .inr (.inr ⟨ha, href⟩)
  · rintro (href | ⟨hlast, href⟩ | ⟨hword, href⟩)
    · exact ⟨_, [], (List.append_nil _).symm, href, .nothing⟩
    · exact ⟨_, [last], hsplit, href, .name hlast⟩
    · exact ⟨front, [word, last], rfl, href, .behindAs hword⟩

theorem selects_single : Selects [last] ref ↔ ColumnRef.ofTokens? [last] = some ref := by
  constructor
  · rintro ⟨expr, label, hitem, href, -⟩
    have hne : expr ≠ [] := by
      rintro rfl
      cases href
    obtain ⟨t, rest, rfl⟩ := List.exists_cons_of_ne_nil hne
    obtain ⟨rfl, hnil⟩ := List.cons.inj hitem
    obtain ⟨rfl, -⟩ := List.append_eq_nil_iff.1 hnil.symm
    exact href
  · intro h
    exact ⟨[last], [], rfl, h, .nothing⟩

/-- The reader finds the column of an item. -/
theorem column_ofTokens_eq_some_iff : (SelectItem.ofTokens item).column = some ref ↔
    Selects item ref := by
  obtain ⟨ends, rfl⟩ : ∃ ends : List Token, item = ends.reverse :=
    ⟨item.reverse, item.reverse_reverse.symm⟩
  rcases ends with _ | ⟨last, _ | ⟨word, rest⟩⟩
  · constructor
    · intro h
      cases h
    · rintro ⟨expr, label, hitem, href, -⟩
      obtain ⟨rfl, -⟩ := List.append_eq_nil_iff.1 hitem.symm
      cases href
  · exact selects_single.symm
  · have hitem : (last :: word :: rest).reverse = rest.reverse ++ [word, last] := by simp
    rw [hitem, selects_append_iff, SelectItem.ofTokens, List.reverse_append]
    simp only [List.reverse_cons, List.reverse_nil, List.nil_append, List.cons_append,
      List.reverse_reverse]
    split
    · next has =>
      have hwhole : ColumnRef.ofTokens? (rest.reverse ++ [word, last]) = none :=
        ColumnRef.ofTokens?_of_mem_isKeyword (by decide) has (by simp)
      have hshort : ColumnRef.ofTokens? (rest.reverse ++ [word]) = none :=
        ColumnRef.ofTokens?_of_mem_isKeyword (by decide) has (by simp)
      simp [hwhole, hshort, has]
    · next has =>
      split
      · next column label hcolumn hlabel =>
        -- a reference with a name behind it is no reference
        have hwhole : ColumnRef.ofTokens? (rest.reverse ++ [word, last]) = none := by
          rw [← Option.not_isSome_iff_eq_none]
          intro hsome
          have hlong := ColumnRef.length_of_ofTokens? hsome
          have hshort := ColumnRef.length_of_ofTokens? (Option.isSome_of_eq_some hcolumn)
          simp only [List.length_append, List.length_cons, List.length_nil] at hlong hshort
          omega
        simp [hwhole, hcolumn, hlabel, has]
      · next hno =>
        have hneither : ¬(last.name?.isSome = true ∧
            ColumnRef.ofTokens? (rest.reverse ++ [word]) = some ref) := by
          rintro ⟨hname, href⟩
          obtain ⟨label, hlabel⟩ := Option.isSome_iff_exists.1 hname
          exact hno ref label href hlabel
        simp only [has, hneither, false_and, or_false, Bool.false_eq_true]

/-! ## Lists -/

/-- Whether some tokens, given last first, end with `IS DISTINCT` or `IS NOT DISTINCT`. The word
`FROM` behind them belongs to the comparison. -/
def awaitsFrom : List Token → Bool
  | distinct :: i :: rest => distinct.isKeyword "DISTINCT" &&
      (i.isKeyword "IS" || i.isKeyword "NOT" && rest.head?.any (·.isKeyword "IS"))
  | _ => false

/-- The items of a select list: its parts between the commas outside all parentheses, up to its
`FROM`. What the current item has so far is held in `part`, last first. -/
def itemsFrom (part : List Token) : (d : Nat) → List Token → List (List Token)
  | _, [] => if part.isEmpty then [] else [part.reverse]
  | d, t :: ts =>
    if d = 0 ∧ t = .comma then part.reverse :: itemsFrom [] 0 ts
    else if d = 0 ∧ t.isKeyword "FROM" = true ∧ awaitsFrom part = false then
      if part.isEmpty then [] else [part.reverse]
    else itemsFrom (t :: part) (t.depthAfter d) ts

/-- The items of the outermost select list of a statement. -/
def selectParts (ts : List Token) : List (List Token) :=
  match afterOutside? (·.isKeyword "SELECT") 0 ts with
  | none => []
  | some rest => itemsFrom [] 0 (dropQuantifier rest)

/-- The depth of parentheses behind some tokens. -/
def depthBehind (ts : List Token) : Nat := ts.foldl (fun d t => t.depthAfter d) 0

/-- The word `FROM` stands in an item, outside all parentheses. -/
def HasFrom (item : List Token) : Prop :=
  ∃ front word after, item = front ++ word :: after ∧ word.isKeyword "FROM" = true ∧
    depthBehind front = 0

/-- The reader's items are those of the list, or those up to the first one with a comparison, cut
off before its `FROM`. -/
def CutOff (items read : List (List Token)) : Prop :=
  (read = items ∧ ∀ item ∈ items, ¬HasFrom item) ∨
    ∃ before front word after behind, items = before ++ (front ++ word :: after) :: behind ∧
      read = before ++ [front] ∧ (∀ item ∈ before, ¬HasFrom item) ∧
      word.isKeyword "FROM" = true ∧ depthBehind front = 0 ∧ awaitsFrom front.reverse = true

theorem depthBehind_concat (front : List Token) (t : Token) :
    depthBehind (front ++ [t]) = t.depthAfter (depthBehind front) := by
  rw [depthBehind, List.foldl_append]
  rfl

theorem not_hasFrom_nil : ¬HasFrom [] := by
  rintro ⟨front, word, after, hsplit, -⟩
  simp at hsplit

theorem not_hasFrom_concat {t : Token} (h : ¬HasFrom front)
    (ht : ¬(depthBehind front = 0 ∧ t.isKeyword "FROM" = true)) :
    ¬HasFrom (front ++ [t]) := by
  rintro ⟨before, word, after, hsplit, hword, hdepth⟩
  rcases List.eq_nil_or_concat after with rfl | ⟨after, last, rfl⟩
  · obtain ⟨rfl, heq⟩ := List.append_inj' hsplit rfl
    cases heq
    exact ht ⟨hdepth, hword⟩
  · rw [List.concat_eq_append, ← List.cons_append, ← List.append_assoc] at hsplit
    obtain ⟨rfl, -⟩ := List.append_inj' hsplit rfl
    exact h ⟨before, word, after, rfl, hword, hdepth⟩

/-- What the item that is being read comes to: its tokens go on, and further items may follow. -/
theorem exists_itemsFrom (hne : part ≠ []) (d : Nat) (ts : List Token) :
    ∃ after behind, itemsFrom part d ts = (part.reverse ++ after) :: behind := by
  induction ts generalizing part d with
  | nil =>
    refine ⟨[], [], ?_⟩
    rw [itemsFrom, List.append_nil]
    exact if_neg (by simpa using hne)
  | cons t ts ih =>
    rw [itemsFrom]
    split
    · exact ⟨[], _, by rw [List.append_nil]⟩
    split
    · refine ⟨[], [], ?_⟩
      rw [List.append_nil]
      exact if_neg (by simpa using hne)
    · obtain ⟨after, behind, h⟩ := ih (List.cons_ne_nil t part) (t.depthAfter d)
      refine ⟨t :: after, behind, ?_⟩
      rw [h, List.reverse_cons, List.append_assoc]
      rfl

theorem CutOff.cons {items read : List (List Token)} (h : CutOff items read)
    (hitem : ¬HasFrom item) :
    CutOff (item :: items) (item :: read) := by
  rcases h with ⟨rfl, hall⟩ | ⟨before, front, word, after, behind, rfl, rfl, hall, hword⟩
  · exact .inl ⟨rfl, List.forall_mem_cons.2 ⟨hitem, hall⟩⟩
  · exact .inr ⟨item :: before, front, word, after, behind, rfl, rfl,
      List.forall_mem_cons.2 ⟨hitem, hall⟩, hword⟩

theorem cutOff_last (h : ¬HasFrom part.reverse) :
    CutOff (if part.isEmpty then [] else [part.reverse])
    (if part.isEmpty then [] else [part.reverse]) := by
  refine .inl ⟨rfl, fun item hmem => ?_⟩
  split at hmem
  · cases hmem
  · rw [List.mem_singleton.1 hmem]
    exact h

/-- The reader cuts at commas what stands before the first `FROM`. -/
theorem itemsFrom_cutOff (hfrom : ¬HasFrom part.reverse) (hd : depthBehind part.reverse = d)
    (ts : List Token) :
    CutOff (itemsFrom part d ts) (splitCommasFrom part d
      (takeOutside (·.isKeyword "FROM") d ts)) := by
  induction ts generalizing part d with
  | nil => exact cutOff_last hfrom
  | cons t ts ih =>
    rw [itemsFrom, takeOutside]
    by_cases hcomma : d = 0 ∧ t = .comma
    · -- a comma ends the item
      obtain ⟨rfl, rfl⟩ := hcomma
      have hrest : CutOff (itemsFrom [] 0 ts)
          (splitCommasFrom [] 0 (takeOutside (·.isKeyword "FROM") 0 ts)) :=
        ih not_hasFrom_nil rfl
      rw [if_pos ⟨rfl, rfl⟩, if_neg (by decide), splitCommasFrom_cons, if_pos ⟨rfl, rfl⟩]
      exact hrest.cons hfrom
    rw [if_neg hcomma]
    by_cases hword : d = 0 ∧ t.isKeyword "FROM" = true
    · obtain ⟨rfl, hword⟩ := hword
      have hstop : (decide (0 = 0) && t.isKeyword "FROM") = true := by simpa using hword
      rw [if_pos hstop, splitCommasFrom.eq_1]
      rcases hawaits : awaitsFrom part with _ | _
      · -- the list ends here
        rw [if_pos ⟨rfl, hword, rfl⟩]
        exact cutOff_last hfrom
      · -- the comparison goes on, and the reader stops
        have hne : part ≠ [] := by
          rintro rfl
          cases hawaits
        rw [if_neg (fun h => Bool.noConfusion h.2.2), if_neg (by simpa using hne)]
        obtain ⟨after, behind, hitems⟩ :=
          exists_itemsFrom (List.cons_ne_nil t part) (t.depthAfter 0) ts
        refine .inr ⟨[], part.reverse, t, after, behind, ?_, rfl,
          List.forall_mem_nil _, hword, hd, ?_⟩
        · rw [hitems, List.reverse_cons, List.append_assoc]
          rfl
        · rw [List.reverse_reverse]
          exact hawaits
    · have hstop : ¬(decide (d = 0) && t.isKeyword "FROM") = true := by simpa using hword
      rw [if_neg hstop, if_neg (fun h => hword ⟨h.1, h.2.1⟩), splitCommasFrom_cons, if_neg hcomma]
      apply ih
      · rw [List.reverse_cons]
        exact not_hasFrom_concat hfrom (hd ▸ hword)
      · rw [List.reverse_cons, depthBehind_concat, hd]

/-! ## Columns of a list -/

/-- The words before the `FROM` of a comparison. -/
theorem exists_of_awaitsFrom (h : awaitsFrom part = true) :
    ∃ distinct i rest, part = distinct :: i :: rest ∧
    distinct.isKeyword "DISTINCT" = true ∧
      (i.isKeyword "IS" = true ∨ i.isKeyword "NOT" = true) := by
  unfold awaitsFrom at h
  split at h
  · next distinct i rest =>
    rw [Bool.and_eq_true, Bool.or_eq_true, Bool.and_eq_true] at h
    exact ⟨distinct, i, rest, rfl, h.1, h.2.imp_right And.left⟩
  · cases h

/-- An item that is cut off before the `FROM` of a comparison is no column. -/
theorem not_selects_of_awaitsFrom (h : awaitsFrom front.reverse = true) : ¬Selects front ref := by
  obtain ⟨distinct, i, rest, hfront, -, hi⟩ := exists_of_awaitsFrom h
  obtain rfl : front = rest.reverse ++ [i, distinct] := by
    rw [← front.reverse_reverse, hfront]
    simp
  obtain ⟨keyword, hreserved, hne, hi⟩ : ∃ keyword ∈ Token.reserved, sameName keyword "AS" = false ∧
      i.isKeyword keyword = true := by
    rcases hi with hi | hi
    · exact ⟨"IS", by decide, by decide, hi⟩
    · exact ⟨"NOT", by decide, by decide, hi⟩
  rw [selects_append_iff]
  rintro (href | ⟨-, href⟩ | ⟨has, -⟩)
  · rw [ColumnRef.ofTokens?_of_mem_isKeyword hreserved hi (by simp)] at href
    cases href
  · rw [ColumnRef.ofTokens?_of_mem_isKeyword hreserved hi (by simp)] at href
    cases href
  · rw [Token.isKeyword_eq hi, hne] at has
    cases has

/-- Neither is the whole item. -/
theorem not_selects_of_from {word : Token} {after : List Token}
    (h : awaitsFrom front.reverse = true) (hword : word.isKeyword "FROM" = true) :
    ¬Selects (front ++ word :: after) ref := by
  rintro ⟨expr, label, hitem, href, hlabel⟩
  -- the word stands in what follows the expression, and there it could only be an alias behind `AS`
  have hexpr : word ∉ expr := by
    intro hmem
    rw [ColumnRef.ofTokens?_of_mem_isKeyword (by decide) hword hmem] at href
    cases href
  obtain ⟨rest, rfl, hlabelled⟩ : ∃ rest, front = expr ++ rest ∧ label = rest ++ word :: after := by
    rcases List.append_eq_append_iff.1 hitem with ⟨rest, rfl, hrest⟩ | ⟨rest, rfl, hrest⟩
    · rcases rest with _ | ⟨t, rest⟩
      · exact ⟨[], by simp, hrest.symm⟩
      · obtain ⟨rfl, -⟩ := List.cons.inj hrest
        exact absurd (by simp) hexpr
    · exact ⟨rest, rfl, hrest⟩
  have hname : word.name? = none := Token.name?_of_isKeyword (by decide) hword
  cases hlabel with
  | nothing =>
    have hlength := congrArg List.length hlabelled
    simp at hlength
  | @name x hx =>
    rcases rest with _ | ⟨t, rest⟩
    · obtain ⟨rfl, -⟩ := List.cons.inj hlabelled
      rw [hname] at hx
      cases hx
    · have hlength := congrArg List.length hlabelled
      simp at hlength
  | @behindAs a x ha =>
    rcases rest with _ | ⟨t, _ | ⟨u, rest⟩⟩
    · obtain ⟨rfl, -⟩ := List.cons.inj hlabelled
      rw [Token.isKeyword_eq hword] at ha
      cases ha
    · -- the word before the alias would have to be both `AS` and `DISTINCT`
      obtain ⟨rfl, -⟩ := List.cons.inj hlabelled
      obtain ⟨distinct, i, rest, hends, hdistinct, -⟩ := exists_of_awaitsFrom h
      rw [List.reverse_append] at hends
      obtain ⟨rfl, -⟩ := List.cons.inj hends
      rw [Token.isKeyword_eq hdistinct] at ha
      cases ha
    · have hlength := congrArg List.length hlabelled
      simp at hlength

/-- The column of the item at a place, counted from zero. -/
def ColumnAt (items : List (List Token)) (place : Nat) (ref : ColumnRef) : Prop :=
  ∃ item, items[place]? = some item ∧ Selects item ref

theorem CutOff.columnAt_iff {items read : List (List Token)} (h : CutOff items read) (place : Nat) :
    ColumnAt read place ref ↔ ColumnAt items place ref ∧
      ∀ item ∈ items.take place, ¬HasFrom item := by
  rcases h
    with ⟨rfl, hall⟩ | ⟨before, front, word, after, behind, rfl, rfl, hall, hword, hdepth, hawaits⟩
  · constructor
    · exact fun h => ⟨h, fun item hmem => hall item (List.mem_of_mem_take hmem)⟩
    · exact And.left
  rcases Nat.lt_trichotomy place before.length with hlt | rfl | hgt
  · -- the item is one of those before the comparison
    simp only [ColumnAt, List.getElem?_append_left hlt,
      List.take_append_of_le_length (Nat.le_of_lt hlt)]
    constructor
    · exact fun h => ⟨h, fun item hmem => hall item (List.mem_of_mem_take hmem)⟩
    · exact And.left
  · constructor
    · rintro ⟨item, hitem, hselects⟩
      rw [List.getElem?_concat_length] at hitem
      cases hitem
      exact absurd hselects (not_selects_of_awaitsFrom hawaits)
    · rintro ⟨⟨item, hitem, hselects⟩, -⟩
      rw [List.getElem?_append_right (Nat.le_refl _), Nat.sub_self] at hitem
      cases hitem
      exact absurd hselects (not_selects_of_from hawaits hword)
  · constructor
    · rintro ⟨item, hitem, -⟩
      have hlength := (List.getElem?_eq_some_iff.1 hitem).1
      rw [List.length_append, List.length_singleton] at hlength
      omega
    · rintro ⟨-, hno⟩
      refine absurd ⟨front, word, after, rfl, hword, hdepth⟩ (hno _ ?_)
      rw [List.take_append, List.mem_append]
      refine .inr ?_
      obtain ⟨n, hn⟩ : ∃ n, place - before.length = n + 1 := ⟨place - before.length - 1, by omega⟩
      rw [hn, List.take_succ_cons]
      exact List.mem_cons_self

end IndexAdvisor.Sql
