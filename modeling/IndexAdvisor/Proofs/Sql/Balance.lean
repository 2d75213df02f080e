import IndexAdvisor.Sql.Nesting

/-!
# Balanced parentheses

In balanced tokens every parenthesis that opens is closed, and what it encloses is balanced again. A
parenthesis is looked up by its place: `inside ts k` is what stands in the one that opens at the
place `k`.

> `Balanced.drop_eq`: if a parenthesis opens at a place of balanced tokens, its inside and the
> parenthesis that closes it come next.

What a parenthesis encloses does not depend on the balanced tokens before it nor on any tokens after
its end (`inside_append_left`, `inside_append_right`).
-/

namespace IndexAdvisor.Sql

/-- Tokens whose parentheses match. -/
inductive Balanced : List Token → Prop where
  | nil : Balanced []
  | plain {t : Token} {ts : List Token} (hopen : t ≠ .openParen) (hclose : t ≠ .closeParen)
      (hrest : Balanced ts) : Balanced (t :: ts)
  | parens {body rest : List Token} (hbody : Balanced body) (hrest : Balanced rest) :
      Balanced (.openParen :: (body ++ .closeParen :: rest))

theorem Balanced.of_plain {ts : List Token} (h : ∀ t ∈ ts, t ≠ .openParen ∧ t ≠ .closeParen) :
    Balanced ts := by
  induction ts with
  | nil => exact .nil
  | cons t ts ih =>
    obtain ⟨hopen, hclose⟩ := h t (List.mem_cons_self ..)
    exact .plain hopen hclose (ih fun u hu => h u (List.mem_cons_of_mem _ hu))

theorem Balanced.append {xs ts : List Token} (hxs : Balanced xs) (hts : Balanced ts) :
    Balanced (xs ++ ts) := by
  induction hxs with
  | nil => exact hts
  | plain hopen hclose _ ih => exact .plain hopen hclose ih
  | parens hbody _ _ ihrest =>
    rw [List.cons_append, List.append_assoc]
    exact .parens hbody ihrest

/-- Balanced tokens stay balanced when balanced ones are put in anywhere. -/
theorem Balanced.insert {xs mid ts : List Token} (h : Balanced (xs ++ ts)) (hmid : Balanced mid) :
    Balanced (xs ++ (mid ++ ts)) := by
  generalize hall : xs ++ ts = all at h
  induction h generalizing xs ts with
  | nil =>
    obtain ⟨rfl, rfl⟩ := List.append_eq_nil_iff.1 hall
    exact hmid.append .nil
  | @plain t rest hopen hclose hrest ih =>
    rcases List.append_eq_cons_iff.1 hall with ⟨rfl, rfl⟩ | ⟨xs, rfl, rfl⟩
    · exact hmid.append (.plain hopen hclose hrest)
    · exact .plain hopen hclose (ih rfl)
  | @parens body rest hbody hrest ihbody ihrest =>
    rcases List.append_eq_cons_iff.1 hall with ⟨rfl, rfl⟩ | ⟨xs, rfl, hsplit⟩
    · exact hmid.append (.parens hbody hrest)
    rcases List.append_eq_append_iff.1 hsplit with ⟨more, rfl, hmore⟩ | ⟨more, rfl, rfl⟩
    · rcases List.append_eq_cons_iff.1 hmore.symm with ⟨rfl, rfl⟩ | ⟨more, rfl, rfl⟩
      · -- the place is directly before the parenthesis that closes
        have hinner : Balanced (body ++ (mid ++ [])) := ihbody (List.append_nil body)
        have hparens := Balanced.parens hinner hrest
        simpa using hparens
      · have hinner : Balanced (more ++ (mid ++ ts)) := ihrest rfl
        have hparens := Balanced.parens hbody hinner
        simpa using hparens
    · have hparens := Balanced.parens (ihbody rfl) hrest
      simpa using hparens

theorem splitClose_plain {t : Token} (d : Nat) (ts : List Token) (hclose : t ≠ .closeParen) :
    splitClose d (t :: ts) = (splitClose (t.depthAfter d) ts).map fun r => (t :: r.1, r.2) := by
  rw [splitClose.eq_def]
  split
  · next h => cases h
  · next h =>
    cases h
    exact absurd rfl hclose
  · next h =>
    cases h
    rfl

theorem splitClose_eq {d : Nat} {ts body rest : List Token}
    (h : splitClose d ts = some (body, rest)) :
    ts = body ++ .closeParen :: rest := by
  fun_induction splitClose d ts generalizing body rest with
  | case1 => cases h
  | case2 =>
    cases h
    rfl
  | case3 d t ts _ ih =>
    obtain ⟨r, hr, heq⟩ := Option.map_eq_some_iff.1 h
    cases heq
    rw [List.cons_append, ← ih hr]

/-- A balanced row closes no parenthesis that was opened before it. -/
theorem splitClose_balanced {xs : List Token} (h : Balanced xs) (d : Nat) (ts : List Token) :
    splitClose d (xs ++ ts) = (splitClose d ts).map fun r => (xs ++ r.1, r.2) := by
  induction h generalizing d ts with
  | nil => simp
  | @plain t xs hopen hclose _ ih =>
    have hdepth : t.depthAfter d = d := by
      cases t <;> first | rfl | exact absurd rfl hopen | exact absurd rfl hclose
    rw [List.cons_append, splitClose_plain d _ hclose, hdepth, ih, Option.map_map]
    rfl
  | @parens body rest _ _ ihbody ihrest =>
    -- the parenthesis opens one level more, which its end closes again
    have hclosing : splitClose (d + 1) (.closeParen :: (rest ++ ts)) =
        (splitClose d (rest ++ ts)).map fun r => (.closeParen :: r.1, r.2) := rfl
    have hopening : splitClose d (.openParen :: (body ++ .closeParen :: (rest ++ ts))) =
        (splitClose (d + 1) (body ++ .closeParen :: (rest ++ ts))).map
          fun r => (.openParen :: r.1, r.2) := splitClose_plain d _ (by decide)
    rw [List.cons_append, List.append_assoc, List.cons_append, hopening, ihbody, hclosing, ihrest]
    simp [Option.map_map, Function.comp_def]

theorem enclosed?_balanced {xs : List Token} (h : Balanced xs) (ts : List Token) :
    enclosed? (xs ++ .closeParen :: ts) = some (xs, ts) := by
  have hclosing : splitClose 0 (.closeParen :: ts) = some ([], ts) := rfl
  rw [enclosed?, splitClose_balanced h, hclosing, Option.map_some, List.append_nil]

/-- What closes a number of parentheses is balanced together with these. -/
theorem balanced_of_splitClose {d : Nat} {ts body rest : List Token}
    (h : splitClose d ts = some (body, rest)) : Balanced (List.replicate d .openParen ++ body) := by
  fun_induction splitClose d ts generalizing body rest with
  | case1 => cases h
  | case2 =>
    cases h
    exact .nil
  | case3 d t ts hlast ih =>
    obtain ⟨⟨inner, after⟩, hr, heq⟩ := Option.map_eq_some_iff.1 h
    cases heq
    have hinner := ih hr
    by_cases hopen : t = .openParen
    · subst hopen
      rw [Token.depthAfter, List.replicate_succ', List.append_assoc] at hinner
      exact hinner
    by_cases hclose : t = .closeParen
    · subst hclose
      rcases d with _ | d
      · exact (hlast rfl rfl).elim
      · -- the pair is put in before what closes the others
        have hpair := hinner.insert (.parens .nil .nil)
        rw [List.replicate_succ', List.append_assoc]
        exact hpair
    · have hdepth : t.depthAfter d = d := by
        cases t <;> first | rfl | exact absurd rfl hopen | exact absurd rfl hclose
      rw [hdepth] at hinner
      exact hinner.insert (.plain hopen hclose .nil)

theorem balanced_of_enclosed? {ts body rest : List Token} (h : enclosed? ts = some (body, rest)) :
    Balanced body := balanced_of_splitClose h

/-- What stands in the parenthesis that opens at a place. -/
def inside (ts : List Token) (k : Nat) : List Token :=
  ((enclosed? (ts.drop (k + 1))).map Prod.fst).getD []

theorem inside_eq {ts body rest : List Token} {k : Nat} (hbody : Balanced body)
    (h : ts.drop k = .openParen :: (body ++ .closeParen :: rest)) : inside ts k = body := by
  have hdrop : ts.drop (k + 1) = body ++ .closeParen :: rest := by
    rw [← List.drop_drop, h, List.drop_succ_cons, List.drop_zero]
  rw [inside, hdrop, enclosed?_balanced hbody]
  rfl

theorem Balanced.drop_eq {ts tail : List Token} (h : Balanced ts) {k : Nat}
    (hk : ts.drop k = .openParen :: tail) :
    ∃ rest, ts.drop k = .openParen :: (inside ts k ++ .closeParen :: rest) ∧
      Balanced (inside ts k) := by
  suffices hparts : ∃ body rest, tail = body ++ .closeParen :: rest ∧ Balanced body by
    obtain ⟨body, rest, rfl, hbody⟩ := hparts
    rw [inside_eq hbody hk]
    exact ⟨rest, hk, hbody⟩
  induction h generalizing k tail with
  | nil =>
    rw [List.drop_nil] at hk
    cases hk
  | @plain t ts hopen hclose _ ih =>
    rcases k with _ | k
    · obtain ⟨rfl, -⟩ := List.cons.inj hk
      exact absurd rfl hopen
    · exact ih hk
  | @parens body rest hbody _ ihbody ihrest =>
    rcases k with _ | k
    · obtain ⟨-, rfl⟩ := List.cons.inj hk
      exact ⟨body, rest, rfl, hbody⟩
    · rw [List.drop_succ_cons, List.drop_append] at hk
      rcases hin : body.drop k with _ | ⟨t, more⟩
      · -- the place is behind the parenthesis, or at its end
        rw [hin, List.nil_append] at hk
        rcases hn : k - body.length with _ | n
        · rw [hn, List.drop_zero] at hk
          cases hk
        · rw [hn, List.drop_succ_cons] at hk
          exact ihrest hk
      · -- the place is inside the parenthesis, and so is what it encloses
        have hlt : k < body.length := by
          have hlength := congrArg List.length hin
          simp only [List.length_drop, List.length_cons] at hlength
          omega
        rw [hin, Nat.sub_eq_zero_of_le (Nat.le_of_lt hlt), List.drop_zero, List.cons_append] at hk
        obtain ⟨rfl, rfl⟩ := List.cons.inj hk
        obtain ⟨body', rest', rfl, hbody'⟩ := ihbody hin
        exact ⟨body', rest' ++ .closeParen :: rest, by simp, hbody'⟩

theorem Balanced.length_inside {ts tail : List Token} (h : Balanced ts) {k : Nat}
    (hk : ts.drop k = .openParen :: tail) : k + (inside ts k).length + 1 < ts.length := by
  obtain ⟨rest, hdrop, -⟩ := h.drop_eq hk
  have hlength := congrArg List.length hdrop
  simp only [List.length_drop, List.length_cons, List.length_append] at hlength
  omega

theorem inside_append_left {xs tail : List Token} (h : Balanced xs) {k : Nat}
    (hk : xs.drop k = .openParen :: tail) (ts : List Token) :
    inside (xs ++ ts) k = inside xs k := by
  obtain ⟨rest, hdrop, hbody⟩ := h.drop_eq hk
  have hlength := h.length_inside hk
  apply inside_eq hbody
  show _ = .openParen :: (inside xs k ++ .closeParen :: (rest ++ ts))
  rw [List.drop_append_of_le_length (by omega), hdrop]
  simp

theorem inside_append_right (xs ts : List Token) (k : Nat) :
    inside (xs ++ ts) (xs.length + k) = inside ts k := by
  rw [inside, inside, Nat.add_assoc, ← List.drop_drop, List.drop_left]

/-! ## Places of sub-selects -/

/-- Whether a parenthesis opens here, directly before `SELECT`. -/
def opensSelect : List Token → Bool
  | .openParen :: t :: _ => t.isKeyword "SELECT"
  | _ => false

/-- The places at which a parenthesis opens directly before `SELECT`. -/
def selectPlaces (ts : List Token) : List Nat :=
  (List.range ts.length).filter fun k => opensSelect (ts.drop k)

theorem drop_of_mem_selectPlaces {ts : List Token} {k : Nat} (h : k ∈ selectPlaces ts) :
    ∃ tail, ts.drop k = .openParen :: tail := by
  have hopens := (List.mem_filter.1 h).2
  unfold opensSelect at hopens
  split at hopens
  · next hdrop => exact ⟨_, hdrop⟩
  · cases hopens

theorem lt_of_mem_selectPlaces {ts : List Token} {k : Nat} (h : k ∈ selectPlaces ts) :
    k < ts.length :=
  List.mem_range.1 (List.mem_filter.1 h).1

theorem selectPlaces_cons (t : Token) (ts : List Token) :
    selectPlaces (t :: ts) = (if opensSelect (t :: ts) then [0] else []) ++
      (selectPlaces ts).map (· + 1) := by
  rw [selectPlaces, List.length_cons, List.range_succ_eq_map, List.filter_cons, List.filter_map]
  by_cases h : opensSelect (t :: ts) = true
  · simp [h, selectPlaces, Function.comp_def]
  · simp [h, selectPlaces, Function.comp_def]

theorem length_selectPlaces_cons (t : Token) (ts : List Token) :
    (selectPlaces (t :: ts)).length = (opensSelect (t :: ts)).toNat + (selectPlaces ts).length := by
  rw [selectPlaces_cons, List.length_append, List.length_map]
  cases opensSelect (t :: ts) <;> rfl

theorem length_selectPlaces_append_le (xs ts : List Token) :
    (selectPlaces xs).length + (selectPlaces ts).length ≤ (selectPlaces (xs ++ ts)).length := by
  induction xs with
  | nil => simp [selectPlaces]
  | cons t xs ih =>
    have hhead : (opensSelect (t :: xs)).toNat ≤ (opensSelect (t :: (xs ++ ts))).toNat := by
      rcases xs with _ | ⟨u, xs⟩
      · cases t <;> exact Nat.zero_le _
      · cases t <;> exact Nat.le_refl _
    rw [List.cons_append, length_selectPlaces_cons, length_selectPlaces_cons]
    omega

/-- Only a parenthesis that opens at the end of a row can be taken for one before `SELECT` by what
is put behind the row. -/
theorem selectPlaces_append {xs : List Token} (h : xs.getLast? ≠ some .openParen)
    (ts : List Token) :
    selectPlaces (xs ++ ts) = selectPlaces xs ++ (selectPlaces ts).map (xs.length + ·) := by
  induction xs with
  | nil => simp [selectPlaces]
  | cons t xs ih =>
    have hhead : opensSelect (t :: (xs ++ ts)) = opensSelect (t :: xs) := by
      rcases xs with _ | ⟨u, xs⟩
      · have ht : t ≠ .openParen := by simpa using h
        cases t <;> first | rfl | exact absurd rfl ht
      · cases t <;> rfl
    have hrest : xs.getLast? ≠ some .openParen := by
      rcases xs with _ | ⟨u, xs⟩
      · simp
      · simpa using h
    rw [List.cons_append, selectPlaces_cons, selectPlaces_cons, hhead, ih hrest]
    simp [Function.comp_def, Nat.add_right_comm]

theorem Balanced.getLast? {xs : List Token} (h : Balanced xs) : xs.getLast? ≠ some .openParen := by
  induction h with
  | nil => simp
  | @plain t xs hopen _ _ ih =>
    rcases xs with _ | ⟨u, xs⟩
    · simpa using hopen
    · simpa using ih
  | @parens body rest _ _ _ ih =>
    rcases rest with _ | ⟨u, rest⟩
    · simp [List.getLast?_cons, List.getLast?_append]
    · simpa [List.getLast?_cons, List.getLast?_append] using ih

end IndexAdvisor.Sql
