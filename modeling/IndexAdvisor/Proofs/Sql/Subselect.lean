import IndexAdvisor.Proofs.Sql.Balance
import IndexAdvisor.Proofs.Sql.Spelling
import IndexAdvisor.Sql.Subselect

/-!
# Sub-selects at any depth

The search for sub-selects finds the outermost ones; going on inside those that are answered reaches
the sub-selects at every depth. In balanced tokens this is said without a search: the sub-selects
stand in the parentheses that open directly before `SELECT`, and one is reached if all those around
it are answered.

> `flatMap_reachedInsides`: the outermost sub-selects, each with what is reached inside it if it is
> answered, are what is reached, in the order in which their parentheses open.

Both sides are put together from balanced parts (`reachedInsides_append`, `subselectsFrom_append`).
-/

namespace IndexAdvisor.Sql

/-- Whether the place `k` lies inside the parenthesis that opens at the place `j`. -/
def Around (ts : List Token) (j k : Nat) : Prop := j < k ∧ k ≤ j + (inside ts j).length

instance (ts : List Token) (j k : Nat) : Decidable (Around ts j k) :=
  inferInstanceAs (Decidable (_ ∧ _))

/-- Whether all sub-selects around a place are answered. -/
def Reached (answered : List Token → Bool) (ts : List Token) (k : Nat) : Prop :=
  ∀ j ∈ selectPlaces ts, Around ts j k → answered (inside ts j) = true

instance (answered : List Token → Bool) (ts : List Token) (k : Nat) :
    Decidable (Reached answered ts k) :=
  inferInstanceAs (Decidable (∀ j ∈ selectPlaces ts, Around ts j k → answered (inside ts j) = true))

/-- The sub-selects that are reached, in the order in which their parentheses open. -/
def reachedInsides (answered : List Token → Bool) (ts : List Token) : List (List Token) :=
  ((selectPlaces ts).filter fun k => Reached answered ts k).map (inside ts)

variable {answered : List Token → Bool} {xs ts : List Token}

/-! ## What is reached, part by part -/

theorem inside_append_of_mem (hxs : Balanced xs) {k : Nat} (hk : k ∈ selectPlaces xs) :
    inside (xs ++ ts) k = inside xs k := by
  obtain ⟨tail, hdrop⟩ := drop_of_mem_selectPlaces hk
  exact inside_append_left hxs hdrop ts

theorem length_inside_of_mem (hxs : Balanced xs) {k : Nat} (hk : k ∈ selectPlaces xs) :
    k + (inside xs k).length + 1 < xs.length := by
  obtain ⟨tail, hdrop⟩ := drop_of_mem_selectPlaces hk
  exact hxs.length_inside hdrop

theorem reached_append_left (hxs : Balanced xs) {k : Nat} (hk : k < xs.length) :
    Reached answered (xs ++ ts) k ↔ Reached answered xs k := by
  unfold Reached
  rw [selectPlaces_append hxs.getLast?]
  constructor
  · intro h j hj haround
    rw [← inside_append_of_mem hxs hj]
    apply h j (List.mem_append_left _ hj)
    rwa [Around, inside_append_of_mem hxs hj]
  · intro h j hj haround
    rcases List.mem_append.1 hj with hj | hj
    · rw [Around, inside_append_of_mem hxs hj] at haround
      rw [inside_append_of_mem hxs hj]
      exact h j hj haround
    · -- a parenthesis behind the row is around no place in it
      obtain ⟨j, -, rfl⟩ := List.mem_map.1 hj
      have hlt := haround.1
      omega

theorem reached_append_right (hxs : Balanced xs) (k : Nat) :
    Reached answered (xs ++ ts) (xs.length + k) ↔ Reached answered ts k := by
  unfold Reached
  rw [selectPlaces_append hxs.getLast?]
  constructor
  · intro h j hj haround
    rw [← inside_append_right xs]
    apply h _ (List.mem_append_right _ (List.mem_map_of_mem hj))
    obtain ⟨hlt, hle⟩ := haround
    rw [Around, inside_append_right]
    omega
  · intro h j hj haround
    rcases List.mem_append.1 hj with hj | hj
    · -- a parenthesis in the balanced row is closed before the row ends
      have hlength := length_inside_of_mem hxs hj
      have hle := haround.2
      rw [inside_append_of_mem hxs hj] at hle
      omega
    · obtain ⟨i, hi, rfl⟩ := List.mem_map.1 hj
      obtain ⟨hlt, hle⟩ := haround
      rw [inside_append_right] at hle ⊢
      exact h i hi ⟨by omega, by omega⟩

theorem reachedInsides_append (hxs : Balanced xs) :
    reachedInsides answered (xs ++ ts) = reachedInsides answered xs ++
      reachedInsides answered ts := by
  unfold reachedInsides
  rw [selectPlaces_append hxs.getLast?, List.filter_append, List.map_append,
    List.filter_map, List.map_map]
  congr 1
  · have hfilter : (selectPlaces xs).filter (fun k => Reached answered (xs ++ ts) k) =
        (selectPlaces xs).filter (fun k => Reached answered xs k) :=
      List.filter_congr fun k hk => decide_eq_decide.2
        (reached_append_left hxs (lt_of_mem_selectPlaces hk))
    rw [hfilter]
    apply List.map_congr_left
    intro k hk
    exact inside_append_of_mem hxs (List.mem_filter.1 hk).1
  · have hfilter : (selectPlaces ts).filter
          ((fun k => decide (Reached answered (xs ++ ts) k)) ∘ (xs.length + ·)) =
        (selectPlaces ts).filter (fun k => Reached answered ts k) :=
      List.filter_congr fun k _ => decide_eq_decide.2 (reached_append_right hxs k)
    rw [hfilter]
    apply List.map_congr_left
    intro k _
    exact inside_append_right xs ts k

variable {body : List Token}

/-- Whether what stands in a parenthesis is a sub-select. -/
def isSelect (body : List Token) : Bool := body.head?.any (·.isKeyword "SELECT")

theorem selectPlaces_parens (hbody : Balanced body) :
    selectPlaces (.openParen :: (body ++ [.closeParen])) =
      (if isSelect body then [0] else []) ++ (selectPlaces body).map (· + 1) := by
  have hhead : opensSelect (.openParen :: (body ++ [.closeParen])) = isSelect body := by
    cases body <;> rfl
  have hend : selectPlaces [.closeParen] = [] := rfl
  rw [selectPlaces_cons, hhead, selectPlaces_append hbody.getLast?, hend,
    List.map_nil, List.append_nil]

theorem inside_parens_zero (hbody : Balanced body) :
    inside (.openParen :: (body ++ [.closeParen])) 0 = body := inside_eq hbody rfl

theorem inside_parens_succ (hbody : Balanced body) {k : Nat} (hk : k ∈ selectPlaces body) :
    inside (.openParen :: (body ++ [.closeParen])) (k + 1) = inside body k :=
  inside_append_of_mem hbody hk

theorem reached_parens (hbody : Balanced body) {k : Nat} (hk : k ∈ selectPlaces body) :
    Reached answered (.openParen :: (body ++ [.closeParen])) (k + 1) ↔
      (isSelect body = true → answered body = true) ∧ Reached answered body k := by
  unfold Reached
  rw [selectPlaces_parens hbody]
  constructor
  · intro h
    refine ⟨fun hselect => ?_, fun j hj haround => ?_⟩
    · have hlength := length_inside_of_mem hbody hk
      have hbodyAnswered := h 0 (by simp [hselect])
      rw [Around, inside_parens_zero hbody] at hbodyAnswered
      exact hbodyAnswered ⟨by omega, by omega⟩
    · have hinner := h (j + 1) (List.mem_append_right _ (List.mem_map_of_mem hj))
      rw [Around, inside_parens_succ hbody hj] at hinner
      obtain ⟨hlt, hle⟩ := haround
      exact hinner ⟨by omega, by omega⟩
  · rintro ⟨hself, hinner⟩ j hj haround
    rcases List.mem_append.1 hj with hj | hj
    · split at hj
      · next hselect =>
        obtain rfl := List.mem_singleton.1 hj
        rw [inside_parens_zero hbody]
        exact hself hselect
      · cases hj
    · obtain ⟨i, hi, rfl⟩ := List.mem_map.1 hj
      obtain ⟨hlt, hle⟩ := haround
      rw [inside_parens_succ hbody hi] at hle ⊢
      exact hinner i hi ⟨by omega, by omega⟩

/-- What is reached in a parenthesis: itself if it is a sub-select, and what is reached inside it
unless it is a sub-select without an answer. -/
theorem reachedInsides_parens (hbody : Balanced body) :
    reachedInsides answered (.openParen :: (body ++ [.closeParen])) =
      (if isSelect body then [body] else []) ++
        (if isSelect body && !answered body then [] else reachedInsides answered body) := by
  have hzero : Reached answered (.openParen :: (body ++ [.closeParen])) 0 :=
    fun j _ haround => absurd haround.1 (Nat.not_lt_zero j)
  unfold reachedInsides
  rw [selectPlaces_parens hbody, List.filter_append, List.map_append, List.filter_map, List.map_map]
  congr 1
  · by_cases hselect : isSelect body = true
    · simp [hselect, hzero, inside_parens_zero hbody]
    · simp [hselect]
  · by_cases hself : isSelect body = true → answered body = true
    · have hfilter : (selectPlaces body).filter
            ((fun k => decide (Reached answered (.openParen :: (body ++ [.closeParen])) k)) ∘
              (· + 1)) =
          (selectPlaces body).filter fun k => Reached answered body k := by
        apply List.filter_congr
        intro k hk
        rw [Function.comp_apply, decide_eq_decide, reached_parens hbody hk]
        exact and_iff_right hself
      rw [hfilter, if_neg (by simpa using hself)]
      apply List.map_congr_left
      intro k hk
      exact inside_parens_succ hbody (List.mem_filter.1 hk).1
    · rw [if_pos (by simpa using hself), List.map_eq_nil_iff, List.filter_eq_nil_iff]
      intro k hk hreached
      rw [Function.comp_apply, decide_eq_true_eq, reached_parens hbody hk] at hreached
      exact hself hreached.1

/-! ## The search, part by part -/

theorem subselectsFrom_plain (whole : Bool) {t : Token} (hopen : t ≠ .openParen) :
    subselectsFrom whole (t :: ts) = subselectsFrom false ts := by
  rw [subselectsFrom.eq_def]
  cases t <;> first | rfl | exact absurd rfl hopen

theorem subselectsFrom_parens (hbody : Balanced body) :
    subselectsFrom false (.openParen :: (body ++ .closeParen :: ts)) =
      if isSelect body then body :: subselectsFrom false ts
      else subselectsFrom false (body ++ .closeParen :: ts) := by
  rw [subselectsFrom.eq_def]
  dsimp only
  split
  · next h =>
    rw [enclosed?_balanced hbody] at h
    cases h
  · next h =>
    rw [enclosed?_balanced hbody] at h
    cases h
    rw [Bool.false_and, Bool.not_false, Bool.and_true]
    rfl

theorem subselectsFrom_append (hxs : Balanced xs) :
    subselectsFrom false (xs ++ ts) = subselectsFrom false xs ++ subselectsFrom false ts := by
  induction hxs generalizing ts with
  | nil => rw [List.nil_append, subselectsFrom, List.nil_append]
  | @plain t xs hopen _ _ ih =>
    rw [List.cons_append, subselectsFrom_plain false hopen, subselectsFrom_plain false hopen, ih]
  | @parens body rest hbody _ ihbody ihrest =>
    have hclose (us : List Token) : subselectsFrom false (.closeParen :: us) =
        subselectsFrom false us :=
      subselectsFrom_plain false (by decide)
    rw [List.cons_append, List.append_assoc, List.cons_append, subselectsFrom_parens hbody,
      subselectsFrom_parens hbody, ihrest]
    split
    · rfl
    · rw [ihbody, ihbody, hclose, hclose, ihrest, List.append_assoc]

/-- The outermost sub-selects, each with what is reached inside it if it is answered, are what is
reached. -/
theorem flatMap_reachedInsides (hts : Balanced ts) :
    ((subselectsFrom false ts).flatMap fun body =>
        body :: if answered body then reachedInsides answered body else []) =
      reachedInsides answered ts := by
  induction hts with
  | nil =>
    rw [subselectsFrom]
    rfl
  | @plain t ts hopen hclose _ ih =>
    have ht : Balanced [t] := .plain hopen hclose .nil
    have hnone : reachedInsides answered [t] = [] := by cases t <;> rfl
    rw [subselectsFrom_plain false hopen, ih, ← List.singleton_append, reachedInsides_append ht,
      hnone, List.nil_append]
  | @parens body rest hbody _ ihbody ihrest =>
    have hsplit : Token.openParen :: (body ++ .closeParen :: rest) =
        (.openParen :: (body ++ [.closeParen])) ++ rest := by simp
    have hparens : Balanced (.openParen :: (body ++ [.closeParen])) := .parens hbody .nil
    have hclose : subselectsFrom false [.closeParen] = [] := by
      rw [subselectsFrom_plain false (by decide), subselectsFrom]
    rw [hsplit, subselectsFrom_append hparens, reachedInsides_append hparens, List.flatMap_append,
      ihrest, reachedInsides_parens hbody, subselectsFrom_parens hbody]
    congr 1
    by_cases hselect : isSelect body = true
    · rw [if_pos hselect, if_pos hselect]
      cases hanswered : answered body <;> simp [hselect, hanswered, subselectsFrom]
    · rw [if_neg hselect, if_neg hselect, subselectsFrom_append hbody, hclose,
        List.append_nil, ihbody]
      simp [hselect]

/-! ## The parts that are found -/

theorem subselectsFrom_of_head (whole : Bool) (h : ts.head? ≠ some .openParen) :
    subselectsFrom whole ts = subselectsFrom false ts := by
  rcases ts with _ | ⟨t, ts⟩
  · rw [subselectsFrom, subselectsFrom]
  · have hopen : t ≠ .openParen := by simpa using h
    rw [subselectsFrom_plain whole hopen, subselectsFrom_plain false hopen]

theorem mem_subselectsFrom {whole : Bool} (h : body ∈ subselectsFrom whole ts) :
    isSelect body = true ∧ body <:+: ts ∧ body.length < ts.length := by
  fun_induction subselectsFrom whole ts with
  | case1 => cases h
  | case2 => cases h
  | case3 whole inner body' after henclosed hselect ih =>
    obtain rfl := splitClose_eq henclosed
    rcases List.mem_cons.1 h with rfl | h
    · refine ⟨(Bool.and_eq_true_iff.1 hselect).1, ⟨[.openParen], .closeParen :: after, by simp⟩, ?_⟩
      simp only [List.length_cons, List.length_append]
      omega
    · obtain ⟨hbody, hpart, hlength⟩ := ih h
      refine ⟨hbody, hpart.trans ⟨.openParen :: (body' ++ [.closeParen]), [], by simp⟩, ?_⟩
      simp only [List.length_cons, List.length_append]
      omega
  | case4 whole inner body' after henclosed hselect ih =>
    obtain ⟨hbody, hpart, hlength⟩ := ih h
    exact ⟨hbody, hpart.trans (List.infix_cons (List.infix_refl _)), Nat.lt_succ_of_lt hlength⟩
  | case5 whole t rest hopen ih =>
    obtain ⟨hbody, hpart, hlength⟩ := ih h
    exact ⟨hbody, hpart.trans (List.infix_cons (List.infix_refl _)), Nat.lt_succ_of_lt hlength⟩

/-- The parts that are found lie apart, each in a parenthesis of its own. So if no more is asked
inside each of them than there are openings in it, then with the parts themselves no more is asked
than there are openings in all. -/
theorem length_flatMap_subselectsFrom_le (whole : Bool) (ts : List Token)
    {f : List Token → List String}
    (hf : ∀ body ∈ subselectsFrom whole ts, (f body).length ≤ (selectPlaces body).length) :
    ((subselectsFrom whole ts).flatMap fun body => render body :: f body).length ≤
      (selectPlaces ts).length := by
  fun_induction subselectsFrom whole ts with
  | case1 => exact Nat.zero_le _
  | case2 => exact Nat.zero_le _
  | case3 whole inner body after henclosed hselect ih =>
    obtain rfl := splitClose_eq henclosed
    have hopens : opensSelect (.openParen :: (body ++ .closeParen :: after)) = true := by
      have hbody : isSelect body = true := (Bool.and_eq_true_iff.1 hselect).1
      rcases body with _ | ⟨t, body⟩
      · cases hbody
      · exact hbody
    have hbody := hf body (List.mem_cons_self ..)
    have hafter := ih fun b hb => hf b (List.mem_cons_of_mem _ hb)
    have happend := length_selectPlaces_append_le body (.closeParen :: after)
    rw [length_selectPlaces_cons .closeParen] at happend
    rw [length_selectPlaces_cons, hopens, Bool.toNat_true, List.flatMap_cons, List.length_append,
      List.length_cons]
    omega
  | case4 whole inner body after henclosed hselect ih =>
    have hinner := ih hf
    rw [length_selectPlaces_cons]
    omega
  | case5 whole t rest hopen ih =>
    have hrest := ih hf
    rw [length_selectPlaces_cons]
    omega

theorem balanced_of_mem_subselectsFrom (hts : Balanced ts) (h : body ∈ subselectsFrom false ts) :
    Balanced body := by
  induction hts with
  | nil =>
    rw [subselectsFrom] at h
    cases h
  | @plain t ts hopen _ _ ih =>
    rw [subselectsFrom_plain false hopen] at h
    exact ih h
  | @parens body' rest hbody _ ihbody ihrest =>
    rw [subselectsFrom_parens hbody] at h
    split at h
    · rcases List.mem_cons.1 h with rfl | h
      · exact hbody
      · exact ihrest h
    · rw [subselectsFrom_append hbody, subselectsFrom_plain false (by decide)] at h
      rcases List.mem_append.1 h with h | h
      · exact ihbody h
      · exact ihrest h

/-- A sub-select that is rendered by itself has exactly its own tokens. -/
theorem tokens_render_of_mem {whole : Bool} {sql : String}
    (h : body ∈ subselectsFrom whole (tokens sql)) : tokens (render body) = body := by
  obtain ⟨-, hpart, -⟩ := mem_subselectsFrom h
  exact tokens_render fun t ht => tokens_readable sql t (hpart.subset ht)

end IndexAdvisor.Sql
