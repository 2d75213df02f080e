import IndexAdvisor.Proofs.Sql.Subselect
import IndexAdvisor.Sql.NullTest
import IndexAdvisor.Sql.OrderBy
import IndexAdvisor.Sql.Source

/-!
# The one spelling of a statement

A statement and its one spelling have the same tokens, and whatever is read off the tokens is the
same for both. A sub-select is cut out of a statement in this spelling already:

> `normalize_reads_back`: rendering the tokens of any text gives a text with exactly these tokens.

Where a sub-select is cut out is told by places: it is the inside of a parenthesis that opens at its
place and is closed again (`Encloses`), and the places go up through the statement
(`subselectsFrom_places`).
-/

namespace IndexAdvisor.Sql

/-- Whether a parenthesis opens at a place and its inside is followed by the one that closes it. -/
def Encloses (ts : List Token) (k : Nat) : Prop :=
  ∃ rest, ts.drop k = .openParen :: (inside ts k ++ .closeParen :: rest) ∧ Balanced (inside ts k)

theorem encloses_zero {inner body after : List Token} (h : enclosed? inner = some (body, after)) :
    Encloses (.openParen :: inner) 0 ∧ inside (.openParen :: inner) 0 = body := by
  have hbody := balanced_of_enclosed? h
  obtain rfl := splitClose_eq h
  have hinside : inside (.openParen :: (body ++ .closeParen :: after)) 0 = body :=
    inside_eq hbody rfl
  refine ⟨⟨after, ?_, ?_⟩, hinside⟩
  · rw [hinside, List.drop_zero]
  · rw [hinside]
    exact hbody

/-- Tokens in front of a parenthesis only move its place. -/
theorem Encloses.append {ts : List Token} {k : Nat} (h : Encloses ts k) (front : List Token) :
    Encloses (front ++ ts) (front.length + k) := by
  obtain ⟨rest, hdrop, hbody⟩ := h
  refine ⟨rest, ?_, ?_⟩
  · rw [inside_append_right, ← List.drop_drop, List.drop_left, hdrop]
  · rw [inside_append_right]
    exact hbody

/-- The places at which parts are cut out of some tokens: they go up, and at each a parenthesis
encloses the part. -/
def CutAt (ts : List Token) (places : List Nat) (parts : List (List Token)) : Prop :=
  places.Pairwise (· < ·) ∧ (∀ k ∈ places, Encloses ts k) ∧ parts = places.map (inside ts)

theorem cutAt_nil (ts : List Token) : CutAt ts [] [] := ⟨.nil, List.forall_mem_nil _, rfl⟩

theorem CutAt.append {ts : List Token} {places : List Nat} {parts : List (List Token)}
    (h : CutAt ts places parts) (front : List Token) :
    CutAt (front ++ ts) (places.map (front.length + ·)) parts := by
  obtain ⟨hsorted, hencloses, rfl⟩ := h
  refine ⟨?_, ?_, ?_⟩
  · rw [List.pairwise_map]
    exact hsorted.imp fun hlt => Nat.add_lt_add_left hlt _
  · intro k hk
    obtain ⟨j, hj, rfl⟩ := List.mem_map.1 hk
    exact (hencloses j hj).append front
  · rw [List.map_map]
    apply List.map_congr_left
    intro k _
    exact (inside_append_right front ts k).symm

/-- The sub-selects of some tokens stand in parentheses, one behind the other. -/
theorem subselectsFrom_places (whole : Bool) (ts : List Token) :
    ∃ places, CutAt ts places (subselectsFrom whole ts) := by
  fun_induction subselectsFrom whole ts with
  | case1 => exact ⟨[], cutAt_nil _⟩
  | case2 => exact ⟨[], cutAt_nil _⟩
  | case3 whole inner body after henclosed _ ih =>
    obtain ⟨places, hplaces⟩ := ih
    obtain ⟨hencloses, hinside⟩ := encloses_zero henclosed
    obtain rfl := splitClose_eq henclosed
    -- the parenthesis at the front, and then those behind its end
    have hfront := hplaces.append (.openParen :: (body ++ [.closeParen]))
    rw [List.cons_append, List.append_assoc, List.singleton_append] at hfront
    obtain ⟨hsorted, hall, hparts⟩ := hfront
    refine ⟨0 :: places.map ((Token.openParen :: (body ++ [.closeParen])).length + ·), ?_, ?_, ?_⟩
    · refine List.pairwise_cons.2 ⟨fun k hk => ?_, hsorted⟩
      obtain ⟨j, -, rfl⟩ := List.mem_map.1 hk
      rw [List.length_cons]
      omega
    · exact List.forall_mem_cons.2 ⟨hencloses, hall⟩
    · rw [List.map_cons, hinside, hparts]
  | case4 whole inner _ _ _ _ ih =>
    obtain ⟨places, hplaces⟩ := ih
    exact ⟨_, hplaces.append [.openParen]⟩
  | case5 whole t rest _ ih =>
    obtain ⟨places, hplaces⟩ := ih
    exact ⟨_, hplaces.append [t]⟩

theorem tokenize?_normalize (sql : String) : tokenize? (normalize sql) = some (tokens sql) :=
  tokenize?_render (tokens_readable sql)

@[simp] theorem tokens_normalize (sql : String) : tokens (normalize sql) = tokens sql :=
  tokens_render (tokens_readable sql)

/-- A part that is cut out of a statement is the one spelling of its tokens. -/
theorem tokenize?_of_mem_subselectsFrom {whole : Bool} {sql : String} {body : List Token}
    (h : body ∈ subselectsFrom whole (tokens sql)) : tokenize? (render body) = some body := by
  obtain ⟨-, hpart, -⟩ := mem_subselectsFrom h
  exact tokenize?_render fun t ht => tokens_readable sql t (hpart.subset ht)

/-- Rendering the tokens of a text gives a text with the same tokens. So the one spelling is its own
one spelling, every sub-select is a text in this spelling whose tokens stand in a parenthesis of the
statement, and whatever is read off the tokens of a statement is read off its one spelling too. -/
theorem normalize_reads_back (sql : String) :
    tokenize? (render (tokens sql)) = some (tokens sql) ∧
      normalize (normalize sql) = normalize sql ∧
      (∃ places, CutAt (tokens sql) places (subselectsFrom true (tokens sql)) ∧
        (subselects sql).map tokenize? = places.map fun k => some (inside (tokens sql) k)) ∧
      (subselects sql).map normalize = subselects sql ∧
      tableRefs (tokens (normalize sql)) = tableRefs (tokens sql) ∧
      selectItems (tokens (normalize sql)) = selectItems (tokens sql) ∧
      sortTerms (tokens (normalize sql)) = sortTerms (tokens sql) ∧
      nullTests (tokens (normalize sql)) = nullTests (tokens sql) ∧
      subselects (normalize sql) = subselects sql := by
  have hread (body : List Token) (h : body ∈ subselectsFrom true (tokens sql)) :
      tokenize? (render body) = some body := tokenize?_of_mem_subselectsFrom h
  refine ⟨tokenize?_normalize sql, ?_, ?_, ?_, by simp, by simp, by simp, by simp, ?_⟩
  · rw [normalize, tokens_normalize, normalize]
  · obtain ⟨places, hcut⟩ := subselectsFrom_places true (tokens sql)
    refine ⟨places, hcut, ?_⟩
    calc (subselects sql).map tokenize?
        = (subselectsFrom true (tokens sql)).map fun body => tokenize? (render body) := List.map_map
      _ = (subselectsFrom true (tokens sql)).map some := List.map_congr_left hread
      _ = places.map fun k => some (inside (tokens sql) k) := by rw [hcut.2.2, List.map_map]; rfl
  · rw [subselects, List.map_map]
    apply List.map_congr_left
    intro body hbody
    rw [Function.comp_apply, normalize, tokens, hread body hbody, Option.getD_some]
  · rw [subselects, tokens_normalize, subselects]

/-- Comments go, every other spelling stays what it means: doubled quotes, numerals of all kinds and
an operator with two spellings. -/
theorem normalize_reads_back_quoted :
    let sql :=
      "SELECT \"a\"\"b\",x'0F' /* ) */ FROM[t]WHERE c!=0x1f AND d IN(SELECT 1.5e-3L--(\n FROM `u` );"
    let part := "SELECT 1.5e-3L FROM `u`"
    normalize sql = "SELECT \"a\"\"b\" , X'0F' FROM [t] WHERE c <> X'1f' AND d IN ( " ++ part ++
      " ) ;" ∧
      subselects sql = [part] ∧ tokenize? (normalize sql) = some (tokens sql) ∧
      (subselects sql).map normalize = subselects sql := by
  intro sql part
  have hreads := normalize_reads_back sql
  exact ⟨by decide +kernel, by decide +kernel, hreads.1, hreads.2.2.2.1⟩

end IndexAdvisor.Sql
