import IndexAdvisor.Sql.Reference

/-!
# Words and references

Reserved words name nothing, and a word is at most one keyword. A reference to a column is a name,
or a name, a period and a name, so no reserved word is a part of it.
-/

namespace IndexAdvisor.Sql

namespace Token

variable {t : Token} {keyword : String}

/-- A word that is a keyword is another one only if the two are the same but for their case. -/
theorem isKeyword_eq (h : t.isKeyword keyword = true) (other : String) :
    t.isKeyword other = sameName keyword other := by
  unfold isKeyword at h ⊢
  split at h
  · rw [sameName_iff] at h
    rw [sameName, sameName, h]
  · cases h

theorem name?_of_isKeyword (hreserved : keyword ∈ reserved) (h : t.isKeyword keyword = true) :
    t.name? = none := by
  have hone : t.isOneOf reserved = true := List.any_eq_true.2 ⟨keyword, hreserved, h⟩
  unfold isKeyword at h
  split at h
  · rw [name?, if_pos hone]
  · cases h

end Token

namespace ColumnRef

variable {ts : List Token} {ref : ColumnRef}

theorem ofTokens?_single (c : Token) : ofTokens? [c] = c.name?.map fun column => { column } := rfl

/-- Tokens are a reference if they are a name, or two names with a period between them. -/
theorem ofTokens?_eq_some_iff : ofTokens? ts = some ref ↔
    (∃ c, ts = [c] ∧ c.name? = some ref.column ∧ ref.qualifier = none) ∨
      ∃ q c, ts = [q, .period, c] ∧ q.name?.isSome = true ∧ c.name? = some ref.column ∧
        ref.qualifier = q.name? := by
  obtain ⟨qualifier, column⟩ := ref
  constructor
  · intro h
    unfold ofTokens? at h
    split at h
    · next c =>
      obtain ⟨name, hname, hmake⟩ := Option.map_eq_some_iff.1 h
      cases hmake
      exact .inl ⟨c, rfl, hname, rfl⟩
    · next q c =>
      simp only [Option.bind_eq_bind, Option.bind_eq_some_iff, Option.pure_def,
        Option.some.injEq] at h
      obtain ⟨first, hfirst, last, hlast, hmake⟩ := h
      cases hmake
      exact .inr ⟨q, c, rfl, by rw [hfirst]; rfl, hlast, hfirst.symm⟩
    · cases h
  · rintro (⟨c, rfl, hc, hqualifier⟩ | ⟨q, c, rfl, hq, hc, hqualifier⟩)
    · cases hqualifier
      rw [ofTokens?_single, hc]
      rfl
    · obtain ⟨first, hfirst⟩ := Option.isSome_iff_exists.1 hq
      rw [hfirst] at hqualifier
      cases hqualifier
      simp only [ofTokens?, hfirst, hc, Option.bind_eq_bind, Option.bind_some, Option.pure_def]

theorem length_of_ofTokens? (h : (ofTokens? ts).isSome = true) : ts.length = 1 ∨ ts.length = 3 := by
  obtain ⟨ref, href⟩ := Option.isSome_iff_exists.1 h
  rcases ofTokens?_eq_some_iff.1 href with ⟨c, rfl, -, -⟩ | ⟨q, c, rfl, -, -, -⟩
  · exact .inl rfl
  · exact .inr rfl

/-- A reference is made of names and periods. -/
theorem name_or_period_of_mem (h : ofTokens? ts = some ref) {t : Token} (ht : t ∈ ts) :
    t.name?.isSome = true ∨ t = .period := by
  rcases ofTokens?_eq_some_iff.1 h with ⟨c, rfl, hc, -⟩ | ⟨q, c, rfl, hq, hc, -⟩
  · rw [List.mem_singleton.1 ht, hc]
    exact .inl rfl
  · rcases List.mem_cons.1 ht with rfl | ht
    · exact .inl hq
    · rcases List.mem_cons.1 ht with rfl | ht
      · exact .inr rfl
      · rw [List.mem_singleton.1 ht, hc]
        exact .inl rfl

/-- A reserved word is no part of a reference. -/
theorem ofTokens?_of_mem_isKeyword {t : Token} {keyword : String}
    (hreserved : keyword ∈ Token.reserved) (h : t.isKeyword keyword = true) (ht : t ∈ ts) :
    ofTokens? ts = none := by
  rw [Option.eq_none_iff_forall_ne_some]
  intro ref href
  rcases name_or_period_of_mem href ht with hname | rfl
  · rw [Token.name?_of_isKeyword hreserved h] at hname
    cases hname
  · cases h

end ColumnRef

end IndexAdvisor.Sql
