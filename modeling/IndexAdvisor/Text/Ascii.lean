/-!
# Names compared without regard to ASCII case

Table, index and column names, keywords and aliases are compared after folding the letters A to Z.
No other character is folded, so names that differ in accented letters are different names.

`sameName` is an equivalence relation because it compares folded forms.

Models how `is_named`, `find` and the lookups of `Catalog` compare names.
-/

namespace IndexAdvisor

/-- The form in which a name is compared: A to Z become a to z, all else stays. -/
def nameKey (name : String) : List Char := name.toList.map Char.toLower

/-- Two names are the same when they differ at most in the case of ASCII letters. -/
def sameName (a b : String) : Bool := nameKey a == nameKey b

/-- The letters a to z written as capitals, all else unchanged. -/
def upperCase (s : String) : String := String.ofList (s.toList.map Char.toUpper)

/-- The letters A to Z written small, all else unchanged. -/
def lowerCase (s : String) : String := String.ofList (s.toList.map Char.toLower)

/-- A small letter is no capital, so folding twice is folding once. -/
theorem toLower_toLower (c : Char) : c.toLower.toLower = c.toLower := by
  unfold Char.toLower
  split
  · next h =>
    have hcapital : 65 ≤ c.toNat ∧ c.toNat ≤ 90 := by simpa [UInt32.le_iff_toNat_le] using h
    apply dif_neg
    simp only [UInt32.le_iff_toNat_le, UInt32.toNat_add, Char.reduceVal, UInt32.reduceToNat,
      Char.toNat_val, UInt32.reduceSub, Nat.reducePow]
    omega
  · rfl

theorem toUpper_toLower (c : Char) : c.toLower.toUpper = c.toUpper := by
  unfold Char.toLower
  split
  · next h =>
    have hcapital : 65 ≤ c.toNat ∧ c.toNat ≤ 90 := by simpa [UInt32.le_iff_toNat_le] using h
    unfold Char.toUpper
    rw [dif_pos, dif_neg]
    · apply Char.ext
      show c.val + ('a'.val - 'A'.val) + ('A'.val - 'a'.val) = c.val
      have hback : ('a'.val - 'A'.val) + ('A'.val - 'a'.val) = 0 := by decide
      rw [UInt32.add_assoc, hback, UInt32.add_zero]
    all_goals
      simp only [UInt32.le_iff_toNat_le, UInt32.toNat_add, Char.reduceVal, UInt32.reduceToNat,
        Char.toNat_val, UInt32.reduceSub, Nat.reducePow]
      omega
  · rfl

theorem sameName_iff {a b : String} : sameName a b = true ↔ nameKey a = nameKey b := by
  simp [sameName]

@[simp] theorem sameName_refl (a : String) : sameName a a = true := by
  simp [sameName_iff]

theorem sameName_comm (a b : String) : sameName a b = sameName b a := by
  simp only [sameName, BEq.comm]

theorem sameName_trans {a b c : String} (hab : sameName a b = true) (hbc : sameName b c = true) :
    sameName a c = true := by
  rw [sameName_iff] at *
  exact hab.trans hbc

end IndexAdvisor
