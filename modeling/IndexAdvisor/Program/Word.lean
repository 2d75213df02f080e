/-!
# Register arithmetic

Registers and cursors are numbered by signed 64-bit words, and every place where the advisor
computes such a number goes through this module. A sum that is no word wraps here. On the numbers a
real program holds there is none (`wrap_eq_self`), so it does not matter that the advisor may also
stop at such a sum; `Proofs/Guarded` shows it for whole programs, with every sum checked.

Models the sums in `seek`, `sort_keys`, `through_sorter`, `blob_cast_applies` and
`link_index_to_table`.
-/

namespace IndexAdvisor

/-- The signed 64-bit word congruent to an integer. -/
def wrap (n : Int) : Int := n.bmod 0x10000000000000000

/-- The register `i` places after register `first`. -/
def registerAfter (first : Int) (i : Int) : Int := wrap (first + i)

/-- How many places `register` lies after `first`. -/
def registerOffset (register first : Int) : Int := wrap (register - first)

theorem wrap_eq_self {n : Int} (lower : -0x8000000000000000 ≤ n)
    (upper : n < 0x8000000000000000) : wrap n = n := by
  unfold wrap
  exact Int.bmod_eq_of_le (by omega) (by omega)

end IndexAdvisor
