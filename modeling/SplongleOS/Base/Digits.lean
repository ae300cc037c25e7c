import Mathlib.Algebra.Group.Nat.Defs
import Mathlib.Tactic.Common
set_option autoImplicit false

/-! The digits of a number, last digit first, as a loop of divisions finds them. -/

namespace Digits

/-- `do { out[k++] = n % radix; n /= radix; } while (n > 0)` into a buffer of fixed size. -/
def backward (radix : Nat) : Nat → Nat → List Nat
  | 0, _ => []
  | size + 1, n => n % radix :: if 0 < n / radix then backward radix size (n / radix) else []

theorem length_backward (radix size n : Nat) : (backward radix size n).length ≤ size := by
  induction size generalizing n with
  | zero => simp [backward]
  | succ size ih =>
    have h := ih (n / radix)
    simp only [backward, List.length_cons]
    split
    · omega
    · simp

theorem lt_of_mem_backward {radix size n d : Nat} (hradix : 0 < radix)
    (h : d ∈ backward radix size n) : d < radix := by
  induction size generalizing n with
  | zero => simp [backward] at h
  | succ size ih =>
    rw [backward, List.mem_cons] at h
    cases h with
    | inl heq => exact heq ▸ Nat.mod_lt _ hradix
    | inr hmem =>
      split at hmem
      · exact ih hmem
      · simp at hmem

theorem backward_toDigits {radix size n : Nat} (hradix : 1 < radix) (hfit : n < radix ^ (size + 1)) :
    (backward radix (size + 1) n).reverse.map Nat.digitChar = Nat.toDigits radix n := by
  induction size generalizing n with
  | zero =>
    have hlt : n < radix := by simpa using hfit
    simp [backward, Nat.div_eq_of_lt hlt, Nat.mod_eq_of_lt hlt, Nat.toDigits_of_lt_base hlt]
  | succ size ih =>
    rw [backward]
    by_cases hlt : n < radix
    · simp [Nat.div_eq_of_lt hlt, Nat.mod_eq_of_lt hlt, Nat.toDigits_of_lt_base hlt]
    · have hpos : 0 < n / radix := Nat.div_pos (by omega) (by omega)
      have hnext : n / radix < radix ^ (size + 1) := by
        rw [Nat.div_lt_iff_lt_mul (by omega), ← Nat.pow_succ]
        exact hfit
      have hle : radix ≤ n := by omega
      rw [if_pos hpos, List.reverse_cons, List.map_append, ih hnext,
        Nat.toDigits_of_base_le hradix hle]
      simp

end Digits
