import Mathlib.Data.Nat.Count
import Mathlib.Tactic.Common
set_option autoImplicit false

/-! Counting a predicate below a bound when it changes on one interval. -/

namespace RangeCount

variable {p q : Nat → Prop} [DecidablePred p] [DecidablePred q] {lo n m : Nat}

theorem count_congr (h : ∀ b < n, p b ↔ q b) : Nat.count p n = Nat.count q n :=
  Nat.le_antisymm (Nat.count_mono_left fun b hb => (h b hb).mp)
    (Nat.count_mono_left fun b hb => (h b hb).mpr)

theorem count_split (hfit : lo + n ≤ m) : Nat.count p m = Nat.count p lo +
    Nat.count (fun k => p (lo + k)) n + Nat.count (fun k => p (lo + n + k)) (m - (lo + n)) := by
  have hm : m = lo + n + (m - (lo + n)) := by omega
  rw [← Nat.count_add, ← Nat.count_add, ← hm]

theorem count_set_range (hfit : lo + n ≤ m) (h : ∀ b < m, q b ↔ (lo ≤ b ∧ b < lo + n) ∨ p b) :
    Nat.count q m + Nat.count (fun k => p (lo + k)) n = Nat.count p m + n := by
  have hbelow : Nat.count q lo = Nat.count p lo := count_congr fun b hb => by
    rw [h b (by omega), or_iff_right (by omega)]
  have hon : Nat.count (fun k => q (lo + k)) n = n := Nat.count_of_forall fun k hk => by
    rw [h _ (by omega)]
    exact Or.inl (by omega)
  have habove : Nat.count (fun k => q (lo + n + k)) (m - (lo + n)) =
      Nat.count (fun k => p (lo + n + k)) (m - (lo + n)) := count_congr fun k hk => by
    rw [h _ (by omega), or_iff_right (by omega)]
  rw [count_split (p := q) hfit, count_split (p := p) hfit, hbelow, hon, habove]
  omega

theorem count_clear_range (hfit : lo + n ≤ m) (h : ∀ b < m, q b ↔ ¬(lo ≤ b ∧ b < lo + n) ∧ p b) :
    Nat.count q m + Nat.count (fun k => p (lo + k)) n = Nat.count p m := by
  have hbelow : Nat.count q lo = Nat.count p lo := count_congr fun b hb => by
    rw [h b (by omega), and_iff_right (by omega)]
  have hon : Nat.count (fun k => q (lo + k)) n = 0 := Nat.count_of_forall_not fun k hk => by
    rw [h _ (by omega)]
    exact fun hno => hno.1 (by omega)
  have habove : Nat.count (fun k => q (lo + n + k)) (m - (lo + n)) =
      Nat.count (fun k => p (lo + n + k)) (m - (lo + n)) := count_congr fun k hk => by
    rw [h _ (by omega), and_iff_right (by omega)]
  rw [count_split (p := q) hfit, count_split (p := p) hfit, hbelow, hon, habove]
  omega

end RangeCount
