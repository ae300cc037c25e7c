import Mathlib.Tactic.Common
set_option autoImplicit false

/-! `for (int i = lo; i < bound; ++i)` where `bound` is unsigned, so that the comparison is. -/

namespace CountedLoop

def toUnsigned (i : Int) : Nat := (i % 0x100000000).toNat

theorem toUnsigned_natCast {n : Nat} (h : n < 0x100000000) : toUnsigned n = n := by
  unfold toUnsigned
  omega

variable {σ : Type}

/-- At most `fuel` iterations; `bound` of them are enough. -/
def below (bound : Nat) (body : σ → Int → σ) : Nat → Int → σ → σ
  | 0, _, s => s
  | fuel + 1, i, s =>
    if toUnsigned i < bound then below bound body fuel (i + 1) (body s i) else s

/-- What each iteration carries one further holds at the end. -/
theorem below_invariant {P : Nat → σ → Prop} {bound : Nat} {body : σ → Int → σ}
    (hbound : bound < 0x100000000)
    (hstep : ∀ (i : Nat) (s : σ), i < bound → P i s → P (i + 1) (body s i))
    (fuel : Nat) {lo : Nat} (hlo : lo ≤ bound) (hfuel : bound ≤ lo + fuel) {s : σ} (h : P lo s) :
    P bound (below bound body fuel lo s) := by
  induction fuel generalizing lo s with
  | zero =>
    obtain rfl : lo = bound := by omega
    exact h
  | succ fuel ih =>
    rw [below, toUnsigned_natCast (by omega)]
    by_cases hlt : lo < bound
    · have hnext : (lo : Int) + 1 = ((lo + 1 : Nat) : Int) := by omega
      rw [if_pos hlt, hnext]
      exact ih (by omega) (by omega) (hstep lo s hlt h)
    · obtain rfl : lo = bound := by omega
      rw [if_neg hlt]
      exact h

theorem range_invariant {P : Nat → σ → Prop} {f : σ → Nat → σ} {n : Nat} {s : σ} (h : P 0 s)
    (hstep : ∀ i t, i < n → P i t → P (i + 1) (f t i)) : P n ((List.range n).foldl f s) := by
  induction n with
  | zero => exact h
  | succ n ih =>
    rw [List.range_succ, List.foldl_append]
    exact hstep n _ (Nat.lt_succ_self n) (ih fun i t hi => hstep i t (by omega))

end CountedLoop
