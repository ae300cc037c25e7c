import Mathlib.Data.Nat.ModEq
import Mathlib.Tactic.Common
set_option autoImplicit false

/-! Little-endian integers in a byte buffer. -/

namespace LittleEndian

def readLE (buf : Nat → BitVec 8) (a : Nat) : Nat → Nat
  | 0 => 0
  | n + 1 => readLE buf a n + 256 ^ n * (buf (a + n)).toNat

def byteAt (x i : Nat) : BitVec 8 := BitVec.ofNat 8 (x / 256 ^ i)

theorem readLE_byteAt (buf : Nat → BitVec 8) (a x n : Nat)
    (h : ∀ i < n, buf (a + i) = byteAt x i) : readLE buf a n = x % 256 ^ n := by
  induction n with
  | zero => simp [readLE, Nat.mod_one]
  | succ n ih =>
    have hlow := ih fun i hi => h i (by omega)
    have htop : (buf (a + n)).toNat = x / 256 ^ n % 256 := by
      rw [h n (by omega), byteAt, BitVec.toNat_ofNat]
    rw [readLE, hlow, htop, Nat.mod_pow_succ]

theorem readLE_of_lt (buf : Nat → BitVec 8) (a n : Nat) {x : Nat} (hx : x < 256 ^ n)
    (h : ∀ i < n, buf (a + i) = byteAt x i) : readLE buf a n = x := by
  rw [readLE_byteAt buf a x n h, Nat.mod_eq_of_lt hx]

end LittleEndian
