import Mathlib.Data.Nat.Count
import Mathlib.Logic.Function.Basic
import Mathlib.Tactic.Common
set_option autoImplicit false

/-! Memory as an array of 32-bit words, seen three ways: by word, by byte
(little-endian) and by bit. The byte and bit views are the ones proofs use. -/

namespace WordMemory

/-- The word at byte address `a` is `m (a / 4)`. -/
abbrev Mem := Nat → BitVec 32

def Mem.bit (m : Mem) (k : Nat) : Bool := (m (k / 32)).getLsbD (k % 32)

theorem getLsbD_or_bit (x : BitVec 32) {k : Nat} (hk : k < 32) (i : Nat) :
    (x ||| 1#32 <<< k).getLsbD i = (decide (i = k) || x.getLsbD i) := by
  have h : (1#32 <<< k).getLsbD i = decide (i = k) := by
    simp only [BitVec.getLsbD_shiftLeft, BitVec.getLsbD_one]
    by_cases hik : i = k
    · simp [hik, hk]
    · have hne : ¬(k ≤ i ∧ i - k = 0) := by omega
      grind
  rw [BitVec.getLsbD_or, h, Bool.or_comm]

theorem getLsbD_and_not_bit (x : BitVec 32) {k : Nat} (hk : k < 32) (i : Nat) :
    (x &&& ~~~(1#32 <<< k)).getLsbD i = (!decide (i = k) && x.getLsbD i) := by
  have h := getLsbD_or_bit 0#32 hk i
  simp only [BitVec.zero_or, BitVec.getLsbD_zero, Bool.or_false] at h
  by_cases hi : i < 32
  · rw [BitVec.getLsbD_and, BitVec.getLsbD_not, h]
    simp [hi, Bool.and_comm]
  · have hx := BitVec.getLsbD_of_ge x i (by omega)
    simp [hx]

theorem and_bit_eq_zero (x : BitVec 32) {k : Nat} (hk : k < 32) :
    x &&& 1#32 <<< k = 0#32 ↔ x.getLsbD k = false := by
  have hbit (i : Nat) : (1#32 <<< k).getLsbD i = decide (i = k) := by
    simpa using getLsbD_or_bit 0#32 hk i
  constructor
  · intro h
    have hb := congrArg (fun y => y.getLsbD k) h
    simpa [hbit] using hb
  · intro h
    apply BitVec.eq_of_getLsbD_eq
    intro i _
    rw [BitVec.getLsbD_and, hbit, BitVec.getLsbD_zero]
    by_cases hik : i = k
    · simp [hik, h]
    · simp [hik]

theorem and_bit_ne_zero (x : BitVec 32) {k : Nat} (hk : k < 32) :
    (x &&& 1#32 <<< k != 0#32) = x.getLsbD k := by
  have h := and_bit_eq_zero x hk
  cases hb : x.getLsbD k with
  | false => simp [h.mpr hb]
  | true =>
    have hne : x &&& 1#32 <<< k ≠ 0#32 := fun hz => by simp [h.mp hz] at hb
    simp [hne]

def Mem.setByte (m : Mem) (a : Nat) (v : BitVec 8) : Mem :=
  Function.update m (a / 4)
    ((m (a / 4) &&& ~~~(0xFF#32 <<< (8 * (a % 4)))) ||| v.setWidth 32 <<< (8 * (a % 4)))

def Mem.byte (m : Mem) (a : Nat) : BitVec 8 := (m (a / 4) >>> (8 * (a % 4))).setWidth 8

theorem getLsbD_mask (i : Nat) : (0xFF#32).getLsbD i = decide (i < 8) := by
  by_cases hi : i < 32
  · have h : ∀ j < 32, (0xFF#32).getLsbD j = decide (j < 8) := by decide
    exact h i hi
  · have hn : ¬ i < 8 := by omega
    rw [BitVec.getLsbD_of_ge _ _ (by omega)]
    simp [hn]

theorem Mem.setByte_bit (m : Mem) (a : Nat) (v : BitVec 8) (k : Nat) :
    (m.setByte a v).bit k = if k / 8 = a then v.getLsbD (k % 8) else m.bit k := by
  unfold bit setByte
  by_cases hw : k / 32 = a / 4
  · rw [hw, Function.update_self]
    simp only [BitVec.getLsbD_or, BitVec.getLsbD_and, BitVec.getLsbD_not, BitVec.getLsbD_shiftLeft,
      getLsbD_mask, BitVec.getLsbD_setWidth]
    have hk : k % 32 < 32 := Nat.mod_lt _ (by decide)
    by_cases ha : k / 8 = a
    · have h1 : ¬ k % 32 < 8 * (a % 4) := by omega
      have h2 : k % 32 - 8 * (a % 4) = k % 8 := by omega
      have h3 : k % 8 < 8 := Nat.mod_lt _ (by decide)
      have h4 : k % 8 < 32 := by omega
      simp [hk, h1, h2, h3, h4, ha]
    · by_cases hlt : k % 32 < 8 * (a % 4)
      · simp [hk, hlt, ha]
      · have h5 : ¬ k % 32 - 8 * (a % 4) < 8 := by omega
        have h6 := BitVec.getLsbD_of_ge v (k % 32 - 8 * (a % 4)) (by omega)
        simp [hk, hlt, h5, h6, ha]
  · have ha : ¬ k / 8 = a := by omega
    rw [Function.update_of_ne hw, if_neg ha]

theorem Mem.byte_getLsbD (m : Mem) (a : Nat) {i : Nat} (hi : i < 8) :
    (m.byte a).getLsbD i = m.bit (8 * a + i) := by
  have hword : (8 * a + i) / 32 = a / 4 := by omega
  have hbit : (8 * a + i) % 32 = 8 * (a % 4) + i := by omega
  simp [byte, bit, hi, hword, hbit]

theorem Mem.setByte_byte (m : Mem) (a : Nat) (v : BitVec 8) (b : Nat) :
    (m.setByte a v).byte b = if b = a then v else m.byte b := by
  refine BitVec.eq_of_getLsbD_eq fun i hi => ?_
  have hbyte : (8 * b + i) / 8 = b := by omega
  have hbit : (8 * b + i) % 8 = i := by omega
  rw [byte_getLsbD _ _ hi, setByte_bit, hbyte, hbit]
  split
  · rfl
  · rw [byte_getLsbD _ _ hi]

/-- `memset` byte by byte; addresses are 32 bits wide. -/
def memset (m : Mem) (ptr : Nat) (value : BitVec 8) : Nat → Mem
  | 0 => m
  | n + 1 => (memset m ptr value n).setByte ((ptr + n) % 0x100000000) value

theorem memset_bit (m : Mem) (ptr : Nat) (value : BitVec 8) (n k : Nat)
    (h : ptr + n ≤ 0x100000000) :
    (memset m ptr value n).bit k =
      if ptr ≤ k / 8 ∧ k / 8 < ptr + n then value.getLsbD (k % 8) else m.bit k := by
  induction n with
  | zero =>
    have hn : ¬(ptr ≤ k / 8 ∧ k / 8 < ptr + 0) := by omega
    rw [if_neg hn]; rfl
  | succ n ih =>
    have hm : (ptr + n) % 0x100000000 = ptr + n := Nat.mod_eq_of_lt (by omega)
    rw [memset, hm, Mem.setByte_bit, ih (by omega)]
    grind

theorem memset_word_of_outside (m : Mem) (ptr : Nat) (value : BitVec 8) (n w : Nat)
    (h : ptr + n ≤ 0x100000000) (hw : 4 * w + 4 ≤ ptr ∨ ptr + n ≤ 4 * w) :
    memset m ptr value n w = m w := by
  induction n with
  | zero => rfl
  | succ n ih =>
    have hm : (ptr + n) % 0x100000000 = ptr + n := Nat.mod_eq_of_lt (by omega)
    rw [memset, hm, Mem.setByte, Function.update_of_ne (by omega), ih (by omega) (by omega)]

theorem word_ext {x y : BitVec 32} (h : ∀ i < 32, x.getLsbD i = y.getLsbD i) : x = y :=
  BitVec.eq_of_getLsbD_eq fun i hi => h i hi

theorem memset_zero_word (m : Mem) (ptr n w : Nat) (h : ptr + n ≤ 0x100000000)
    (hlo : ptr ≤ 4 * w) (hhi : 4 * w + 4 ≤ ptr + n) : memset m ptr 0#8 n w = 0#32 := by
  apply word_ext
  intro i hi
  have hb := memset_bit m ptr 0#8 n (32 * w + i) h
  have hd : (32 * w + i) / 32 = w := by omega
  have hr : (32 * w + i) % 32 = i := by omega
  rw [if_pos (by omega)] at hb
  simpa [Mem.bit, hd, hr] using hb

end WordMemory
