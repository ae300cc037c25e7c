import SplongleOS.Base.CountedLoop
import SplongleOS.Commands
set_option autoImplicit false

/-! memcpy, memset and memcmp, memory.c. Addresses wrap around. -/

namespace SplongleOS
open CountedLoop

def memcpy (m : Ram) (dst src num : BitVec 32) : BitVec 32 × Ram :=
  (dst, (List.range num.toNat).foldl (fun m i =>
    Function.update m (dst + BitVec.ofNat 32 i) (m (src + BitVec.ofNat 32 i))) m)

def memset (m : Ram) (ptr value num : BitVec 32) : BitVec 32 × Ram :=
  (ptr, (List.range num.toNat).foldl (fun m i =>
    Function.update m (ptr + BitVec.ofNat 32 i) (value.setWidth 8)) m)

def memcmpFrom (m : Ram) (ptr1 ptr2 : BitVec 32) : Nat → Nat → BitVec 32
  | 0, _ => 0#32
  | n + 1, i =>
    if m (ptr1 + BitVec.ofNat 32 i) ≠ m (ptr2 + BitVec.ofNat 32 i) then 1#32
    else memcmpFrom m ptr1 ptr2 n (i + 1)

def memcmp (m : Ram) (ptr1 ptr2 num : BitVec 32) : BitVec 32 := memcmpFrom m ptr1 ptr2 num.toNat 0

theorem eq_offset_iff (p a : BitVec 32) {i : Nat} (hi : i < 2 ^ 32) :
    a = p + BitVec.ofNat 32 i ↔ (a - p).toNat = i := by
  rw [← BitVec.toNat_inj]
  simp only [BitVec.toNat_add, BitVec.toNat_sub, BitVec.toNat_ofNat]
  omega

theorem written_succ {m t : Ram} {p : BitVec 32} (value : Nat → BitVec 8) {i : Nat} (hi : i < 2 ^ 32)
    (ht : ∀ a, t a = if (a - p).toNat < i then value (a - p).toNat else m a) (a : BitVec 32) :
    Function.update t (p + BitVec.ofNat 32 i) (value i) a =
      if (a - p).toNat < i + 1 then value (a - p).toNat else m a := by
  rw [Function.update_apply]
  by_cases ha : a = p + BitVec.ofNat 32 i
  · have hoff := (eq_offset_iff p a hi).mp ha
    rw [if_pos ha, hoff, if_pos (Nat.lt_succ_self i)]
  · have hoff := mt (eq_offset_iff p a hi).mpr ha
    rw [if_neg ha, ht]
    by_cases hlt : (a - p).toNat < i
    · rw [if_pos hlt, if_pos (by omega)]
    · rw [if_neg hlt, if_neg (by omega)]

theorem source_offset (dst src : BitVec 32) {i : Nat} (hi : i < 2 ^ 32) :
    (src + BitVec.ofNat 32 i - dst).toNat =
      if (dst - src).toNat ≤ i then i - (dst - src).toNat else 2 ^ 32 - (dst - src).toNat + i := by
  simp only [BitVec.toNat_add, BitVec.toNat_sub, BitVec.toNat_ofNat]
  split <;> omega

/-- Up to turn `n` the bytes of the source repeat with the distance of the two blocks. -/
theorem memcpy_turns (m : Ram) (dst src : BitVec 32) {n : Nat} (hn : n ≤ 2 ^ 32) (a : BitVec 32) :
    (List.range n).foldl (fun m i =>
      Function.update m (dst + BitVec.ofNat 32 i) (m (src + BitVec.ofNat 32 i))) m a =
      if (a - dst).toNat < n then
        m (src + BitVec.ofNat 32 ((a - dst).toNat % (dst - src).toNat))
      else m a := by
  refine range_invariant (P := fun n (t : Ram) => ∀ a, t a = if (a - dst).toNat < n then
      m (src + BitVec.ofNat 32 ((a - dst).toNat % (dst - src).toNat)) else m a)
    (fun a => rfl) (fun i t hi ht a => ?_) a
  have hread : t (src + BitVec.ofNat 32 i) =
      m (src + BitVec.ofNat 32 (i % (dst - src).toNat)) := by
    have hd := (dst - src).isLt
    rw [ht, source_offset dst src (by omega)]
    by_cases hbehind : (dst - src).toNat ≤ i
    · rw [if_pos hbehind, ← Nat.mod_eq_sub_mod hbehind]
      by_cases hzero : (dst - src).toNat = 0
      · rw [if_neg (by omega), hzero, Nat.mod_zero]
      · rw [if_pos (by omega)]
    · rw [if_neg hbehind, if_neg (by omega), Nat.mod_eq_of_lt (by omega)]
  rw [hread]
  exact written_succ (fun i => m (src + BitVec.ofNat 32 (i % (dst - src).toNat))) (by omega) ht a

theorem memset_at (m : Ram) (ptr value num a : BitVec 32) : (memset m ptr value num).2 a =
    if (a - ptr).toNat < num.toNat then value.setWidth 8 else m a := by
  refine range_invariant (P := fun n (t : Ram) => ∀ a, t a =
    if (a - ptr).toNat < n then value.setWidth 8 else m a) (fun a => rfl) (fun i t hi ht a => ?_) a
  exact written_succ (fun _ => value.setWidth 8) (by omega) ht a

theorem memcpy_at (m : Ram) (dst src num a : BitVec 32) : (memcpy m dst src num).2 a =
    if (a - dst).toNat < num.toNat then
      m (src + BitVec.ofNat 32 ((a - dst).toNat % (dst - src).toNat))
    else m a := memcpy_turns m dst src (by omega) a

theorem memcpy_dst (m : Ram) (dst src num : BitVec 32) {i : Nat} (hi : i < num.toNat) :
    (memcpy m dst src num).2 (dst + BitVec.ofNat 32 i) =
      m (src + BitVec.ofNat 32 (i % (dst - src).toNat)) := by
  have hoff := (eq_offset_iff dst (dst + BitVec.ofNat 32 i) (i := i) (by omega)).mp rfl
  rw [memcpy_at, hoff, if_pos hi]

theorem memcpy_src (m : Ram) {dst src num : BitVec 32} (hends : num.toNat ≤ (src - dst).toNat)
    {i : Nat} (hi : i < num.toNat) : (memcpy m dst src num).2 (src + BitVec.ofNat 32 i) =
      m (src + BitVec.ofNat 32 (i % (dst - src).toNat)) := by
  have hsum : (src - dst).toNat + (dst - src).toNat = 2 ^ 32 := by
    simp only [BitVec.toNat_sub] at hends ⊢
    omega
  rw [memcpy_at, source_offset dst src (by omega)]
  by_cases hbehind : (dst - src).toNat ≤ i
  · rw [if_pos hbehind, if_pos (by omega), ← Nat.mod_eq_sub_mod hbehind]
  · rw [if_neg hbehind, if_neg (by omega), Nat.mod_eq_of_lt (by omega)]

theorem memcmpFrom_eq (m : Ram) (p q : BitVec 32) (n i : Nat) :
    memcmpFrom m p q n i = 0#32 ↔
      ∀ j < n, m (p + BitVec.ofNat 32 (i + j)) = m (q + BitVec.ofNat 32 (i + j)) := by
  induction n generalizing i with
  | zero => exact ⟨fun _ j hj => absurd hj (Nat.not_lt_zero j), fun _ => rfl⟩
  | succ n ih =>
    rw [memcmpFrom]
    by_cases hfirst : m (p + BitVec.ofNat 32 i) = m (q + BitVec.ofNat 32 i)
    · rw [if_neg (not_not.mpr hfirst), ih]
      constructor
      · rintro h (_ | j) hj
        · exact hfirst
        · have hnext := h j (by omega)
          rwa [Nat.add_right_comm] at hnext
      · intro h j hj
        have hnext := h (j + 1) (by omega)
        rwa [← Nat.add_assoc, Nat.add_right_comm] at hnext
    · rw [if_pos hfirst]
      exact ⟨fun h => absurd h (by decide), fun h => absurd (h 0 (Nat.succ_pos n)) hfirst⟩

theorem memcmp_eq (m : Ram) (p q num : BitVec 32) : memcmp m p q num = 0#32 ↔
    ∀ i < num.toNat, m (p + BitVec.ofNat 32 i) = m (q + BitVec.ofNat 32 i) := by
  rw [memcmp, memcmpFrom_eq]
  simp only [Nat.zero_add]

/-- The copy goes upwards whatever the two blocks have in common. When the destination begins inside
the source, the bytes before it are repeated; else the copy is exact. When the source does not begin
inside the destination, the two blocks compare equal in the end. -/
theorem memcpy_overlap (dst src num : BitVec 32) :
    (∀ (m : Ram) (a : BitVec 32), (memcpy m dst src num).2 a =
      if (a - dst).toNat < num.toNat then
        m (src + BitVec.ofNat 32 ((a - dst).toNat % (dst - src).toNat))
      else m a) ∧
    ((∀ (m : Ram), ∀ i < num.toNat, (memcpy m dst src num).2 (dst + BitVec.ofNat 32 i) =
        m (src + BitVec.ofNat 32 i)) ↔ dst = src ∨ num.toNat ≤ (dst - src).toNat) ∧
    ((src = dst ∨ num.toNat ≤ (src - dst).toNat) →
      ∀ m : Ram, memcmp (memcpy m dst src num).2 dst src num = 0#32) := by
  refine ⟨fun m a => memcpy_at m dst src num a, ⟨fun h => ?_, fun h m i hi => ?_⟩, fun h m => ?_⟩
  · by_contra hinside
    obtain ⟨hne, hlt⟩ := not_or.mp hinside
    have hpos : (dst - src).toNat ≠ 0 := fun hzero => hne <| BitVec.eq_of_toNat_eq <| by
      rw [BitVec.toNat_sub] at hzero
      omega
    have hcopied := h (fun a => if a = src then 1#8 else 0#8) (dst - src).toNat (by omega)
    rw [memcpy_dst _ _ _ _ (by omega), Nat.mod_self] at hcopied
    have hfirst : src + BitVec.ofNat 32 0 = src := BitVec.add_zero src
    have hother : src + BitVec.ofNat 32 (dst - src).toNat ≠ src := fun hsame => hpos <| by
      have hoff := (eq_offset_iff src src (dst - src).isLt).mp hsame.symm
      rw [BitVec.sub_self] at hoff
      exact hoff.symm
    rw [if_pos hfirst, if_neg hother] at hcopied
    cases hcopied
  · rw [memcpy_dst m dst src num hi]
    rcases h with rfl | hfar
    · rw [BitVec.sub_self, BitVec.toNat_zero, Nat.mod_zero]
    · rw [Nat.mod_eq_of_lt (by omega)]
  · refine (memcmp_eq ..).mpr fun i hi => ?_
    rcases h with rfl | hends
    · rfl
    · rw [memcpy_dst m dst src num hi, memcpy_src m hends hi]

end SplongleOS
