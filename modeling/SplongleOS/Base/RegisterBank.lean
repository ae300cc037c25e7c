import SplongleOS.Base.CountedLoop
import Mathlib.Data.BitVec
import Mathlib.Logic.Function.Basic
set_option autoImplicit false

/-! Registers behind an index port and a data port, and the loop that loads the first of them from
a table. -/

namespace RegisterBank

structure Bank where
  index : BitVec 8
  register : BitVec 8 → BitVec 8

def Bank.select (b : Bank) (i : BitVec 8) : Bank := { b with index := i }

def Bank.read (b : Bank) : BitVec 8 := b.register b.index

def Bank.write (b : Bank) (v : BitVec 8) : Bank :=
  { b with register := Function.update b.register b.index v }

def overwrite (n : Nat) (table : Nat → BitVec 8) (old : BitVec 8 → BitVec 8) : BitVec 8 → BitVec 8 :=
  fun i => if i.toNat < n then table i.toNat else old i

theorem overwrite_succ {n : Nat} (hn : n < 256) (table : Nat → BitVec 8) (old : BitVec 8 → BitVec 8) :
    Function.update (overwrite n table old) (BitVec.ofNat 8 n) (table n) =
      overwrite (n + 1) table old := by
  have hnat : (BitVec.ofNat 8 n).toNat = n := by
    rw [BitVec.toNat_ofNat, Nat.mod_eq_of_lt hn]
  funext i
  by_cases hi : i = BitVec.ofNat 8 n
  · rw [hi, Function.update_self, overwrite, hnat, if_pos (Nat.lt_succ_self n)]
  · have hne : i.toNat ≠ n := fun h => hi (BitVec.eq_of_toNat_eq (h.trans hnat.symm))
    rw [Function.update_of_ne hi, overwrite, overwrite]
    by_cases hlt : i.toNat < n
    · rw [if_pos hlt, if_pos (by omega)]
    · rw [if_neg hlt, if_neg (by omega)]

/-- Where each turn puts one value of the table into the bank, the loop puts all of them. -/
theorem load {σ : Type} (put : Bank → σ) (f : σ → Nat → σ) (table : Nat → BitVec 8) (n : Nat)
    (hn : n ≤ 256) {s : σ} {old : BitVec 8 → BitVec 8} {index : BitVec 8} (hs : s = put ⟨index, old⟩)
    (hturn : ∀ i index, i < n → f (put ⟨index, overwrite i table old⟩) i =
      put ((Bank.mk index (overwrite i table old)).select (BitVec.ofNat 8 i) |>.write (table i))) :
    ∃ last, (List.range n).foldl f s = put ⟨last, overwrite n table old⟩ := by
  refine CountedLoop.range_invariant (P := fun i t => ∃ last, t = put ⟨last, overwrite i table old⟩)
    ⟨index, hs⟩ ?_
  rintro i t hi ⟨last, rfl⟩
  refine ⟨BitVec.ofNat 8 i, ?_⟩
  rw [hturn i last hi, ← overwrite_succ (by omega)]
  rfl

end RegisterBank
