import SplongleOS.PhysicalManager
set_option autoImplicit false

/-! What the operations of the manager do to the bit of one block, to the words
of memory and to the ghost list of touched indices. -/

namespace SplongleOS
open WordMemory

theorem Pmm.slot_inj (s : Pmm) (k k' : Int) (h : k - k' < 0x40000000 ∧ k' - k < 0x40000000) :
    s.slot k = s.slot k' ↔ k = k' := by
  unfold Pmm.slot
  constructor
  · intro he
    omega
  · rintro rfl
    rfl

theorem checkBlock_eq (s : Pmm) (b : Nat) :
    checkBlock s b = (s.mem (s.slot (b / 32 : Nat))).getLsbD (b % 32) :=
  and_bit_ne_zero _ (Nat.mod_lt _ (by decide))

theorem checkBlock_congr {s t : Pmm} (hm : t.memoryMap = s.memoryMap) {b : Nat}
    (hw : t.mem (s.slot (b / 32 : Nat)) = s.mem (s.slot (b / 32 : Nat))) :
    checkBlock t b = checkBlock s b := by
  have hs : t.slot (b / 32 : Nat) = s.slot (b / 32 : Nat) := by simp only [Pmm.slot, hm]
  rw [checkBlock_eq, checkBlock_eq, hs, hw]

/-- The block whose bit `set_block` sets: `bit` itself unless it is negative. -/
def bitAddr (bit : Int) : Int := 32 * bit.tdiv 32 + bit % 32

@[simp] theorem bitAddr_natCast (k : Nat) : bitAddr k = k := by
  unfold bitAddr
  rw [Int.tdiv_eq_ediv_of_nonneg (by omega)]
  omega

theorem toInt32_of_lt {x : Nat} (h : x < 0x80000000) : toInt32 x = x := by
  unfold toInt32
  rw [Nat.mod_eq_of_lt (by omega), if_pos h]

theorem toInt32_range (x : Nat) : -0x80000000 ≤ toInt32 x ∧ toInt32 x < 0x80000000 := by
  unfold toInt32
  split <;> omega

theorem tdiv_range {i : Int} (h : -0x80000000 ≤ i ∧ i < 0x80000000) :
    -0x4000000 ≤ i.tdiv 32 ∧ i.tdiv 32 < 0x4000000 := by
  rcases Int.le_total 0 i with hi | hi
  · rw [Int.tdiv_eq_ediv_of_nonneg hi]
    omega
  · have he : i.tdiv 32 = -((-i) / 32) := by
      rw [← Int.tdiv_eq_ediv_of_nonneg (by omega), Int.neg_tdiv, Int.neg_neg]
    rw [he]
    omega

@[simp] theorem setBlock_maxBlocks (s : Pmm) (i : Int) : (setBlock s i).maxBlocks = s.maxBlocks := rfl
@[simp] theorem setBlock_usedBlocks (s : Pmm) (i : Int) : (setBlock s i).usedBlocks = s.usedBlocks := rfl
@[simp] theorem setBlock_memoryMap (s : Pmm) (i : Int) : (setBlock s i).memoryMap = s.memoryMap := rfl
@[simp] theorem setBlock_touched (s : Pmm) (i : Int) : (setBlock s i).touched = i :: s.touched := rfl
@[simp] theorem setBlock_slot (s : Pmm) (i k : Int) : (setBlock s i).slot k = s.slot k := rfl
@[simp] theorem unsetBlock_maxBlocks (s : Pmm) (b : Nat) : (unsetBlock s b).maxBlocks = s.maxBlocks := rfl
@[simp] theorem unsetBlock_usedBlocks (s : Pmm) (b : Nat) : (unsetBlock s b).usedBlocks = s.usedBlocks := rfl
@[simp] theorem unsetBlock_memoryMap (s : Pmm) (b : Nat) : (unsetBlock s b).memoryMap = s.memoryMap := rfl
@[simp] theorem unsetBlock_touched (s : Pmm) (b : Nat) :
    (unsetBlock s b).touched = (b : Int) :: s.touched := rfl
@[simp] theorem unsetBlock_slot (s : Pmm) (b : Nat) (k : Int) : (unsetBlock s b).slot k = s.slot k := rfl

theorem setBlock_mem (s : Pmm) (i : Int) (w : Nat) :
    (setBlock s i).mem w =
      if w = s.slot (i.tdiv 32) then s.mem w ||| 1#32 <<< (i % 32).toNat else s.mem w := by
  unfold setBlock
  by_cases h : w = s.slot (i.tdiv 32)
  · subst h
    simp
  · simp [h]

theorem unsetBlock_mem (s : Pmm) (b w : Nat) :
    (unsetBlock s b).mem w =
      if w = s.slot (b / 32 : Nat) then s.mem w &&& ~~~(1#32 <<< (b % 32)) else s.mem w := by
  unfold unsetBlock
  by_cases h : w = s.slot (b / 32 : Nat)
  · subst h
    simp
  · rw [if_neg h]
    exact Function.update_of_ne h _ _

theorem checkBlock_setBlock (s : Pmm) {i : Int} (hi : -0x80000000 ≤ i ∧ i < 0x80000000)
    {b : Nat} (hb : b < 0x100000000) :
    checkBlock (setBlock s i) b = (decide ((b : Int) = bitAddr i) || checkBlock s b) := by
  have hd := tdiv_range hi
  have hinj := Pmm.slot_inj s (b / 32 : Nat) (i.tdiv 32) (by omega)
  rw [checkBlock_eq, checkBlock_eq, setBlock_slot, setBlock_mem]
  unfold bitAddr
  by_cases hw : ((b / 32 : Nat) : Int) = i.tdiv 32
  · rw [if_pos (hinj.mpr hw), getLsbD_or_bit _ (by omega)]
    congr 1
    rw [decide_eq_decide]
    omega
  · have hne : ¬ (b : Int) = 32 * i.tdiv 32 + i % 32 := by omega
    rw [if_neg (hinj.not.mpr hw)]
    simp [hne]

theorem checkBlock_unsetBlock (s : Pmm) {k : Nat} (hk : k < 0x100000000)
    {b : Nat} (hb : b < 0x100000000) :
    checkBlock (unsetBlock s k) b = (!decide (b = k) && checkBlock s b) := by
  have hinj := Pmm.slot_inj s (b / 32 : Nat) (k / 32 : Nat) (by omega)
  rw [checkBlock_eq, checkBlock_eq, unsetBlock_slot, unsetBlock_mem]
  by_cases hw : ((b / 32 : Nat) : Int) = (k / 32 : Nat)
  · rw [if_pos (hinj.mpr hw), getLsbD_and_not_bit _ (Nat.mod_lt _ (by decide))]
    congr 2
    rw [decide_eq_decide]
    omega
  · have hne : ¬ b = k := by omega
    rw [if_neg (hinj.not.mpr hw)]
    simp [hne]

@[simp] theorem checkBlock_usedBlocks (s : Pmm) (u b : Nat) :
    checkBlock { s with usedBlocks := u } b = checkBlock s b := rfl

@[simp] theorem checkBlock_touched (s : Pmm) (l : List Int) (b : Nat) :
    checkBlock { s with touched := l } b = checkBlock s b := rfl

theorem checkBlock_initializeBlock (s : Pmm) {k : Nat} (hk : k < 0x100000000)
    {b : Nat} (hb : b < 0x100000000) :
    checkBlock (initializeBlock s k) b = (!decide (b = k) && checkBlock s b) := by
  rw [initializeBlock, checkBlock_usedBlocks, checkBlock_unsetBlock s hk hb]

theorem checkBlock_deinitializeBlock (s : Pmm) (k : Nat) {b : Nat} (hb : b < 0x100000000) :
    checkBlock (deinitializeBlock s k) b =
      (decide ((b : Int) = bitAddr (toInt32 k)) || checkBlock s b) := by
  rw [deinitializeBlock, checkBlock_usedBlocks, checkBlock_setBlock s (toInt32_range k) hb]

/-- The bitmap is one run of bits from the address of the map on. -/
theorem checkBlock_bit (s : Pmm) {b : Nat} (hal : s.memoryMap % 4 = 0)
    (hfit : s.memoryMap + b / 8 < 0x100000000) :
    checkBlock s b = s.mem.bit (8 * s.memoryMap + b) := by
  have hslot : s.slot (b / 32 : Nat) = (8 * s.memoryMap + b) / 32 := by
    unfold Pmm.slot
    omega
  have hbit : b % 32 = (8 * s.memoryMap + b) % 32 := by omega
  rw [checkBlock_eq, hslot, hbit, Mem.bit]

theorem checkBlock_memoryManagerInit (s : Pmm) {address size b : Nat} (hal : address % 4 = 0)
    (hfit : address + 0x20000 ≤ 0x100000000) (hb : b < 0x100000) :
    checkBlock (memoryManagerInit s address size) b =
      (decide (b / 8 < (memoryManagerInit s address size).maxBlocks / 8) ||
        s.mem.bit (8 * address + b)) := by
  have hmax : (memoryManagerInit s address size).maxBlocks ≤ 0x100000 := by
    simp only [memoryManagerInit]
    split <;> omega
  have hall : ∀ j < 8, (0xFF#8).getLsbD j = true := by decide
  rw [checkBlock_bit _ hal (by simp only [memoryManagerInit]; omega)]
  change (memset s.mem address 0xFF#8 ((memoryManagerInit s address size).maxBlocks / 8)).bit
    (8 * address + b) = _
  rw [memset_bit _ _ _ _ _ (by omega)]
  by_cases hlt : b / 8 < (memoryManagerInit s address size).maxBlocks / 8
  · rw [if_pos (by omega), hall _ (Nat.mod_lt _ (by decide))]
    simp [hlt]
  · rw [if_neg (by omega)]
    simp [hlt]

/-- Word `w` of memory is one of the bitmap's. -/
def Pmm.InBitmap (s : Pmm) (w : Nat) : Prop := ∃ k < (s.maxBlocks + 31) / 32, w = s.slot (k : Nat)

instance (s : Pmm) (w : Nat) : Decidable (s.InBitmap w) :=
  inferInstanceAs (Decidable (∃ k < (s.maxBlocks + 31) / 32, w = s.slot (k : Nat)))

theorem forBlocks_invariant {P : Pmm → Prop} {body : Pmm → Nat → Pmm}
    (hb : ∀ s b, b < 0x100000000 → P s → P (body s b)) (num align : Nat) {s : Pmm} (h : P s) :
    P (forBlocks body num align s) := by
  induction num generalizing align s with
  | zero => exact h
  | succ n ih => exact ih (align + 1) (hb s _ (Nat.mod_lt _ (by decide)) h)

theorem forBlocks_range {P : Pmm → Prop} {body : Pmm → Nat → Pmm} (num align : Nat) {s : Pmm}
    (hb : ∀ s, ∀ i < num, P s → P (body s ((align + i) % 0x100000000))) (h : P s) :
    P (forBlocks body num align s) := by
  induction num generalizing align s with
  | zero => exact h
  | succ n ih =>
    refine ih (align + 1) (fun s i hi hp => ?_) (hb s 0 (by omega) h)
    have hnext := hb s (i + 1) (by omega) hp
    rwa [show align + (i + 1) = align + 1 + i by omega] at hnext

theorem forBlocks_maxBlocks (body : Pmm → Nat → Pmm)
    (hb : ∀ s b, (body s b).maxBlocks = s.maxBlocks) (num align : Nat) (s : Pmm) :
    (forBlocks body num align s).maxBlocks = s.maxBlocks :=
  forBlocks_invariant (P := fun t => t.maxBlocks = s.maxBlocks)
    (fun t b _ h => (hb t b).trans h) num align rfl

theorem forBlocks_memoryMap (body : Pmm → Nat → Pmm)
    (hb : ∀ s b, (body s b).memoryMap = s.memoryMap) (num align : Nat) (s : Pmm) :
    (forBlocks body num align s).memoryMap = s.memoryMap :=
  forBlocks_invariant (P := fun t => t.memoryMap = s.memoryMap)
    (fun t b _ h => (hb t b).trans h) num align rfl

theorem forBlocks_usedBlocks (body : Pmm → Nat → Pmm) (d : Nat)
    (hb : ∀ s b, (body s b).usedBlocks = (s.usedBlocks + d) % 0x100000000)
    (num align : Nat) (s : Pmm) (h : s.usedBlocks < 0x100000000) :
    (forBlocks body num align s).usedBlocks = (s.usedBlocks + num * d) % 0x100000000 := by
  induction num generalizing align s with
  | zero => simpa [forBlocks] using (Nat.mod_eq_of_lt h).symm
  | succ n ih =>
    have hlt : (body s (align % 0x100000000)).usedBlocks < 0x100000000 := by
      rw [hb]
      exact Nat.mod_lt _ (by decide)
    have hmul : (n + 1) * d = n * d + d := Nat.succ_mul n d
    rw [forBlocks, ih (align + 1) _ hlt, hb]
    omega

theorem initializeRegion_usedBlocks (s : Pmm) {base : Nat} (size : Nat) (hbase : base < 0x100000000)
    (h : s.usedBlocks < 0x100000000) : (initializeRegion s base size).usedBlocks =
      (s.usedBlocks + 0x100000000 - regionBlocks base size) % 0x100000000 := by
  have hlt : regionBlocks base size < 0x100000000 := Nat.mod_lt _ (by decide)
  unfold initializeRegion
  rw [if_neg (by omega), setBlock_usedBlocks,
    forBlocks_usedBlocks initializeBlock 0xFFFFFFFF (fun _ _ => rfl) _ _ _ h]
  omega

theorem deinitializeRegion_usedBlocks (s : Pmm) {base : Nat} (size : Nat)
    (hbase : base < 0x100000000) (h : s.usedBlocks < 0x100000000) :
    (deinitializeRegion s base size).usedBlocks =
      (s.usedBlocks + regionBlocks base size) % 0x100000000 := by
  unfold deinitializeRegion
  rw [if_neg (by omega), forBlocks_usedBlocks deinitializeBlock 1 (fun _ _ => rfl) _ _ _ h,
    Nat.mul_one]

@[simp] theorem initializeRegion_maxBlocks (s : Pmm) (base size : Nat) :
    (initializeRegion s base size).maxBlocks = s.maxBlocks := by
  unfold initializeRegion
  split
  · rfl
  · rw [setBlock_maxBlocks, forBlocks_maxBlocks initializeBlock fun _ _ => rfl]

@[simp] theorem initializeRegion_memoryMap (s : Pmm) (base size : Nat) :
    (initializeRegion s base size).memoryMap = s.memoryMap := by
  unfold initializeRegion
  split
  · rfl
  · rw [setBlock_memoryMap, forBlocks_memoryMap initializeBlock fun _ _ => rfl]

@[simp] theorem deinitializeRegion_maxBlocks (s : Pmm) (base size : Nat) :
    (deinitializeRegion s base size).maxBlocks = s.maxBlocks := by
  unfold deinitializeRegion
  split
  · rfl
  · rw [forBlocks_maxBlocks deinitializeBlock fun _ _ => rfl]

@[simp] theorem deinitializeRegion_memoryMap (s : Pmm) (base size : Nat) :
    (deinitializeRegion s base size).memoryMap = s.memoryMap := by
  unfold deinitializeRegion
  split
  · rfl
  · rw [forBlocks_memoryMap deinitializeBlock fun _ _ => rfl]

@[simp] theorem freeBlocks_maxBlocks (s : Pmm) (address num : Nat) :
    (freeBlocks s address num).maxBlocks = s.maxBlocks := by
  simp only [freeBlocks, forBlocks_maxBlocks unsetBlock fun _ _ => rfl]

@[simp] theorem freeBlocks_memoryMap (s : Pmm) (address num : Nat) :
    (freeBlocks s address num).memoryMap = s.memoryMap := by
  simp only [freeBlocks, forBlocks_memoryMap unsetBlock fun _ _ => rfl]

theorem forBlocks_set (body : Pmm → Nat → Pmm) (hit : Nat → Prop) [DecidablePred hit] {x : Nat}
    (hb : ∀ s b, b < 0x100000000 → checkBlock (body s b) x = (decide (hit b) || checkBlock s x))
    (num align : Nat) (s : Pmm) :
    checkBlock (forBlocks body num align s) x = true ↔
      (∃ i < num, hit ((align + i) % 0x100000000)) ∨ checkBlock s x = true := by
  induction num generalizing align s with
  | zero => simp [forBlocks]
  | succ n ih =>
    rw [forBlocks, ih, hb _ _ (Nat.mod_lt _ (by decide)), Nat.exists_lt_succ_left]
    simp only [Bool.or_eq_true, decide_eq_true_eq, Nat.add_zero]
    have hs : ∀ i, align + 1 + i = align + (i + 1) := by intro i; omega
    simp only [hs]
    exact or_left_comm.trans or_assoc.symm

theorem forBlocks_clear (body : Pmm → Nat → Pmm) (hit : Nat → Prop) [DecidablePred hit] {x : Nat}
    (hb : ∀ s b, b < 0x100000000 → checkBlock (body s b) x = (!decide (hit b) && checkBlock s x))
    (num align : Nat) (s : Pmm) :
    checkBlock (forBlocks body num align s) x = true ↔
      ¬(∃ i < num, hit ((align + i) % 0x100000000)) ∧ checkBlock s x = true := by
  induction num generalizing align s with
  | zero => simp [forBlocks]
  | succ n ih =>
    rw [forBlocks, ih, hb _ _ (Nat.mod_lt _ (by decide)), Nat.exists_lt_succ_left]
    simp only [Bool.and_eq_true, Bool.not_eq_true', decide_eq_false_iff_not, Nat.add_zero]
    have hs : ∀ i, align + 1 + i = align + (i + 1) := by intro i; omega
    simp only [hs]
    rw [not_or, and_assoc]
    exact and_left_comm

theorem forBlocks_touched (body : Pmm → Nat → Pmm) (idx : Nat → Int)
    (hb : ∀ s b, b < 0x100000000 → (body s b).touched = idx b :: s.touched)
    (num align : Nat) (s : Pmm) (y : Int) :
    y ∈ (forBlocks body num align s).touched ↔
      (∃ i < num, y = idx ((align + i) % 0x100000000)) ∨ y ∈ s.touched := by
  induction num generalizing align s with
  | zero => simp [forBlocks]
  | succ n ih =>
    rw [forBlocks, ih, hb _ _ (Nat.mod_lt _ (by decide)), Nat.exists_lt_succ_left]
    have hs : ∀ i, align + 1 + i = align + (i + 1) := by intro i; omega
    simp only [hs, List.mem_cons, Nat.add_zero]
    exact or_left_comm.trans or_assoc.symm

theorem exists_block_iff {num align x : Nat} (h : align + num ≤ 0x80000000) :
    (∃ i < num, x = (align + i) % 0x100000000) ↔ align ≤ x ∧ x < align + num := by
  constructor
  · rintro ⟨i, hi, rfl⟩
    omega
  · intro hx
    exact ⟨x - align, by omega, by omega⟩

theorem exists_setBlock_iff {num align x : Nat} (h : align + num ≤ 0x80000000) :
    (∃ i < num, (x : Int) = bitAddr (toInt32 ((align + i) % 0x100000000))) ↔
      align ≤ x ∧ x < align + num := by
  rw [← exists_block_iff h]
  refine exists_congr fun i => and_congr_right fun hi => ?_
  rw [toInt32_of_lt (by omega), bitAddr_natCast]
  omega

end SplongleOS
