import Mathlib.Algebra.BigOperators.Group.List.Basic
import SplongleOS.NullAddress
set_option autoImplicit false

/-! The manager's books: the used bits are those boot set and those of live allocations,
and the counter moves with the blocks held. -/

namespace SplongleOS
open WordMemory Ownership

def heldBlocks (live : List Alloc) : Nat := (live.map Alloc.blocks).sum

@[simp] theorem heldBlocks_nil : heldBlocks [] = 0 := rfl

@[simp] theorem heldBlocks_cons (e : Alloc) (live : List Alloc) :
    heldBlocks (e :: live) = e.blocks + heldBlocks live := by
  simp [heldBlocks]

theorem heldBlocks_erase {e : Alloc} {live : List Alloc} (he : e ∈ live) :
    e.blocks + heldBlocks (live.erase e) = heldBlocks live :=
  List.sum_map_erase Alloc.blocks he

/-- The books of a run from `s0` balance. -/
structure Owned.Booked (s0 : Pmm) (o : Owned) : Prop where
  inv : Owned.Inv s0 o
  exact : Exact Alloc.Holds (· < s0.maxBlocks) (checkBlock s0 · = true) (checkBlock o.pmm · = true)
    o.live
  bits : usedCount o.pmm = usedCount s0 + heldBlocks o.live
  counter : o.pmm.usedBlocks = (s0.usedBlocks + heldBlocks o.live) % 0x100000000

theorem Owned.booked_start {s0 : Pmm} (hused : s0.usedBlocks < 0x100000000) :
    Owned.Booked s0 ⟨s0, []⟩ where
  inv := Owned.inv_start s0
  exact := Exact.start
  bits := rfl
  counter := (Nat.mod_eq_of_lt hused).symm

theorem Owned.Booked.same {s0 : Pmm} {o : Owned} {t : Pmm} (h : Owned.Booked s0 o)
    (hmax : t.maxBlocks = o.pmm.maxBlocks) (hused : t.usedBlocks = o.pmm.usedBlocks)
    (hbits : ∀ b < s0.maxBlocks, checkBlock t b = checkBlock o.pmm b) :
    Owned.Booked s0 { o with pmm := t } where
  inv := h.inv.mono hmax fun b hb hset => (hbits b hb).trans hset
  exact := h.exact.congr fun b hb => by rw [hbits b hb]
  bits := (usedCount_congr hmax fun b hb => hbits b (h.inv.max ▸ hb)).trans h.bits
  counter := hused.trans h.counter

theorem Owned.Booked.take {s0 : Pmm} {o : Owned} {t : Pmm} {e : Alloc}
    (hbound : s0.maxBlocks ≤ 0x100000) (h : Owned.Booked s0 o) (hn : 0 < e.blocks)
    (hrun : FreeRun o.pmm (e.address / 4096) e.blocks)
    (ht : t = takeBlocks o.pmm e.blocks (e.address / 4096)) :
    Owned.Booked s0 { pmm := t, live := e :: o.live } := by
  have hmax := h.inv.max
  have hfit := hrun.fits hn
  have htmax : t.maxBlocks = o.pmm.maxBlocks := ht ▸ takeBlocks_maxBlocks _ _ _
  have htused : t.usedBlocks = (o.pmm.usedBlocks + e.blocks) % 0x100000000 :=
    ht ▸ takeBlocks_usedBlocks _ _ _
  have hset : ∀ b < s0.maxBlocks, checkBlock t b = true ↔ e.Holds b ∨ checkBlock o.pmm b = true := by
    intro b hb
    rw [ht]
    exact checkBlock_takeBlocks o.pmm (by omega) (by omega)
  have hnone : usedIn o.pmm (e.address / 4096) e.blocks = 0 :=
    usedIn_eq_zero_iff.mpr fun k hk => (hrun k hk).2
  have hcount := usedCount_set htmax hfit fun b hb => hset b (hmax ▸ hb)
  have hbits := h.bits
  have hcounter := h.counter
  refine ⟨h.inv.take hn hrun htmax hset, h.exact.acquire hset, ?_, ?_⟩
  · simp only [heldBlocks_cons]
    omega
  · simp only [heldBlocks_cons]
    omega

theorem Owned.Booked.returned {s0 : Pmm} {o : Owned} {t : Pmm} {a num : Nat}
    (hbound : s0.maxBlocks ≤ 0x100000) (h : Owned.Booked s0 o)
    (haddr : a ≠ 0 → 0 < num ∧ FreeRun o.pmm (a / 4096) num ∧ t = takeBlocks o.pmm num (a / 4096))
    (hmax : t.maxBlocks = o.pmm.maxBlocks)
    (hnull : a = 0 → t.usedBlocks = o.pmm.usedBlocks ∧
      ∀ b < s0.maxBlocks, checkBlock t b = checkBlock o.pmm b) :
    Owned.Booked s0 { pmm := t, live := if a = 0 then o.live else ⟨a, num⟩ :: o.live } := by
  by_cases ha : a = 0
  · obtain ⟨hused, hbits⟩ := hnull ha
    rw [if_pos ha]
    exact h.same hmax hused hbits
  · obtain ⟨hn, hrun, hstate⟩ := haddr ha
    rw [if_neg ha]
    exact h.take (e := ⟨a, num⟩) hbound hn hrun hstate

theorem Owned.Booked.allocate {s0 : Pmm} {o o' : Owned} {n : BitVec 32}
    (hbound : s0.maxBlocks ≤ 0x100000) (hzero : checkBlock o.pmm 0 = true) (h : Owned.Booked s0 o)
    (hsound : SearchSound o.pmm n.toNat) (hs : o.step (.allocate n) = some o') :
    Owned.Booked s0 o' := by
  have hmax : o.pmm.maxBlocks ≤ 0x100000 := h.inv.max.trans_le hbound
  simp only [Owned.step, Option.some.injEq] at hs
  subst hs
  refine h.returned hbound (allocateBlocks_freeRun hmax hsound (by omega))
    (allocateBlocks_maxBlocks n.toNat hmax) fun ha => ?_
  obtain ⟨hmem, hused⟩ := (nullFails n.toNat hmax hzero).failed ha
  refine ⟨hused, fun b _ => ?_⟩
  exact checkBlock_congr (allocateBlocks_memoryMap n.toNat hmax) (congrFun hmem _)

theorem Owned.Booked.free {s0 : Pmm} {o o' : Owned} {e : Alloc} (hbound : s0.maxBlocks ≤ 0x100000)
    (h : Owned.Booked s0 o) (hs : o.step (.free e) = some o') : Owned.Booked s0 o' := by
  have hinv := h.inv.free hbound hs
  by_cases he : e ∈ o.live
  · simp only [Owned.step, he, ↓reduceIte, Option.some.injEq] at hs
    subst hs
    have hmax := h.inv.max
    have hfit := h.inv.fits e he
    have hclear : ∀ b < s0.maxBlocks, checkBlock (freeBlocks o.pmm e.address e.blocks) b = true ↔
        ¬e.Holds b ∧ checkBlock o.pmm b = true := by
      intro b hb
      exact checkBlock_freeBlocks o.pmm (by omega) (by omega)
    have hbase : ∀ b, e.Holds b → ¬checkBlock s0 b = true := by
      intro b hb hr
      have hlt := hb.2
      exact (h.inv.reserved b (by omega) hr).2 e he hb
    have hall : usedIn o.pmm (e.address / 4096) e.blocks = e.blocks :=
      usedIn_eq_iff.mpr fun k hk => h.inv.owns.used e he _ ⟨by omega, by omega⟩
    have hcount := usedCount_clear (freeBlocks_maxBlocks o.pmm e.address e.blocks)
      (hmax.symm ▸ hfit) fun b hb => hclear b (hmax ▸ hb)
    have hheld := heldBlocks_erase he
    have hbits := h.bits
    have hcounter := h.counter
    refine ⟨hinv, h.exact.release he h.inv.owns hbase hclear, ?_, ?_⟩
    · dsimp only
      omega
    · dsimp only
      rw [freeBlocks_usedBlocks]
      omega
  · simp [Owned.step, he] at hs

theorem Owned.Booked.write {s0 : Pmm} {o o' : Owned} {w : Nat} {v : BitVec 32}
    (h : Owned.Booked s0 o) (hs : o.step (.write w v) = some o') : Owned.Booked s0 o' := by
  by_cases hw : o.pmm.InBitmap w
  · simp [Owned.step, hw] at hs
  · simp only [Owned.step, hw, ↓reduceIte, Option.some.injEq] at hs
    subst hs
    refine h.same rfl rfl fun b hb => ?_
    have hne : o.pmm.slot (b / 32 : Nat) ≠ w :=
      fun heq => hw ⟨b / 32, by rw [h.inv.max]; omega, heq.symm⟩
    exact checkBlock_congr (s := o.pmm) (t := { o.pmm with mem := Function.update o.pmm.mem w v })
      rfl (Function.update_of_ne hne v o.pmm.mem)

theorem Owned.Booked.step {s0 : Pmm} {o o' : Owned} (hbound : s0.maxBlocks ≤ 0x100000)
    (hpos : 0 < s0.maxBlocks) (hzero : checkBlock s0 0 = true) (c : Call) (h : Owned.Booked s0 o)
    (hsound : o.Sound c) (hs : o.step c = some o') : Owned.Booked s0 o' := by
  cases c with
  | allocate n => exact h.allocate hbound (h.inv.reserved 0 hpos hzero).1 hsound hs
  | free e => exact h.free hbound hs
  | write w v => exact h.write hs

theorem Owned.Run.booked {s0 : Pmm} {o : Owned} (hbound : s0.maxBlocks ≤ 0x100000)
    (hpos : 0 < s0.maxBlocks) (hzero : checkBlock s0 0 = true)
    (hused : s0.usedBlocks < 0x100000000) (h : Owned.Run Owned.Sound s0 o) : Owned.Booked s0 o :=
  Runs.Reach.invariant (fun _ h => h ▸ Owned.booked_start hused)
    (fun _ c _ hi hok hs => hi.step hbound hpos hzero c hok hs) h

/-- No entry of the memory map frees block 0. -/
theorem statusAfter_zero (es : List MmapEntry) : statusAfter es true 0 = true := by
  induction es with
  | nil => rfl
  | cons e es ih =>
    have hentry : (e.effect 0).getD true = true := by
      unfold MmapEntry.effect
      split
      · rfl
      · split
        · rfl
        · split <;> rfl
    rw [statusAfter, List.foldl_cons, hentry]
    exact ih

theorem checkBlock_bootState_zero (mem : Mem) {total : Nat} (es : List MmapEntry)
    (ht : total < 0x10000000000000000) (hsize : 8 ≤ managedBlocks total) :
    checkBlock (bootState mem total es) 0 = true := by
  have hinit : initialStatus mem total 0 = true := by
    have hlt : 0 / 8 < managedBlocks total / 8 := by omega
    simp [initialStatus, hlt]
  rw [checkBlock_bootState mem es ht (by decide), hinit]
  exact Or.inr (statusAfter_zero es)

/-- What was used at boot stays used, what is live is used on top, and nothing else is. -/
theorem books_balance {buf : Nat → BitVec 8} {mbinfo : MultibootInfo} {mem : Mem} {s0 : Pmm}
    {o : Owned} (hboot : bootPmm buf mbinfo mem = some s0) (hsize : 8 ≤ s0.maxBlocks)
    (h : Owned.Run Owned.Sound s0 o) :
    (∀ b < s0.maxBlocks, checkBlock o.pmm b = true ↔
      checkBlock s0 b = true ∨ ∃ e ∈ o.live, e.Holds b) ∧
      usedCount o.pmm = usedCount s0 + heldBlocks o.live ∧
        o.pmm.usedBlocks = (s0.usedBlocks + heldBlocks o.live) % 0x100000000 := by
  obtain ⟨es, _, rfl⟩ := bootPmm_eq_some.mp hboot
  rw [bootState_maxBlocks] at hsize
  have hbound := managedBlocks_le (bootTotal mbinfo es)
  have hbooked := h.booked (by rw [bootState_maxBlocks]; exact hbound)
    (by rw [bootState_maxBlocks]; omega) (checkBlock_bootState_zero mem es (bootTotal_lt mbinfo es) hsize)
    (by rw [bootState_usedBlocks]; omega)
  exact ⟨hbooked.exact, hbooked.bits, hbooked.counter⟩

theorem books_balance_qemu :
    usedCount qemuOne.pmm = usedCount qemuState + 1 ∧
      usedCount (freeBlocks qemuOne.pmm 0x1000 1) = usedCount qemuState := by
  have hsize : 8 ≤ qemuState.maxBlocks := by
    rw [qemuState_maxBlocks]
    decide
  have hbits : ∀ (o : Owned) (k : Nat), heldBlocks o.live = k →
      Owned.Run Owned.Sound qemuState o → usedCount o.pmm = usedCount qemuState + k := by
    intro o k hk hrun
    obtain ⟨_, hbits, _⟩ := books_balance bootPmm_qemuState hsize hrun
    rw [← hk]
    exact hbits
  have hstart : Owned.Run Owned.Sound qemuState ⟨qemuState, []⟩ := .start rfl
  have hone : Owned.Run Owned.Sound qemuState qemuOne :=
    hstart.next (.allocate 1#32) (Or.inr (scanFindsRun_one _)) qemuOne_step
  have hnone : Owned.Run Owned.Sound qemuState ⟨freeBlocks qemuOne.pmm 0x1000 1, []⟩ :=
    hone.next (.free ⟨0x1000, 1⟩) trivial rfl
  have hheld : heldBlocks qemuOne.live = 1 := rfl
  have hback := hbits ⟨freeBlocks qemuOne.pmm 0x1000 1, []⟩ 0 heldBlocks_nil hnone
  rw [Nat.add_zero] at hback
  exact ⟨hbits qemuOne 1 hheld hone, hback⟩

end SplongleOS
