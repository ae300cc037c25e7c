import SplongleOS.BlockAccounting
set_option autoImplicit false

/-! Block 0 stays used, so that the address 0 means failure. `initialize_region` frees it
in passing and sets it again; nothing else frees a block it was not handed. -/

namespace SplongleOS

def Owned.anyStep (o : Owned) : RegionCall → Option Owned
  | .initializeRegion base size =>
    some { o with pmm := initializeRegion o.pmm base.toNat size.toNat }
  | .deinitializeRegion base size =>
    some { o with pmm := deinitializeRegion o.pmm base.toNat size.toNat }
  | .block c => o.step c

theorem anyStep_initializeRegion (o : Owned) (base : BitVec 32) (size : BitVec 64) :
    o.anyStep (.initializeRegion base size) =
      some { o with pmm := initializeRegion o.pmm base.toNat size.toNat } := rfl

def Owned.Modest (o : Owned) : RegionCall → Prop
  | .block (.allocate n) => n.toNat ≤ o.pmm.maxBlocks
  | _ => True

/-- The manager right after Memory_Manager_Init with at least `num` blocks, its map an
array of words that ends inside memory. -/
def Managing (num : Nat) (o : Owned) : Prop :=
  ∃ (p : Pmm) (address size : Nat), address % 4 = 0 ∧
    address + managedBlocks size / 8 ≤ 0x100000000 ∧ num ≤ managedBlocks size ∧
    o = ⟨memoryManagerInit p address size, []⟩

/-- The address 0 is returned when the count or the search fails, and then nothing has
changed. -/
structure NullFails (s : Pmm) (num : Nat) : Prop where
  failed : (allocateBlocks s num).1 = 0 → (allocateBlocks s num).2.mem = s.mem ∧
    (allocateBlocks s num).2.usedBlocks = s.usedBlocks
  granted : ∀ b, num ≤ freeCount s → 0 < num → FirstCandidate s num b →
    (allocateBlocks s num).1 = b * 4096 ∧ (allocateBlocks s num).1 ≠ 0

theorem FirstCandidate.pos {s : Pmm} {num b : Nat} (h : FirstCandidate s num b)
    (hzero : checkBlock s 0 = true) : 0 < b := by
  refine Nat.pos_of_ne_zero fun h0 => ?_
  have hfree := h.free
  rw [h0, hzero] at hfree
  contradiction

theorem nullFails {s : Pmm} (num : Nat) (hmax : s.maxBlocks ≤ 0x100000)
    (hzero : checkBlock s 0 = true) : NullFails s num := by
  constructor
  · have hall := allocateBlocks_cases s num hmax
    generalize allocateBlocks s num = r at hall ⊢
    cases hall with
    | refused _ => exact fun _ => ⟨rfl, rfl⟩
    | notFound _ _ => exact fun _ => ⟨rfl, rfl⟩
    | taken _ _ hb =>
      have hpos := hb.pos hzero
      have hlt := hb.1
      intro h0
      omega
  · intro b hcount hn hb
    have hpos := hb.pos hzero
    have hlt := hb.1
    rw [allocateBlocks_eq hmax hcount hn hb]
    dsimp only
    omega

structure Owned.NullKept (o : Owned) : Prop where
  max : o.pmm.maxBlocks ≤ 0x100000
  pos : 0 < o.pmm.maxBlocks
  used : checkBlock o.pmm 0 = true
  live : ∀ e ∈ o.live, 0 < e.address / 4096 ∧ e.address / 4096 + e.blocks ≤ 0x80000000

theorem checkBlock_memoryManagerInit_zero (p : Pmm) {address size : Nat} (hal : address % 4 = 0)
    (hfit : address + managedBlocks size / 8 ≤ 0x100000000) (hnum : 8 ≤ managedBlocks size) :
    checkBlock (memoryManagerInit p address size) 0 = true := by
  have hmap : (memoryManagerInit p address size).memoryMap = address := rfl
  have hmem : (memoryManagerInit p address size).mem =
      WordMemory.memset p.mem address 0xFF#8 (managedBlocks size / 8) := by
    rw [← memoryManagerInit_maxBlocks p address size]
    rfl
  rw [checkBlock_bit _ hal (by rw [hmap]; omega), hmap, hmem, WordMemory.memset_bit _ _ _ _ _ hfit,
    if_pos (by omega)]
  have hbit : (8 * address + 0) % 8 = 0 := by omega
  rw [hbit]
  decide

theorem nullKept_managing {o : Owned} (h : Managing 8 o) : o.NullKept := by
  obtain ⟨p, address, size, hal, hfit, hnum, rfl⟩ := h
  refine ⟨?_, ?_, checkBlock_memoryManagerInit_zero p hal hfit hnum, by simp⟩
  · exact memoryManagerInit_maxBlocks p address size ▸ managedBlocks_le size
  · rw [memoryManagerInit_maxBlocks]
    omega

theorem Owned.NullKept.returned {o : Owned} {t : Pmm} {a num : Nat} (h : o.NullKept)
    (haddr : a ≠ 0 → 0 < a / 4096 ∧ a / 4096 + num ≤ 0x80000000)
    (hmax : t.maxBlocks = o.pmm.maxBlocks) (hused : checkBlock t 0 = true) :
    Owned.NullKept { pmm := t, live := if a = 0 then o.live else ⟨a, num⟩ :: o.live } := by
  have hpos := h.pos
  refine ⟨hmax.trans_le h.max, by rwa [hmax], hused, ?_⟩
  by_cases ha : a = 0
  · rw [if_pos ha]
    exact h.live
  · rw [if_neg ha]
    exact List.forall_mem_cons.mpr ⟨haddr ha, h.live⟩

theorem Owned.NullKept.allocate {o o' : Owned} {n : BitVec 32} (h : o.NullKept)
    (hn : n.toNat ≤ o.pmm.maxBlocks) (hs : o.step (.allocate n) = some o') : o'.NullKept := by
  have hmax := h.max
  have hfound : (allocateBlocks o.pmm n.toNat).1 ≠ 0 →
      0 < (allocateBlocks o.pmm n.toNat).1 / 4096 ∧
        (allocateBlocks o.pmm n.toNat).1 / 4096 + n.toNat ≤ 0x80000000 := by
    intro ha
    obtain ⟨_, _, hb, _⟩ := allocateBlocks_address hmax ha
    have hlt := hb.1
    exact ⟨hb.pos h.used, by omega⟩
  simp only [Owned.step, Option.some.injEq] at hs
  subst hs
  exact h.returned hfound (allocateBlocks_maxBlocks n.toNat hmax)
    (checkBlock_allocateBlocks_of_used n.toNat hmax (by decide) h.used)

theorem Owned.NullKept.free {o o' : Owned} {e : Alloc} (h : o.NullKept)
    (hs : o.step (.free e) = some o') : o'.NullKept := by
  by_cases hlive : e ∈ o.live
  · simp only [Owned.step, hlive, ↓reduceIte, Option.some.injEq] at hs
    subst hs
    obtain ⟨hpos, hfit⟩ := h.live e hlive
    have hout : ¬(e.address / 4096 ≤ 0 ∧ 0 < e.address / 4096 + e.blocks) := by omega
    refine ⟨?_, ?_, (checkBlock_freeBlocks o.pmm hfit (by decide)).mpr ⟨hout, h.used⟩,
      fun e' he' => h.live e' (List.mem_of_mem_erase he')⟩
    · rw [freeBlocks_maxBlocks]
      exact h.max
    · rw [freeBlocks_maxBlocks]
      exact h.pos
  · simp [Owned.step, hlive] at hs

theorem Owned.NullKept.write {o o' : Owned} {w : Nat} {v : BitVec 32} (h : o.NullKept)
    (hs : o.step (.write w v) = some o') : o'.NullKept := by
  by_cases hw : o.pmm.InBitmap w
  · simp [Owned.step, hw] at hs
  · simp only [Owned.step, hw, ↓reduceIte, Option.some.injEq] at hs
    subst hs
    have hpos := h.pos
    have hne : o.pmm.slot (0 / 32 : Nat) ≠ w := fun heq => hw ⟨0, by omega, heq.symm⟩
    have hkept : checkBlock { o.pmm with mem := Function.update o.pmm.mem w v } 0 =
        checkBlock o.pmm 0 :=
      checkBlock_congr (s := o.pmm) (t := { o.pmm with mem := Function.update o.pmm.mem w v }) rfl
        (Function.update_of_ne hne v o.pmm.mem)
    exact ⟨h.max, h.pos, hkept.trans h.used, h.live⟩

theorem Owned.NullKept.step {o o' : Owned} (c : RegionCall) (h : o.NullKept) (hok : o.Modest c)
    (hs : o.anyStep c = some o') : o'.NullKept := by
  cases c with
  | initializeRegion base size =>
    obtain rfl := Option.some.inj hs
    have hmax := initializeRegion_maxBlocks o.pmm base.toNat size.toNat
    exact ⟨hmax.trans_le h.max, hmax.symm ▸ h.pos,
      (checkBlock_initializeRegion o.pmm _ base.isLt (by decide)).mpr (Or.inl rfl), h.live⟩
  | deinitializeRegion base size =>
    obtain rfl := Option.some.inj hs
    have hmax := deinitializeRegion_maxBlocks o.pmm base.toNat size.toNat
    exact ⟨hmax.trans_le h.max, hmax.symm ▸ h.pos,
      (checkBlock_deinitializeRegion o.pmm _ base.isLt (by decide)).mpr (Or.inr h.used), h.live⟩
  | block c =>
    cases c with
    | allocate n => exact h.allocate hok hs
    | free e => exact h.free hs
    | write w v => exact h.write hs

/-- In every state of every run block 0 is used, and so the result 0 is a failure. -/
theorem null_is_never_an_allocation {o : Owned}
    (h : Runs.Reach Owned.anyStep Owned.Modest (Managing 8) o) :
    checkBlock o.pmm 0 = true ∧ ∀ n : BitVec 32, NullFails o.pmm n.toNat := by
  have hkept : o.NullKept := Runs.Reach.invariant (fun _ => nullKept_managing)
    (fun _ c _ hi hok hs => hi.step c hok hs) h
  exact ⟨hkept.used, fun n => nullFails n.toNat hkept.max hkept.used⟩

theorem managing_smallInit : Managing 8 ⟨smallInit, []⟩ := by
  rw [smallInit]
  exact ⟨_, 0x30000, 0x20000, by decide, by decide, by decide, rfl⟩

theorem null_is_never_an_allocation_small :
    checkBlock (initializeRegion smallInit (0#32).toNat (0x1000#64).toNat) 0 = true ∧
      ∀ n : BitVec 32, NullFails (initializeRegion smallInit (0#32).toNat (0x1000#64).toNat) n.toNat := by
  have hstart : Runs.Reach Owned.anyStep Owned.Modest (Managing 8) ⟨smallInit, []⟩ :=
    .start managing_smallInit
  have hrun := hstart.next (RegionCall.initializeRegion 0#32 0x1000#64) trivial
    (anyStep_initializeRegion ⟨smallInit, []⟩ 0#32 0x1000#64)
  have hnull := null_is_never_an_allocation hrun
  exact hnull

end SplongleOS
