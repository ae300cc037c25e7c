import SplongleOS.BlockBits
import SplongleOS.Memmap
set_option autoImplicit false

/-! The free map after boot, one block at a time: the entries of the memory map act
on the status of each block separately, and the last entry that reaches it decides. -/

namespace SplongleOS
open WordMemory

def MmapEntry.Available (e : MmapEntry) : Prop := e.type = 1#32

instance (e : MmapEntry) : Decidable e.Available := inferInstanceAs (Decidable (e.type = 1#32))

def MmapEntry.align (e : MmapEntry) : Nat := e.addr.toNat / 4096

def MmapEntry.blocks (e : MmapEntry) : Nat := regionBlocks e.addr.toNat e.len.toNat

/-- What `set_type1` makes of block `b` at entry `e`: free, used, or what it was. -/
def MmapEntry.effect (e : MmapEntry) (b : Nat) : Option Bool :=
  if 0x100000000 ≤ e.addr.toNat then none
  else if e.Available then
    if b = 0 then some true
    else if ∃ i < e.blocks, b = (e.align + i) % 0x100000000 then some false
    else none
  else if ∃ i < e.blocks, (b : Int) = bitAddr (toInt32 ((e.align + i) % 0x100000000)) then some true
  else none

def statusAfter (es : List MmapEntry) (used : Bool) (b : Nat) : Bool :=
  es.foldl (fun u e => (e.effect b).getD u) used

theorem clipSize_clipSize (base size : Nat) (h : base < 0x100000000) :
    clipSize base (clipSize base size) = clipSize base size := by
  unfold clipSize
  split
  · rw [if_neg (by omega)]
  · rfl

theorem checkBlock_initializeRegion (s : Pmm) {base : Nat} (size : Nat) {b : Nat}
    (hbase : base < 0x100000000) (hb : b < 0x100000000) :
    checkBlock (initializeRegion s base size) b = true ↔
      b = 0 ∨ (¬(∃ i < regionBlocks base size, b = (base / 4096 + i) % 0x100000000) ∧
        checkBlock s b = true) := by
  unfold initializeRegion
  rw [if_neg (by omega)]
  have hset := checkBlock_setBlock
    (forBlocks initializeBlock (regionBlocks base size) (base / 4096) s) (i := 0) (by omega) hb
  have hzero : bitAddr 0 = 0 := by decide
  have hclear := forBlocks_clear initializeBlock (fun k => b = k)
    (fun t k hk => checkBlock_initializeBlock t hk hb) (regionBlocks base size) (base / 4096) s
  rw [hset, Bool.or_eq_true, hclear, hzero, decide_eq_true_eq]
  norm_cast

theorem checkBlock_deinitializeRegion (s : Pmm) {base : Nat} (size : Nat) {b : Nat}
    (hbase : base < 0x100000000) (hb : b < 0x100000000) :
    checkBlock (deinitializeRegion s base size) b = true ↔
      (∃ i < regionBlocks base size, (b : Int) = bitAddr (toInt32 ((base / 4096 + i) % 0x100000000))) ∨
        checkBlock s b = true := by
  unfold deinitializeRegion
  rw [if_neg (by omega)]
  exact forBlocks_set deinitializeBlock (fun k => (b : Int) = bitAddr (toInt32 k))
    (fun t k _ => checkBlock_deinitializeBlock t k hb) _ _ _

theorem regionBlocks_setType1 (e : MmapEntry) (h : ¬0x100000000 ≤ e.addr.toNat) :
    regionBlocks e.addr.toNat
      (if (e.addr.toNat + e.len.toNat) % 0x10000000000000000 > 0x100000000
        then 0x100000000 - e.addr.toNat else e.len.toNat) = e.blocks := by
  unfold MmapEntry.blocks regionBlocks
  exact congrArg (· / 4096 % 0x100000000) (clipSize_clipSize _ _ (by omega))

theorem checkBlock_setType1Entry (s : Pmm) (e : MmapEntry) {b : Nat} (hb : b < 0x100000000) :
    checkBlock (setType1Entry s e) b = (e.effect b).getD (checkBlock s b) := by
  unfold setType1Entry MmapEntry.effect
  by_cases hhigh : 0x100000000 ≤ e.addr.toNat
  · simp [hhigh]
  · have hlen := regionBlocks_setType1 e hhigh
    simp only [ge_iff_le, hhigh, ↓reduceIte]
    by_cases hav : e.Available
    · have ht : e.type = 1#32 := hav
      rw [if_pos ht, if_pos hav, Bool.eq_iff_iff,
        checkBlock_initializeRegion _ _ (by omega) hb, hlen]
      change b = 0 ∨ ¬(∃ i < e.blocks, b = (e.align + i) % 0x100000000) ∧ _ ↔ _
      split
      · simp [*]
      · split <;> simp [*]
    · have ht : ¬e.type = 1#32 := hav
      rw [if_neg ht, if_neg hav, Bool.eq_iff_iff,
        checkBlock_deinitializeRegion _ _ (by omega) hb, hlen]
      change (∃ i < e.blocks, (b : Int) = bitAddr (toInt32 ((e.align + i) % 0x100000000))) ∨ _ ↔ _
      split <;> simp [*]

/-- `g_usedBlocks` after an entry: every block of it is counted, whatever it was. -/
def MmapEntry.recount (used : Nat) (e : MmapEntry) : Nat :=
  if 0x100000000 ≤ e.addr.toNat then used
  else if e.Available then (used + 0x100000000 - e.blocks) % 0x100000000
  else (used + e.blocks) % 0x100000000

theorem recount_lt {used : Nat} (e : MmapEntry) (h : used < 0x100000000) :
    e.recount used < 0x100000000 := by
  unfold MmapEntry.recount
  split
  · exact h
  · split <;> exact Nat.mod_lt _ (by decide)

theorem setType1Entry_usedBlocks (s : Pmm) (e : MmapEntry) (h : s.usedBlocks < 0x100000000) :
    (setType1Entry s e).usedBlocks = e.recount s.usedBlocks := by
  unfold setType1Entry MmapEntry.recount
  by_cases hhigh : 0x100000000 ≤ e.addr.toNat
  · simp [hhigh]
  · have hlen := regionBlocks_setType1 e hhigh
    simp only [ge_iff_le, hhigh, ↓reduceIte]
    by_cases hav : e.Available
    · have ht : e.type = 1#32 := hav
      rw [if_pos ht, if_pos hav, initializeRegion_usedBlocks _ _ (by omega) h, hlen]
    · have ht : ¬e.type = 1#32 := hav
      rw [if_neg ht, if_neg hav, deinitializeRegion_usedBlocks _ _ (by omega) h, hlen]

theorem foldl_setType1Entry_usedBlocks (es : List MmapEntry) (s : Pmm)
    (h : s.usedBlocks < 0x100000000) :
    (es.foldl setType1Entry s).usedBlocks = es.foldl MmapEntry.recount s.usedBlocks := by
  induction es generalizing s with
  | nil => rfl
  | cons e es ih =>
    have hstep := setType1Entry_usedBlocks s e h
    rw [List.foldl_cons, ih _ (hstep ▸ recount_lt e h), hstep, List.foldl_cons]

theorem foldl_recount_lt (es : List MmapEntry) {used : Nat} (h : used < 0x100000000) :
    es.foldl MmapEntry.recount used < 0x100000000 := by
  induction es generalizing used with
  | nil => exact h
  | cons e es ih => exact ih (recount_lt e h)

theorem checkBlock_foldl_setType1Entry (es : List MmapEntry) (s : Pmm) {b : Nat}
    (hb : b < 0x100000000) :
    checkBlock (es.foldl setType1Entry s) b = statusAfter es (checkBlock s b) b := by
  induction es generalizing s with
  | nil => rfl
  | cons e es ih => rw [List.foldl_cons, ih, checkBlock_setType1Entry s e hb]; rfl

@[simp] theorem setType1Entry_maxBlocks (s : Pmm) (e : MmapEntry) :
    (setType1Entry s e).maxBlocks = s.maxBlocks := by
  unfold setType1Entry
  dsimp only
  split
  · rfl
  · split
    · exact initializeRegion_maxBlocks _ _ _
    · exact deinitializeRegion_maxBlocks _ _ _

@[simp] theorem setType1Entry_memoryMap (s : Pmm) (e : MmapEntry) :
    (setType1Entry s e).memoryMap = s.memoryMap := by
  unfold setType1Entry
  dsimp only
  split
  · rfl
  · split
    · exact initializeRegion_memoryMap _ _ _
    · exact deinitializeRegion_memoryMap _ _ _

@[simp] theorem foldl_setType1Entry_maxBlocks (es : List MmapEntry) (s : Pmm) :
    (es.foldl setType1Entry s).maxBlocks = s.maxBlocks := by
  induction es generalizing s with
  | nil => rfl
  | cons e es ih => rw [List.foldl_cons, ih, setType1Entry_maxBlocks]

@[simp] theorem foldl_setType1Entry_memoryMap (es : List MmapEntry) (s : Pmm) :
    (es.foldl setType1Entry s).memoryMap = s.memoryMap := by
  induction es generalizing s with
  | nil => rfl
  | cons e es ih => rw [List.foldl_cons, ih, setType1Entry_memoryMap]

def managedBlocks (total : Nat) : Nat := min total 0x100000000 / 4096

theorem managedBlocks_le (total : Nat) : managedBlocks total ≤ 0x100000 := by
  unfold managedBlocks
  omega

theorem memoryManagerInit_maxBlocks (s : Pmm) (address total : Nat) :
    (memoryManagerInit s address total).maxBlocks = managedBlocks total := by
  simp only [memoryManagerInit, managedBlocks]
  split <;> omega

/-- The status of block `b` before the first map entry: the bytes `memset` filled, and
whatever the storage held past them. -/
def initialStatus (mem : Mem) (total b : Nat) : Bool :=
  decide (b / 8 < managedBlocks total / 8) || mem.bit (8 * 0x30000 + b)

def KernelBlock (total b : Nat) : Prop :=
  (256 ≤ b ∧ b < 768) ∨ (48 ≤ b ∧ b < 48 + regionBlocks 0x30000 (total / 4096 / 8))

@[simp] theorem bootState_maxBlocks (mem : Mem) (total : Nat) (es : List MmapEntry) :
    (bootState mem total es).maxBlocks = managedBlocks total := by
  simp [bootState, memoryManagerInit_maxBlocks]

@[simp] theorem bootState_memoryMap (mem : Mem) (total : Nat) (es : List MmapEntry) :
    (bootState mem total es).memoryMap = 0x30000 := by
  simp [bootState, memoryManagerInit]

theorem bootState_usedBlocks (mem : Mem) (total : Nat) (es : List MmapEntry) :
    (bootState mem total es).usedBlocks =
      (es.foldl MmapEntry.recount (managedBlocks total) + 512 +
        regionBlocks 0x30000 (total / 4096 / 8)) % 0x100000000 := by
  have hmax := managedBlocks_le total
  have hinit : (memoryManagerInit ⟨mem, 0, 0, 0, []⟩ 0x30000 total).usedBlocks =
      managedBlocks total := memoryManagerInit_maxBlocks ⟨mem, 0, 0, 0, []⟩ 0x30000 total
  have hk : regionBlocks 0x100000 0x200000 = 512 := by decide
  have hfold := foldl_setType1Entry_usedBlocks es
    (memoryManagerInit ⟨mem, 0, 0, 0, []⟩ 0x30000 total) (by omega)
  have hlt : es.foldl MmapEntry.recount (managedBlocks total) < 0x100000000 :=
    foldl_recount_lt es (by omega)
  rw [hinit] at hfold
  have h1 := deinitializeRegion_usedBlocks
    (es.foldl setType1Entry (memoryManagerInit ⟨mem, 0, 0, 0, []⟩ 0x30000 total))
    0x200000 (show 0x100000 < 0x100000000 by omega) (by omega)
  have h2 := deinitializeRegion_usedBlocks (deinitializeRegion
    (es.foldl setType1Entry (memoryManagerInit ⟨mem, 0, 0, 0, []⟩ 0x30000 total)) 0x100000 0x200000)
    (total / 4096 / 8) (show 0x30000 < 0x100000000 by omega) (by omega)
  rw [bootState, h2, h1, hfold, hk]
  omega

theorem regionBlocks_kernel_le (total : Nat) (h : total < 0x10000000000000000) :
    48 + regionBlocks 0x30000 (total / 4096 / 8) ≤ 0x100000 := by
  unfold regionBlocks clipSize
  split <;> omega

theorem checkBlock_setType1 (mem : Mem) (total : Nat) (es : List MmapEntry) {b : Nat}
    (hb : b < 0x100000) :
    checkBlock (es.foldl setType1Entry (memoryManagerInit ⟨mem, 0, 0, 0, []⟩ 0x30000 total)) b =
      statusAfter es (initialStatus mem total b) b := by
  rw [checkBlock_foldl_setType1Entry _ _ (by omega),
    checkBlock_memoryManagerInit _ (by omega) (by omega) hb, memoryManagerInit_maxBlocks]
  rfl

theorem checkBlock_bootState (mem : Mem) {total : Nat} (es : List MmapEntry) {b : Nat}
    (ht : total < 0x10000000000000000) (hb : b < 0x100000) :
    checkBlock (bootState mem total es) b = true ↔
      KernelBlock total b ∨ statusAfter es (initialStatus mem total b) b = true := by
  have hle := regionBlocks_kernel_le total ht
  have hk : regionBlocks 0x100000 0x200000 = 512 := by decide
  unfold bootState
  rw [checkBlock_deinitializeRegion _ _ (by omega) (by omega),
    exists_setBlock_iff (by omega),
    checkBlock_deinitializeRegion _ _ (by omega) (by omega),
    exists_setBlock_iff (by omega), hk, checkBlock_setType1 mem total es hb]
  unfold KernelBlock
  grind

theorem totalOf_lt (es : List MmapEntry) : totalOf es < 0x10000000000000000 := by
  have h : ∀ (l : List MmapEntry) (t : Nat), t < 0x10000000000000000 →
      l.foldl (fun total e => (total + e.len.toNat) % 0x10000000000000000) t <
        0x10000000000000000 := by
    intro l
    induction l with
    | nil => exact fun t ht => ht
    | cons e l ih => exact fun t _ => ih _ (Nat.mod_lt _ (by decide))
  exact h es 0 (by decide)

theorem bootTotal_lt (mbinfo : MultibootInfo) (es : List MmapEntry) :
    bootTotal mbinfo es < 0x10000000000000000 := by
  unfold bootTotal
  split
  · decide
  · exact totalOf_lt es

/-- `e` reaches `b` and no later entry of the map does. -/
def Decides (es : List MmapEntry) (e : MmapEntry) (b : Nat) : Prop :=
  ∃ front back, es = front ++ e :: back ∧ e.effect b ≠ none ∧ ∀ x ∈ back, x.effect b = none

def Unreached (es : List MmapEntry) (b : Nat) : Prop := ∀ e ∈ es, e.effect b = none

theorem statusAfter_of_unreached {es : List MmapEntry} {b : Nat} (used : Bool)
    (h : Unreached es b) : statusAfter es used b = used := by
  induction es generalizing used with
  | nil => rfl
  | cons e es ih =>
    have he := h e (by simp)
    have ht := ih used fun x hx => h x (by simp [hx])
    simpa [statusAfter, he] using ht

theorem statusAfter_append (front back : List MmapEntry) (used : Bool) (b : Nat) :
    statusAfter (front ++ back) used b = statusAfter back (statusAfter front used b) b :=
  List.foldl_append

theorem statusAfter_of_decides {es : List MmapEntry} {e : MmapEntry} {b : Nat} {u : Bool}
    (used : Bool) (h : Decides es e b) (he : e.effect b = some u) : statusAfter es used b = u := by
  obtain ⟨front, back, rfl, _, hback⟩ := h
  have hcons : statusAfter (e :: back) (statusAfter front used b) b = statusAfter back u b := by
    simp [statusAfter, he]
  rw [statusAfter_append, hcons, statusAfter_of_unreached u hback]

theorem unreached_or_decides (es : List MmapEntry) (b : Nat) :
    Unreached es b ∨ ∃ e ∈ es, Decides es e b := by
  induction es with
  | nil => exact Or.inl fun e he => by simp at he
  | cons e es ih =>
    rcases ih with hun | ⟨x, hx, front, back, hes, hxb, hback⟩
    · by_cases he : e.effect b = none
      · left
        intro x hx
        rcases List.mem_cons.mp hx with rfl | hx
        · exact he
        · exact hun x hx
      · exact Or.inr ⟨e, by simp, [], es, rfl, he, hun⟩
    · exact Or.inr ⟨x, by simp [hx], e :: front, back, by simp [hes], hxb, hback⟩

/-- The map, read entry by entry, leaves `b` free: the last entry to reach it is an
available one, or none reaches it and its bit was clear in the storage. -/
def LeftFree (mem : Mem) (total : Nat) (es : List MmapEntry) (b : Nat) : Prop :=
  (∃ e, Decides es e b ∧ e.effect b = some false) ∨
    (Unreached es b ∧ initialStatus mem total b = false)

theorem leftFree_iff (mem : Mem) (total : Nat) (es : List MmapEntry) (b : Nat) :
    LeftFree mem total es b ↔ statusAfter es (initialStatus mem total b) b = false := by
  constructor
  · rintro (⟨e, hd, he⟩ | ⟨hun, hinit⟩)
    · exact statusAfter_of_decides _ hd he
    · rw [statusAfter_of_unreached _ hun, hinit]
  · intro hfree
    rcases unreached_or_decides es b with hun | ⟨e, _, hd⟩
    · exact Or.inr ⟨hun, by rwa [statusAfter_of_unreached _ hun] at hfree⟩
    · have hne : e.effect b ≠ none := by
        obtain ⟨_, _, _, hne, _⟩ := hd
        exact hne
      obtain ⟨u, hu⟩ := Option.ne_none_iff_exists'.mp hne
      have hstatus := statusAfter_of_decides (initialStatus mem total b) hd hu
      exact Or.inl ⟨e, hd, by rw [hu, ← hstatus, hfree]⟩

theorem checkBlock_bootState_eq_false (mem : Mem) {total : Nat} (es : List MmapEntry) {b : Nat}
    (ht : total < 0x10000000000000000) (hb : b < 0x100000) :
    checkBlock (bootState mem total es) b = false ↔
      ¬KernelBlock total b ∧ LeftFree mem total es b := by
  rw [leftFree_iff, ← Bool.not_eq_true, checkBlock_bootState mem es ht hb, not_or, Bool.not_eq_true]

def MmapEntry.interval (e : MmapEntry) (b : Nat) : Option Bool :=
  if 0x100000000 ≤ e.addr.toNat then none
  else if e.Available then
    if b = 0 then some true
    else if e.align ≤ b ∧ b < e.align + e.blocks then some false
    else none
  else if e.align ≤ b ∧ b < e.align + e.blocks then some true
  else none

theorem effect_eq_interval {e : MmapEntry} (h : e.align + e.blocks ≤ 0x80000000) (b : Nat) :
    e.effect b = e.interval b := by
  unfold MmapEntry.effect MmapEntry.interval
  simp only [exists_block_iff h, exists_setBlock_iff h]

theorem statusAfter_eq_interval {es : List MmapEntry}
    (h : ∀ e ∈ es, e.align + e.blocks ≤ 0x80000000) (used : Bool) (b : Nat) :
    statusAfter es used b = es.foldl (fun u e => (e.interval b).getD u) used := by
  induction es generalizing used with
  | nil => rfl
  | cons e es ih =>
    have he := effect_eq_interval (h e (by simp)) b
    have ht := ih (fun x hx => h x (by simp [hx])) ((e.interval b).getD used)
    simpa [statusAfter, he] using ht

/-- The map of the machine run_hdd.sh starts: 512 MB below 4 GB, less the hole for the
BIOS and the pages it keeps at the top. -/
def qemuMap : List MmapEntry :=
  [⟨20#32, 0x0#64, 0x9FC00#64, 1#32⟩, ⟨20#32, 0x9FC00#64, 0x400#64, 2#32⟩,
   ⟨20#32, 0xF0000#64, 0x10000#64, 2#32⟩, ⟨20#32, 0x100000#64, 0x1FEE0000#64, 1#32⟩,
   ⟨20#32, 0x1FFE0000#64, 0x20000#64, 2#32⟩, ⟨20#32, 0xFFFC0000#64, 0x40000#64, 2#32⟩]

theorem totalOf_qemuMap : totalOf qemuMap = 0x1FFF0000 := by decide

theorem bootPmm_qemuMap (mem : Mem) :
    bootPmm (encodeMap qemuMap) (mapInfo qemuMap) mem = some (bootState mem 0x1FFF0000 qemuMap) := by
  rw [← totalOf_qemuMap]
  exact bootPmm_encodeMap (by decide) (by decide) mem

theorem statusAfter_qemuMap (b : Nat) (hb : b < 131056) :
    statusAfter qemuMap true b = false ↔ (1 ≤ b ∧ b < 159) ∨ (256 ≤ b ∧ b < 131040) := by
  rw [statusAfter_eq_interval (by decide)]
  simp only [qemuMap, List.foldl_cons, List.foldl_nil, MmapEntry.interval, MmapEntry.Available,
    MmapEntry.align, MmapEntry.blocks, regionBlocks, clipSize, BitVec.toNat_ofNat]
  simp
  grind

theorem checkBlock_qemuMap (mem : Mem) {b : Nat} (hb : b < 131048) :
    checkBlock (bootState mem 0x1FFF0000 qemuMap) b = false ↔
      (1 ≤ b ∧ b < 48) ∨ (51 ≤ b ∧ b < 159) ∨ (768 ≤ b ∧ b < 131040) := by
  have hinit : initialStatus mem 0x1FFF0000 b = true := by
    rw [initialStatus, Bool.or_eq_true]
    left
    apply decide_eq_true
    unfold managedBlocks
    omega
  have hk : regionBlocks 0x30000 (0x1FFF0000 / 4096 / 8) = 3 := by decide
  rw [checkBlock_bootState_eq_false mem qemuMap (by decide) (by omega), leftFree_iff, hinit,
    statusAfter_qemuMap b (by omega), KernelBlock, hk]
  omega

theorem usedBlocks_qemuMap (mem : Mem) : (bootState mem 0x1FFF0000 qemuMap).usedBlocks = 740 := by
  rw [bootState_usedBlocks]
  decide

end SplongleOS
