import SplongleOS.Page
set_option autoImplicit false

/-! What the operations on entries and tables do, bit by bit and word by word. -/

namespace SplongleOS
open WordMemory

theorem pdIndex_eq (virt : Nat) : pdIndex virt = virt / 0x400000 % 1024 := by
  rw [pdIndex, Nat.shiftRight_eq_div_pow]
  exact Nat.and_two_pow_sub_one_eq_mod _ 10

theorem ptIndex_eq (virt : Nat) : ptIndex virt = virt / 4096 % 1024 := by
  rw [ptIndex, Nat.shiftRight_eq_div_pow]
  exact Nat.and_two_pow_sub_one_eq_mod _ 10

theorem entryAddr_eq {table i : Nat} (ht : table % 4096 = 0) (hfit : table < 0x100000000)
    (hi : i < 1024) : entryAddr table i = table + 4 * i := Nat.mod_eq_of_lt (by omega)

theorem getLsbD_present (i : Nat) : present.getLsbD i = decide (i = 0) := by
  simp [present, BitVec.getLsbD_one]

theorem and_present_eq_zero (e : BitVec 32) : e &&& present = 0#32 ↔ e.getLsbD 0 = false :=
  and_bit_eq_zero e (show 0 < 32 by decide)

theorem and_present_ne (e : BitVec 32) : e &&& present ≠ present ↔ e.getLsbD 0 = false := by
  have hbit : (e &&& present).getLsbD 0 = e.getLsbD 0 := by
    rw [BitVec.getLsbD_and, getLsbD_present]
    simp
  constructor
  · intro hne
    by_contra htrue
    refine hne (word_ext fun i _ => ?_)
    rw [BitVec.getLsbD_and, getLsbD_present]
    by_cases hi : i = 0
    · subst hi
      simpa using htrue
    · simp [hi]
  · intro hfalse heq
    rw [heq, getLsbD_present, hfalse] at hbit
    simp at hbit

theorem getLsbD_low (i : Nat) : (0xFFF#32).getLsbD i = decide (i < 12) := by
  by_cases hi : i < 32
  · have h : ∀ j < 32, (0xFFF#32).getLsbD j = decide (j < 12) := by decide
    exact h i hi
  · have hn : ¬i < 12 := by omega
    rw [BitVec.getLsbD_of_ge _ _ (by omega)]
    simp [hn]

theorem pagePhysAddr_eq (e : BitVec 32) : pagePhysAddr e = e.toNat / 4096 * 4096 := by
  have hword : e &&& ~~~0xFFF#32 = (e >>> 12) <<< 12 := by
    refine word_ext fun i hi => ?_
    rw [BitVec.getLsbD_and, BitVec.getLsbD_not, getLsbD_low, BitVec.getLsbD_shiftLeft,
      BitVec.getLsbD_ushiftRight]
    by_cases hlow : i < 12
    · simp [hlow]
    · have hadd : 12 + (i - 12) = i := by omega
      simp [hlow, hi, hadd]
  have hlt := e.isLt
  rw [pagePhysAddr, hword, BitVec.toNat_shiftLeft, BitVec.toNat_ushiftRight,
    Nat.shiftRight_eq_div_pow, Nat.shiftLeft_eq]
  omega

theorem setFrame_toNat (e : BitVec 32) {a : Nat} (ha : a % 4096 = 0) (hfit : a < 0x100000000) :
    (setFrame e a).toNat = e.toNat % 4096 + a := by
  have hmask : (~~~0xFFFFF000#32) = 0xFFF#32 := by decide
  have hlow : (e &&& 0xFFF#32).toNat = e.toNat % 4096 := by
    rw [BitVec.toNat_and]
    exact Nat.and_two_pow_sub_one_eq_mod _ 12
  have hor : e.toNat % 4096 ||| a = a + e.toNat % 4096 := by
    obtain ⟨k, rfl⟩ : ∃ k, a = 2 ^ 12 * k := ⟨a / 4096, by omega⟩
    rw [Nat.or_comm]
    exact (Nat.two_pow_add_eq_or_of_lt (Nat.mod_lt _ (by decide)) k).symm
  rw [setFrame, hmask, BitVec.toNat_or, hlow, BitVec.toNat_ofNat, Nat.mod_eq_of_lt hfit, hor,
    Nat.add_comm]

@[simp] theorem pagePhysAddr_setFrame (e : BitVec 32) {a : Nat} (ha : a % 4096 = 0)
    (hfit : a < 0x100000000) : pagePhysAddr (setFrame e a) = a := by
  rw [pagePhysAddr_eq, setFrame_toNat e ha hfit]
  omega

theorem pagePhysAddr_congr {x y : BitVec 32} (h : ∀ i, 12 ≤ i → x.getLsbD i = y.getLsbD i) :
    pagePhysAddr x = pagePhysAddr y := by
  rw [pagePhysAddr, pagePhysAddr]
  congr 1
  refine word_ext fun i hi => ?_
  rw [BitVec.getLsbD_and, BitVec.getLsbD_and, BitVec.getLsbD_not, getLsbD_low]
  by_cases hlow : i < 12
  · simp [hlow]
  · rw [h i (by omega)]

theorem getLsbD_setAttr_present (e : BitVec 32) (i : Nat) :
    (setAttr e present).getLsbD i = (decide (i = 0) || e.getLsbD i) :=
  getLsbD_or_bit e (show 0 < 32 by decide) i

theorem getLsbD_clearAttr_present (e : BitVec 32) (i : Nat) :
    (clearAttr e present).getLsbD i = (!decide (i = 0) && e.getLsbD i) :=
  getLsbD_and_not_bit e (show 0 < 32 by decide) i

theorem pagePhysAddr_setAttr_present (e : BitVec 32) :
    pagePhysAddr (setAttr e present) = pagePhysAddr e := by
  refine pagePhysAddr_congr fun i hi => ?_
  have hne : ¬i = 0 := by omega
  rw [getLsbD_setAttr_present]
  simp [hne]

theorem pagePhysAddr_clearAttr_present (e : BitVec 32) :
    pagePhysAddr (clearAttr e present) = pagePhysAddr e := by
  refine pagePhysAddr_congr fun i hi => ?_
  have hne : ¬i = 0 := by omega
  rw [getLsbD_clearAttr_present]
  simp [hne]

theorem getLsbD_setFrame (e : BitVec 32) {a i : Nat} (ha : a % 4096 = 0) (hfit : a < 0x100000000)
    (hi : i < 12) : (setFrame e a).getLsbD i = e.getLsbD i := by
  have hmod : ∀ x : BitVec 32, x.getLsbD i = (x.toNat % 4096).testBit i := by
    intro x
    rw [show (4096 : Nat) = 2 ^ 12 by decide, Nat.testBit_mod_two_pow]
    simp [hi, BitVec.getLsbD]
  rw [hmod, hmod, setFrame_toNat e ha hfit]
  congr 1
  omega

theorem getLsbD_mappedEntry {a i : Nat} (ha : a % 4096 = 0) (hfit : a < 0x100000000)
    (hi : i < 2) : (mappedEntry a).getLsbD i = true := by
  have hall : ∀ j < 2, (setAttr 0#32 (present ||| readWrite)).getLsbD j = true := by decide
  rw [mappedEntry, getLsbD_setFrame _ ha hfit (by omega)]
  exact hall i hi

@[simp] theorem store_maxBlocks (s : Vm) (a : Nat) (v : BitVec 32) :
    (s.store a v).pmm.maxBlocks = s.pmm.maxBlocks := rfl
@[simp] theorem store_memoryMap (s : Vm) (a : Nat) (v : BitVec 32) :
    (s.store a v).pmm.memoryMap = s.pmm.memoryMap := rfl
@[simp] theorem store_handed (s : Vm) (a : Nat) (v : BitVec 32) :
    (s.store a v).handed = s.handed := rfl
@[simp] theorem store_currentPD (s : Vm) (a : Nat) (v : BitVec 32) :
    (s.store a v).currentPD = s.currentPD := rfl

theorem store_mem (s : Vm) (a : Nat) (v : BitVec 32) (w : Nat) :
    (s.store a v).pmm.mem w = if w = a / 4 then v else s.pmm.mem w := by
  by_cases h : w = a / 4
  · subst h
    simp [Vm.store]
  · rw [if_neg h]
    exact Function.update_of_ne h _ _

theorem clear_mem (s : Vm) {ptr num : Nat} (hal : ptr % 4 = 0) (hnum : num % 4 = 0)
    (hfit : ptr + num ≤ 0x100000000) (w : Nat) :
    (s.clear ptr num).pmm.mem w =
      if ptr / 4 ≤ w ∧ w < ptr / 4 + num / 4 then 0#32 else s.pmm.mem w := by
  change memset s.pmm.mem ptr 0#8 num w = _
  by_cases h : ptr / 4 ≤ w ∧ w < ptr / 4 + num / 4
  · rw [if_pos h, memset_zero_word _ _ _ _ hfit (by omega) (by omega)]
  · rw [if_neg h, memset_word_of_outside _ _ _ _ _ hfit (by omega)]

theorem fillEntries_mem {table : Nat} {idx : Nat → Nat} (value : Nat → BitVec 32) (n : Nat) (s : Vm)
    (hidx : ∀ i < n, idx i = i) (hn : n ≤ 1024) (hal : table % 4096 = 0) (hfit : table < 0x100000000)
    (w : Nat) : (fillEntries table idx value n s).pmm.mem w =
      if table / 4 ≤ w ∧ w < table / 4 + n then value (w - table / 4) else s.pmm.mem w := by
  induction n with
  | zero =>
    have hno : ¬(table / 4 ≤ w ∧ w < table / 4 + 0) := by omega
    rw [if_neg hno, fillEntries]
  | succ n ih =>
    rw [fillEntries, store_mem, hidx n (by omega), entryAddr_eq hal hfit (by omega),
      ih (fun i hi => hidx i (by omega)) (by omega)]
    have hdiv : (table + 4 * n) / 4 = table / 4 + n := by omega
    rw [hdiv]
    by_cases hw : w = table / 4 + n
    · have hin : table / 4 ≤ w ∧ w < table / 4 + (n + 1) := by omega
      have hsub : w - table / 4 = n := by omega
      rw [if_pos hw, if_pos hin, hsub]
    · rw [if_neg hw]
      by_cases hin : table / 4 ≤ w ∧ w < table / 4 + n
      · rw [if_pos hin, if_pos (by omega)]
      · rw [if_neg hin, if_neg (by omega)]

theorem handOut_fst (s : Vm) (num : Nat) (r : Nat × Pmm) : (s.handOut num r).1 = r.1 := rfl

theorem handOut_pmm (s : Vm) (num : Nat) (r : Nat × Pmm) : (s.handOut num r).2.pmm = r.2 := rfl

theorem handOut_currentPD (s : Vm) (num : Nat) (r : Nat × Pmm) :
    (s.handOut num r).2.currentPD = s.currentPD := rfl

theorem handOut_handed (s : Vm) (num : Nat) (r : Nat × Pmm) : (s.handOut num r).2.handed =
    if r.1 = 0 then s.handed else ⟨r.1, num⟩ :: s.handed := rfl

theorem allocate_fst (s : Vm) (num : Nat) :
    (s.allocate num).1 = (allocateBlocks s.pmm num).1 := handOut_fst s num _

theorem allocate_pmm (s : Vm) (num : Nat) :
    (s.allocate num).2.pmm = (allocateBlocks s.pmm num).2 := handOut_pmm s num _

theorem allocate_currentPD (s : Vm) (num : Nat) :
    (s.allocate num).2.currentPD = s.currentPD := handOut_currentPD s num _

theorem allocate_handed (s : Vm) (num : Nat) : (s.allocate num).2.handed =
    if (allocateBlocks s.pmm num).1 = 0 then s.handed
    else ⟨(allocateBlocks s.pmm num).1, num⟩ :: s.handed := handOut_handed s num _

theorem allocate_one {s : Vm} (hmax : s.pmm.maxBlocks ≤ 0x100000) :
    OneBlock s.pmm (s.allocate 1).1 (s.allocate 1).2.pmm := by
  rw [allocate_fst, allocate_pmm]
  exact allocateBlocks_one hmax

theorem load_store (s : Vm) (a b : Nat) (v : BitVec 32) :
    (s.store a v).load b = if b / 4 = a / 4 then v else s.load b := store_mem s a v (b / 4)

theorem inBitmap_congr {s t : Pmm} (hmax : t.maxBlocks = s.maxBlocks)
    (hmap : t.memoryMap = s.memoryMap) (w : Nat) : t.InBitmap w ↔ s.InBitmap w := by
  simp only [Pmm.InBitmap, Pmm.slot, hmax, hmap]

theorem checkBlock_store {s : Vm} {a : Nat} (v : BitVec 32) {b : Nat}
    (ha : ¬s.pmm.InBitmap (a / 4)) (hb : b < s.pmm.maxBlocks) :
    checkBlock (s.store a v).pmm b = checkBlock s.pmm b := by
  have hne : s.pmm.slot (b / 32 : Nat) ≠ a / 4 := fun heq => ha ⟨b / 32, by omega, heq.symm⟩
  refine checkBlock_congr (s := s.pmm) (t := (s.store a v).pmm) rfl ?_
  rw [store_mem, if_neg hne]

/-- What the stores of this module leave alone. -/
structure SameManager (s t : Vm) : Prop where
  maxBlocks : t.pmm.maxBlocks = s.pmm.maxBlocks
  memoryMap : t.pmm.memoryMap = s.pmm.memoryMap
  usedBlocks : t.pmm.usedBlocks = s.pmm.usedBlocks
  handed : t.handed = s.handed

theorem SameManager.trans {s t u : Vm} (h : SameManager s t) (h' : SameManager t u) :
    SameManager s u :=
  ⟨h'.maxBlocks.trans h.maxBlocks, h'.memoryMap.trans h.memoryMap,
    h'.usedBlocks.trans h.usedBlocks, h'.handed.trans h.handed⟩

theorem sameManager_store (s : Vm) (a : Nat) (v : BitVec 32) : SameManager s (s.store a v) :=
  ⟨rfl, rfl, rfl, rfl⟩

theorem sameManager_clear (s : Vm) (ptr num : Nat) : SameManager s (s.clear ptr num) :=
  ⟨rfl, rfl, rfl, rfl⟩

theorem sameManager_fillEntries (table : Nat) (idx : Nat → Nat) (value : Nat → BitVec 32) (n : Nat)
    (s : Vm) : SameManager s (fillEntries table idx value n s) := by
  induction n with
  | zero => exact ⟨rfl, rfl, rfl, rfl⟩
  | succ n ih => exact ih.trans (sameManager_store _ _ _)

theorem sameManager_linkTable (s : Vm) (pde table : Nat) : SameManager s (linkTable s pde table) :=
  sameManager_store s pde _

theorem sameManager_setPD (s : Vm) (pd : Nat) : SameManager s { s with currentPD := pd } :=
  ⟨rfl, rfl, rfl, rfl⟩

theorem setPD_pmm (s : Vm) (pd : Nat) : ({ s with currentPD := pd } : Vm).pmm = s.pmm := rfl

theorem setPD_load (s : Vm) (pd a : Nat) : ({ s with currentPD := pd } : Vm).load a = s.load a := rfl

theorem sameManager_initDirectory (s : Vm) (dir : Nat) : SameManager s (initDirectory s dir) :=
  (sameManager_clear s dir 4).trans (sameManager_fillEntries _ _ _ _ _)

theorem initDirectory_mem (s : Vm) {dir : Nat} (hal : dir % 4096 = 0) (hfit : dir < 0x100000000)
    (w : Nat) : (initDirectory s dir).pmm.mem w =
      if dir / 4 ≤ w ∧ w < dir / 4 + 1024 then 0x2#32 else s.pmm.mem w := by
  rw [initDirectory, fillEntries_mem _ _ _ (fun _ _ => rfl) le_rfl hal hfit,
    clear_mem _ (by omega) (by decide) (by omega)]
  by_cases h : dir / 4 ≤ w ∧ w < dir / 4 + 1024
  · rw [if_pos h, if_pos h]
  · rw [if_neg h, if_neg h, if_neg (by omega)]

def fillTables (s : Vm) (table table3G : Nat) : Vm :=
  fillEntries table (fun i => ptIndex (0xC0000000 + i * 4096))
    (fun i => mappedEntry (0x100000 + i * 4096)) 1024
    (fillEntries table3G (fun i => ptIndex (i * 4096)) (fun i => mappedEntry (i * 4096)) 1024
      ((s.clear table 4).clear table3G 4))

theorem initTables_eq (s : Vm) (dir table table3G : Nat) : initTables s dir table table3G =
    { linkTable (linkTable (fillTables s table table3G) (entryAddr dir (pdIndex 0xC0000000)) table)
        (entryAddr dir (pdIndex 0)) table3G with currentPD := dir } := by
  simp only [initTables, fillTables]

theorem sameManager_fillTables (s : Vm) (table table3G : Nat) :
    SameManager s (fillTables s table table3G) :=
  (((sameManager_clear s table 4).trans (sameManager_clear _ table3G 4)).trans
    (sameManager_fillEntries _ _ _ _ _)).trans (sameManager_fillEntries _ _ _ _ _)

theorem sameManager_initTables (s : Vm) (dir table table3G : Nat) :
    SameManager s (initTables s dir table table3G) := by
  rw [initTables_eq]
  exact (((sameManager_fillTables s table table3G).trans
    (sameManager_linkTable _ (entryAddr dir (pdIndex 0xC0000000)) table)).trans
    (sameManager_linkTable _ (entryAddr dir (pdIndex 0)) table3G)).trans (sameManager_setPD _ dir)

theorem fillTables_mem (s : Vm) {table table3G : Nat} (hal : table % 4096 = 0)
    (hfit : table < 0x100000000) (hal3 : table3G % 4096 = 0) (hfit3 : table3G < 0x100000000)
    (w : Nat) : (fillTables s table table3G).pmm.mem w =
      if table / 4 ≤ w ∧ w < table / 4 + 1024 then mappedEntry (0x100000 + (w - table / 4) * 4096)
      else if table3G / 4 ≤ w ∧ w < table3G / 4 + 1024 then mappedEntry ((w - table3G / 4) * 4096)
      else s.pmm.mem w := by
  have hidx : ∀ i < 1024, ptIndex (0xC0000000 + i * 4096) = i := by
    intro i hi
    rw [ptIndex_eq]
    omega
  have hidx3 : ∀ i < 1024, ptIndex (i * 4096) = i := by
    intro i hi
    rw [ptIndex_eq]
    omega
  rw [fillTables, fillEntries_mem _ _ _ hidx le_rfl hal hfit,
    fillEntries_mem _ _ _ hidx3 le_rfl hal3 hfit3, clear_mem _ (by omega) (by decide) (by omega),
    clear_mem _ (by omega) (by decide) (by omega)]
  by_cases h : table / 4 ≤ w ∧ w < table / 4 + 1024
  · rw [if_pos h, if_pos h]
  · rw [if_neg h, if_neg h]
    by_cases h3 : table3G / 4 ≤ w ∧ w < table3G / 4 + 1024
    · rw [if_pos h3, if_pos h3]
    · rw [if_neg h3, if_neg h3, if_neg (by omega), if_neg (by omega)]

def Aligned (a : Nat) : Prop := a % 4096 = 0 ∧ a < 0x100000000

theorem allocate_aligned {s : Vm} (num : Nat) (hmax : s.pmm.maxBlocks ≤ 0x100000) :
    Aligned (s.allocate num).1 := by
  rw [allocate_fst]
  exact allocateBlocks_aligned num hmax

/-- What the allocations and the two writing stages keep, `Page_Manager_Init` keeps. -/
theorem pageManagerInit_invariant {P : Vm → Prop}
    (hmax : ∀ s, P s → s.pmm.maxBlocks ≤ 0x100000)
    (halloc : ∀ s num, P s → P (s.allocate num).2)
    (hdir : ∀ s dir, Aligned dir → P s → P (initDirectory s dir))
    (htables : ∀ s dir table table3G, Aligned table → Aligned table3G → P s →
      P (initTables s dir table table3G)) {s : Vm} (hs : s.pmm.maxBlocks ≤ 0x100000)
    (h : P (s.allocate 3).2) : P (pageManagerInit s).2 := by
  have hstage3 : ∀ dir table table3G, Aligned table → Aligned table3G.1 → P table3G.2 →
      P (initFromTable3G dir table table3G).2 := by
    intro dir table table3G ha ha3 hp
    unfold initFromTable3G
    split
    · exact hp
    · exact htables _ _ _ _ ha ha3 hp
  have hstage2 : ∀ dir table, Aligned table.1 → P table.2 → P (initFromTable dir table).2 := by
    intro dir table ha hp
    unfold initFromTable
    split
    · exact hp
    · exact hstage3 _ _ _ ha (allocate_aligned 1 (hmax _ hp)) (halloc _ 1 hp)
  have hstage1 : ∀ dir, Aligned dir.1 → P dir.2 → P (initFromDir dir).2 := by
    intro dir ha hp
    unfold initFromDir
    split
    · exact hp
    · have hd := hdir _ _ ha hp
      exact hstage2 _ _ (allocate_aligned 1 (hmax _ hd)) (halloc _ 1 hd)
  exact hstage1 _ (allocate_aligned 3 hs) h

end SplongleOS
