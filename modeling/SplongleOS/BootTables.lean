import SplongleOS.PageAddressing
set_option autoImplicit false

/-! The map `Page_Manager_Init` installs, for every address of 32 bits. -/

namespace SplongleOS

def bootDir (s : Vm) : Nat × Vm := s.allocate 3

def bootTable (s : Vm) : Nat × Vm := (initDirectory (bootDir s).2 (bootDir s).1).allocate 1

def bootTable3G (s : Vm) : Nat × Vm := (bootTable s).2.allocate 1

theorem pageManagerInit_eq (s : Vm) : pageManagerInit s =
    if (bootDir s).1 = 0 then (false, (bootDir s).2)
    else if (bootTable s).1 = 0 then (false, (bootTable s).2)
    else if (bootTable3G s).1 = 0 then (false, (bootTable3G s).2)
    else (true, initTables (bootTable3G s).2 (bootDir s).1 (bootTable s).1 (bootTable3G s).1) := by
  rw [pageManagerInit, initFromDir, initFromTable, initFromTable3G]
  rfl

def OffStorage (s : Pmm) (a : Nat) : Prop := ∀ w, s.InBitmap w → w / 1024 ≠ a / 4096

theorem OffStorage.entry {s : Vm} {a i : Nat} (h : OffStorage s.pmm a) (ha : Aligned a)
    (hi : i < 1024) : ¬s.pmm.InBitmap (entryAddr a i / 4) := by
  intro hw
  obtain ⟨hal, hlt⟩ := ha
  rw [entryAddr_eq hal hlt hi] at hw
  exact h _ hw (by omega)

theorem OffStorage.congr {s t : Pmm} {a : Nat} (h : OffStorage s a)
    (hmax : t.maxBlocks = s.maxBlocks) (hmap : t.memoryMap = s.memoryMap) : OffStorage t a :=
  fun w hw => h w ((inBitmap_congr hmax hmap w).mp hw)

theorem bootDir_spec {s : Vm} (hmax : s.pmm.maxBlocks ≤ 0x100000) (hd : (bootDir s).1 ≠ 0) :
    Aligned (bootDir s).1 ∧ (bootDir s).1 / 4096 < s.pmm.maxBlocks ∧
      checkBlock (bootDir s).2.pmm ((bootDir s).1 / 4096) = true ∧
      (bootDir s).2.pmm.maxBlocks = s.pmm.maxBlocks ∧
      (bootDir s).2.pmm.memoryMap = s.pmm.memoryMap := by
  have hal := allocateBlocks_aligned 3 hmax
  rw [bootDir, allocate_fst] at hd ⊢
  rw [allocate_pmm]
  obtain ⟨_, _, hfirst, hstate⟩ := allocateBlocks_address hmax hd
  have hlt := hfirst.1
  refine ⟨hal, by omega, ?_, allocateBlocks_maxBlocks 3 hmax, allocateBlocks_memoryMap 3 hmax⟩
  rw [hstate, checkBlock_takeBlocks _ (by omega) (by omega)]
  exact Or.inl ⟨le_rfl, by omega⟩

structure DirKept (s : Vm) (a : Nat) : Prop where
  max : s.pmm.maxBlocks ≤ 0x100000
  aligned : Aligned a
  used : checkBlock s.pmm (a / 4096) = true
  off : OffStorage s.pmm a
  blank : ∀ i < 1024, s.load (entryAddr a i) = 0x2#32

theorem DirKept.allocate {s : Vm} {a : Nat} (h : DirKept s a) : DirKept (s.allocate 1).2 a := by
  have hone := allocate_one h.max
  have hlt := h.aligned.2
  refine ⟨hone.maxBlocks ▸ h.max, h.aligned, hone.keep _ (by omega) h.used,
    h.off.congr hone.maxBlocks hone.memoryMap, fun i hi => ?_⟩
  rw [Vm.load, hone.mem _ (h.off.entry h.aligned hi)]
  exact h.blank i hi

theorem dirKept_initDirectory {s : Vm} (hmax : s.pmm.maxBlocks ≤ 0x100000)
    (hd : (bootDir s).1 ≠ 0) (hoff : OffStorage s.pmm (bootDir s).1) :
    DirKept (initDirectory (bootDir s).2 (bootDir s).1) (bootDir s).1 := by
  obtain ⟨hal, hlt, hused, hkept, hmap⟩ := bootDir_spec hmax hd
  generalize (bootDir s).1 = a at *
  generalize (bootDir s).2 = t at *
  have hsame := sameManager_initDirectory t a
  have hmem := initDirectory_mem t hal.1 hal.2
  have hofft := hoff.congr hkept hmap
  refine ⟨by rw [hsame.maxBlocks, hkept]; exact hmax, hal, ?_,
    hofft.congr hsame.maxBlocks hsame.memoryMap, fun i hi => ?_⟩
  · have hword := hofft _ ⟨a / 4096 / 32, by omega, rfl⟩
    rw [← hused]
    refine checkBlock_congr hsame.memoryMap ?_
    rw [hmem, if_neg]
    have := hal.1
    omega
  · have hal' := hal.1
    rw [Vm.load, hmem, entryAddr_eq hal.1 hal.2 hi, if_pos (by omega)]

theorem pageManagerInit_entries {s s' : Vm} (hmax : s.pmm.maxBlocks ≤ 0x100000)
    (hoff : OffStorage s.pmm (bootDir s).1) (hok : pageManagerInit s = (true, s')) :
    ∃ t a b c, BootEntries t a b c ∧ s' = initTables t a b c := by
  rw [pageManagerInit_eq] at hok
  split_ifs at hok with hd ht hg
  · exact Bool.noConfusion (congrArg Prod.fst hok)
  · exact Bool.noConfusion (congrArg Prod.fst hok)
  · exact Bool.noConfusion (congrArg Prod.fst hok)
  · have hdir := dirKept_initDirectory hmax hd hoff
    have htab := allocate_one hdir.max
    have htab3G := allocate_one hdir.allocate.max
    rw [bootTable] at ht
    rw [bootTable3G, bootTable] at hg
    refine ⟨_, _, _, _, ⟨hdir.aligned, allocate_aligned 1 hdir.max,
      allocate_aligned 1 hdir.allocate.max, ?_, ?_, ?_, hdir.allocate.allocate.blank⟩,
      (congrArg Prod.snd hok).symm⟩
    · exact ne_of_checkBlock hdir.used (htab.free ht)
    · exact ne_of_checkBlock hdir.allocate.used (htab3G.free hg)
    · exact ne_of_checkBlock (htab.taken ht) (htab3G.free hg)

theorem BootEntries.translate {s : Vm} {a b c : Nat} (h : BootEntries s a b c) {v : Nat}
    (hv : v < 0x100000000) : (initTables s a b c).translate v =
      if v < 0x400000 then some v
      else if 0xC0000000 ≤ v ∧ v < 0xC0400000 then some (v - 0xC0000000 + 0x100000)
      else none := by
  have hmaps := h.maps
  rw [Vm.translate]
  by_cases hlow : v < 0x400000
  · have hsum : v / 4096 * 4096 + v % 4096 = v := by omega
    rw [if_pos hlow, hmaps.low v hlow, Option.map_some, hsum]
  · rw [if_neg hlow]
    by_cases hhigh : 0xC0000000 ≤ v ∧ v < 0xC0400000
    · have hwalk := hmaps.high (v - 0xC0000000) (by omega)
      rw [show 0xC0000000 + (v - 0xC0000000) = v by omega] at hwalk
      have hsum : 0x100000 + (v - 0xC0000000) / 4096 * 4096 + v % 4096 = v - 0xC0000000 + 0x100000 := by
        omega
      rw [if_pos hhigh, hwalk, Option.map_some, hsum]
    · rw [if_neg hhigh, walk_eq, if_neg, Option.map_none]
      intro hp
      have hindex := pdIndex_eq v
      rcases h.pde_isPresent (pdIndex_lt v) hp with ⟨h0, _⟩ | ⟨h768, _⟩
      · omega
      · omega

/-- Of the frames handed out only that of the directory has to be off the bitmap; what
was in them before does not matter. -/
theorem boot_tables_mean {s s' : Vm} (hmax : s.pmm.maxBlocks ≤ 0x100000)
    (hoff : OffStorage s.pmm (bootDir s).1) (hok : pageManagerInit s = (true, s')) (v : BitVec 32) :
    s'.translate v.toNat =
      if v.toNat < 0x400000 then some v.toNat
      else if 0xC0000000 ≤ v.toNat ∧ v.toNat < 0xC0400000 then
        some (v.toNat - 0xC0000000 + 0x100000)
      else none := by
  obtain ⟨_, _, _, _, hentries, rfl⟩ := pageManagerInit_entries hmax hoff hok
  exact hentries.translate v.isLt

theorem offStorage_small : OffStorage smallMachine.pmm (bootDir smallMachine).1 := by
  have hdir : (bootDir smallMachine).1 = 1 * 4096 := by
    have hfirst := smallMap_smallMachine.allocate (by decide) (show 0 < 3 by decide)
      (by decide) (by decide) (by decide)
    rw [bootDir, allocate_fst]
    exact hfirst.1
  have hmax : smallMachine.pmm.maxBlocks = 64 := rfl
  have hmap : smallMachine.pmm.memoryMap = 0x30000 := rfl
  rintro w ⟨k, hk, rfl⟩
  rw [hdir, Pmm.slot, hmap]
  rw [hmax] at hk
  omega

theorem boot_tables_mean_small : ∃ s', pageManagerInit smallMachine = (true, s') ∧
    s'.translate (0xC0001234#32).toNat =
      if (0xC0001234#32).toNat < 0x400000 then some (0xC0001234#32).toNat
      else if 0xC0000000 ≤ (0xC0001234#32).toNat ∧ (0xC0001234#32).toNat < 0xC0400000 then
        some ((0xC0001234#32).toNat - 0xC0000000 + 0x100000)
      else none := by
  obtain ⟨s', hinit, _⟩ := pageManagerInit_small
  exact ⟨s', hinit, boot_tables_mean (by decide) offStorage_small hinit 0xC0001234#32⟩

end SplongleOS
