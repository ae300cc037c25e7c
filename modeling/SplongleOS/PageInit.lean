import SplongleOS.PageFrames
set_option autoImplicit false

/-! What `Page_Manager_Init` sets up: three frames that differ, a directory with two
entries and two full tables. -/

namespace SplongleOS
open WordMemory Ownership

theorem after_allocate {s : Vm} (num : Nat) (h : s.Ready) : After s (s.allocate num).2 := by
  have hmax := h.max
  refine ⟨?_, ?_, fun b hb hused => ?_⟩
  · rw [allocate_pmm, allocateBlocks_maxBlocks num hmax]
  · rw [allocate_pmm, allocateBlocks_memoryMap num hmax]
  · rw [allocate_pmm]
    exact checkBlock_allocateBlocks_of_used num hmax (by omega) hused

theorem Vm.Ready.first {s : Vm} {num : Nat} (h : s.Ready) (hnum : num ≤ 0x100000)
    (ha : (s.allocate num).1 ≠ 0) : (s.allocate num).2.Held (s.allocate num).1 ∧
      checkBlock s.pmm ((s.allocate num).1 / 4096) = false := by
  have hkept := allocateBlocks_maxBlocks num h.max
  rw [allocate_fst] at ha ⊢
  have hal := allocateBlocks_aligned num h.max
  obtain ⟨_, hn, hfirst, hstate⟩ := allocateBlocks_address h.max ha
  have hlt := hfirst.1
  have hmax := h.max
  generalize (allocateBlocks s.pmm num).1 = a at *
  refine ⟨⟨hal, ?_, ?_, ?_⟩, hfirst.free⟩
  · rw [allocate_pmm, hkept]
    omega
  · rw [allocate_pmm, hstate, checkBlock_takeBlocks _ (by omega) (by omega)]
    exact Or.inl ⟨le_rfl, by omega⟩
  · rw [allocate_pmm, hkept]
    intro hbit
    exact Bool.noConfusion ((h.bitmapUsed _ (by omega) hbit).symm.trans hfirst.free)

theorem linkTable_load (s : Vm) {d t i j : Nat} (b : Nat) (hd : Aligned d) (ht : Aligned t)
    (hi : i < 1024) (hj : j < 1024) : (linkTable s (entryAddr d i) b).load (entryAddr t j) =
      if t = d ∧ j = i then
        setFrame (setAttr (s.load (entryAddr d i)) (present ||| readWrite)) b
      else s.load (entryAddr t j) := load_entry_store s _ hd ht hi hj

theorem fillTables_load (s : Vm) {b c t j : Nat} (hb : Aligned b) (hc : Aligned c) (ht : Aligned t)
    (hj : j < 1024) : (fillTables s b c).load (entryAddr t j) =
      if t = b then mappedEntry (0x100000 + j * 4096)
      else if t = c then mappedEntry (j * 4096)
      else s.load (entryAddr t j) := by
  obtain ⟨halb, hltb⟩ := hb
  obtain ⟨halc, hltc⟩ := hc
  obtain ⟨hal, hlt⟩ := ht
  rw [Vm.load, fillTables_mem s halb hltb halc hltc, entryAddr_eq hal hlt hj]
  by_cases htb : t = b
  · rw [if_pos (by omega), if_pos htb, show (t + 4 * j) / 4 - b / 4 = j by omega]
  · rw [if_neg (by omega), if_neg htb]
    by_cases htc : t = c
    · rw [if_pos (by omega), if_pos htc, show (t + 4 * j) / 4 - c / 4 = j by omega]
    · rw [if_neg (by omega), if_neg htc, Vm.load]

theorem initTables_load (s : Vm) {a b c t j : Nat} (ha : Aligned a) (hb : Aligned b)
    (hc : Aligned c) (ht : Aligned t) (hj : j < 1024) (hab : a ≠ b) (hac : a ≠ c) :
    (initTables s a b c).load (entryAddr t j) =
      if t = a ∧ j = 0 then
        setFrame (setAttr (s.load (entryAddr a 0)) (present ||| readWrite)) c
      else if t = a ∧ j = 768 then
        setFrame (setAttr (s.load (entryAddr a 768)) (present ||| readWrite)) b
      else if t = b then mappedEntry (0x100000 + j * 4096)
      else if t = c then mappedEntry (j * 4096)
      else s.load (entryAddr t j) := by
  have h768 : pdIndex 0xC0000000 = 768 := by decide
  have h0 : pdIndex 0 = 0 := by decide
  rw [initTables_eq, h768, h0, setPD_load, linkTable_load _ c ha ht (by decide) hj,
    linkTable_load _ b ha ht (by decide) hj, linkTable_load _ b ha ha (by decide) (by decide),
    fillTables_load s hb hc ht hj, fillTables_load s hb hc ha (by decide),
    fillTables_load s hb hc ha (by decide), if_neg hab, if_neg hac, if_neg hab, if_neg hac,
    if_neg (show ¬(a = a ∧ 0 = 768) by omega)]

theorem initTables_mem_of_outside (s : Vm) {a b c w : Nat} (ha : Aligned a) (hb : Aligned b)
    (hc : Aligned c) (hwa : ¬(a / 4 ≤ w ∧ w < a / 4 + 1024)) (hwb : ¬(b / 4 ≤ w ∧ w < b / 4 + 1024))
    (hwc : ¬(c / 4 ≤ w ∧ w < c / 4 + 1024)) : (initTables s a b c).pmm.mem w = s.pmm.mem w := by
  obtain ⟨hal, hlt⟩ := ha
  have hentry : ∀ k < 1024, w ≠ entryAddr a k / 4 := by
    intro k hk
    rw [entryAddr_eq hal hlt hk]
    omega
  rw [initTables_eq, setPD_pmm, linkTable, store_mem, if_neg (hentry _ (pdIndex_lt _)), linkTable,
    store_mem, if_neg (hentry _ (pdIndex_lt _)), fillTables_mem s hb.1 hb.2 hc.1 hc.2, if_neg hwb,
    if_neg hwc]

/-- The frames `Page_Manager_Init` has when it starts on the tables, and the entries it
has written to the directory. -/
structure BootFrames (s : Vm) (dir table table3G : Nat) : Prop where
  ready : s.Ready
  dirHeld : s.Held dir
  tableHeld : s.Held table
  table3GHeld : s.Held table3G
  dir_ne_table : dir ≠ table
  dir_ne_table3G : dir ≠ table3G
  table_ne_table3G : table ≠ table3G
  blank : ∀ i < 1024, s.load (entryAddr dir i) = 0x2#32

structure BootEntries (s : Vm) (dir table table3G : Nat) : Prop where
  dirAligned : Aligned dir
  tableAligned : Aligned table
  table3GAligned : Aligned table3G
  dir_ne_table : dir ≠ table
  dir_ne_table3G : dir ≠ table3G
  table_ne_table3G : table ≠ table3G
  blank : ∀ i < 1024, s.load (entryAddr dir i) = 0x2#32

variable {s : Vm} {a b c : Nat}

theorem BootFrames.entries (h : BootFrames s a b c) : BootEntries s a b c :=
  ⟨h.dirHeld.aligned, h.tableHeld.aligned, h.table3GHeld.aligned, h.dir_ne_table,
    h.dir_ne_table3G, h.table_ne_table3G, h.blank⟩

theorem BootEntries.load (h : BootEntries s a b c) {t j : Nat} (ht : Aligned t) (hj : j < 1024) :
    (initTables s a b c).load (entryAddr t j) =
      if t = a ∧ j = 0 then setFrame (setAttr 0x2#32 (present ||| readWrite)) c
      else if t = a ∧ j = 768 then setFrame (setAttr 0x2#32 (present ||| readWrite)) b
      else if t = b then mappedEntry (0x100000 + j * 4096)
      else if t = c then mappedEntry (j * 4096)
      else s.load (entryAddr t j) := by
  rw [initTables_load s h.dirAligned h.tableAligned h.table3GAligned ht hj
    h.dir_ne_table h.dir_ne_table3G, h.blank 0 (by decide), h.blank 768 (by decide)]

theorem BootEntries.currentPD (_ : BootEntries s a b c) : (initTables s a b c).currentPD = a := by
  rw [initTables_eq]

theorem BootEntries.pde (h : BootEntries s a b c) {k : Nat} (hk : k < 1024) :
    (initTables s a b c).pde k =
      if k = 0 then setFrame (setAttr 0x2#32 (present ||| readWrite)) c
      else if k = 768 then setFrame (setAttr 0x2#32 (present ||| readWrite)) b
      else 0x2#32 := by
  rw [Vm.pde, h.currentPD, h.load h.dirAligned hk, if_neg h.dir_ne_table,
    if_neg h.dir_ne_table3G, h.blank k hk]
  simp only [true_and]

theorem BootEntries.pte_zero (h : BootEntries s a b c) {j : Nat} (hj : j < 1024) :
    (initTables s a b c).pte 0 j = mappedEntry (j * 4096) := by
  have hc := h.table3GAligned
  rw [Vm.pte, h.pde (by decide), if_pos rfl, pagePhysAddr_setFrame _ hc.1 hc.2, h.load hc hj,
    if_neg fun hin => h.dir_ne_table3G hin.1.symm, if_neg fun hin => h.dir_ne_table3G hin.1.symm,
    if_neg h.table_ne_table3G.symm, if_pos rfl]

theorem BootEntries.pte_3G (h : BootEntries s a b c) {j : Nat} (hj : j < 1024) :
    (initTables s a b c).pte 768 j = mappedEntry (0x100000 + j * 4096) := by
  have hb := h.tableAligned
  rw [Vm.pte, h.pde (by decide), if_neg (by decide), if_pos rfl, pagePhysAddr_setFrame _ hb.1 hb.2,
    h.load hb hj, if_neg fun hin => h.dir_ne_table hin.1.symm,
    if_neg fun hin => h.dir_ne_table hin.1.symm, if_pos rfl]

theorem BootEntries.pde_isPresent (h : BootEntries s a b c) {k : Nat} (hk : k < 1024)
    (hp : IsPresent ((initTables s a b c).pde k)) :
    (k = 0 ∧ pagePhysAddr ((initTables s a b c).pde k) = c) ∨
      (k = 768 ∧ pagePhysAddr ((initTables s a b c).pde k) = b) := by
  have hnone : ¬IsPresent 0x2#32 := by decide
  have hb := h.tableAligned
  have hc := h.table3GAligned
  rw [h.pde hk] at hp ⊢
  by_cases h0 : k = 0
  · rw [if_pos h0, pagePhysAddr_setFrame _ hc.1 hc.2]
    exact Or.inl ⟨h0, rfl⟩
  · rw [if_neg h0] at hp ⊢
    by_cases h768 : k = 768
    · rw [if_pos h768, pagePhysAddr_setFrame _ hb.1 hb.2]
      exact Or.inr ⟨h768, rfl⟩
    · rw [if_neg h768] at hp
      exact absurd hp hnone

theorem BootFrames.holds (h : BootFrames s a b c) {x : Slot} {f : Nat}
    (hx : (initTables s a b c).Holds x f) :
    (x = .directory ∧ f = a) ∨ (x = .table 0 ∧ f = c) ∨ (x = .table 768 ∧ f = b) := by
  cases x with
  | directory => exact Or.inl ⟨rfl, hx.trans h.entries.currentPD⟩
  | table k =>
    obtain ⟨hk, hp, hf⟩ := hx
    rcases h.entries.pde_isPresent hk hp with ⟨rfl, hc⟩ | ⟨rfl, hb⟩
    · exact Or.inr (Or.inl ⟨rfl, hf.trans hc⟩)
    · exact Or.inr (Or.inr ⟨rfl, hf.trans hb⟩)
  | page k j =>
    -- every entry of the two tables is as it was written
    obtain ⟨hk, hj, hp, _, hboot, _⟩ := hx
    rcases h.entries.pde_isPresent hk hp with ⟨rfl, _⟩ | ⟨rfl, _⟩
    · exact absurd (Or.inl ⟨rfl, h.entries.pte_zero hj⟩) hboot
    · exact absurd (Or.inr ⟨rfl, h.entries.pte_3G hj⟩) hboot

theorem BootFrames.words (h : BootFrames s a b c) {w : Nat} (hw : s.pmm.InBitmap w) :
    (initTables s a b c).pmm.mem w = s.pmm.mem w :=
  initTables_mem_of_outside s h.dirHeld.aligned h.tableHeld.aligned h.table3GHeld.aligned
    (frame_word_outside h.ready h.dirHeld hw) (frame_word_outside h.ready h.tableHeld hw)
    (frame_word_outside h.ready h.table3GHeld hw)

theorem BootFrames.paged (h : BootFrames s a b c) : (initTables s a b c).Paged := by
  have hafter : After s (initTables s a b c) :=
    after_write (sameManager_initTables s a b c) fun _ hw => h.words hw
  have hab := h.dir_ne_table
  have hac := h.dir_ne_table3G
  have hbc := h.table_ne_table3G
  refine ⟨h.ready.after hafter, ⟨fun x f hx => ?_, fun x y f hx hy => ?_⟩⟩
  · rcases h.holds hx with ⟨_, rfl⟩ | ⟨_, rfl⟩ | ⟨_, rfl⟩
    · exact h.dirHeld.after hafter
    · exact h.table3GHeld.after hafter
    · exact h.tableHeld.after hafter
  · rcases h.holds hx with ⟨rfl, hf⟩ | ⟨rfl, hf⟩ | ⟨rfl, hf⟩ <;>
      rcases h.holds hy with ⟨rfl, hf'⟩ | ⟨rfl, hf'⟩ | ⟨rfl, hf'⟩ <;>
      first | rfl | omega

theorem isPresent_mappedEntry {f : Nat} (hf : Aligned f) : IsPresent (mappedEntry f) :=
  (isPresent_iff _).mpr (getLsbD_mappedEntry hf.1 hf.2 (by decide))

theorem pagePhysAddr_mappedEntry {f : Nat} (hf : Aligned f) : pagePhysAddr (mappedEntry f) = f :=
  pagePhysAddr_setFrame _ hf.1 hf.2

/-- The first 4 MB are mapped to themselves, those at 3 GB to the kernel. -/
structure BootMaps (s : Vm) : Prop where
  low : ∀ v < 0x400000, s.walk v = some (v / 4096 * 4096)
  high : ∀ v < 0x400000, s.walk (0xC0000000 + v) = some (0x100000 + v / 4096 * 4096)

theorem BootEntries.maps (h : BootEntries s a b c) : BootMaps (initTables s a b c) := by
  have hb := h.tableAligned
  have hc := h.table3GAligned
  constructor
  · intro v hv
    have hi : pdIndex v = 0 := by rw [pdIndex_eq]; omega
    have hj : ptIndex v = v / 4096 := by rw [ptIndex_eq]; omega
    have hf : Aligned (v / 4096 * 4096) := ⟨by omega, by omega⟩
    rw [walk_eq, hi, hj, h.pde (by decide), if_pos rfl, if_pos (linked_isPresent _ hc),
      h.pte_zero (by omega), if_pos (isPresent_mappedEntry hf), pagePhysAddr_mappedEntry hf]
  · intro v hv
    have hi : pdIndex (0xC0000000 + v) = 768 := by rw [pdIndex_eq]; omega
    have hj : ptIndex (0xC0000000 + v) = v / 4096 := by rw [ptIndex_eq]; omega
    have hf : Aligned (0x100000 + v / 4096 * 4096) := ⟨by omega, by omega⟩
    rw [walk_eq, hi, hj, h.pde (by decide), if_neg (show ¬768 = 0 by decide), if_pos rfl,
      if_pos (linked_isPresent _ hb), h.pte_3G (by omega), if_pos (isPresent_mappedEntry hf),
      pagePhysAddr_mappedEntry hf]

theorem Vm.Ready.load_allocate {s : Vm} {d i : Nat} (h : s.Ready) (hd : s.Held d) (hi : i < 1024) :
    (s.allocate 1).2.load (entryAddr d i) = s.load (entryAddr d i) := by
  have hone := allocateBlocks_one h.max
  rw [Vm.load, allocate_pmm]
  exact hone.mem _ (entry_outside h.map h.max hd hi)

theorem ne_of_checkBlock {s : Vm} {f g : Nat} (hf : checkBlock s.pmm (f / 4096) = true)
    (hg : checkBlock s.pmm (g / 4096) = false) : f ≠ g := by
  rintro rfl
  exact Bool.noConfusion (hf.symm.trans hg)

theorem initFromTable3G_inv {s' : Vm} {dir table : Nat} {r : Nat × Vm} (hdz : dir ≠ 0)
    (htz : table ≠ 0) (hok : initFromTable3G dir table r = (true, s'))
    (h : r.1 ≠ 0 → BootFrames r.2 dir table r.1) :
    ∃ t a b c, BootFrames t a b c ∧ (a ≠ 0 ∧ b ≠ 0 ∧ c ≠ 0) ∧ s' = initTables t a b c := by
  unfold initFromTable3G at hok
  by_cases hz : r.1 = 0
  · rw [if_pos hz] at hok
    exact Bool.noConfusion (congrArg Prod.fst hok)
  · rw [if_neg hz] at hok
    obtain ⟨_, rfl⟩ := Prod.mk.inj hok
    exact ⟨_, _, _, _, h hz, ⟨hdz, htz, hz⟩, rfl⟩

theorem initFromTable_inv {s' : Vm} {dir : Nat} {r : Nat × Vm} (hdz : dir ≠ 0)
    (hok : initFromTable dir r = (true, s')) (h : r.2.Ready) (ha : r.2.Held dir)
    (hb : r.1 ≠ 0 → r.2.Held r.1 ∧ dir ≠ r.1)
    (hdir : ∀ i < 1024, r.2.load (entryAddr dir i) = 0x2#32) :
    ∃ t a b c, BootFrames t a b c ∧ (a ≠ 0 ∧ b ≠ 0 ∧ c ≠ 0) ∧ s' = initTables t a b c := by
  unfold initFromTable at hok
  by_cases hz : r.1 = 0
  · rw [if_pos hz] at hok
    exact Bool.noConfusion (congrArg Prod.fst hok)
  · rw [if_neg hz] at hok
    obtain ⟨hheld, hne⟩ := hb hz
    have hafter := after_allocate 1 h
    refine initFromTable3G_inv hdz hz hok fun hnz => ?_
    obtain ⟨hnew, hfree⟩ := h.first (by decide) hnz
    exact ⟨h.after hafter, ha.after hafter, hheld.after hafter, hnew, hne,
      ne_of_checkBlock ha.used hfree, ne_of_checkBlock hheld.used hfree,
      fun i hi => (h.load_allocate ha hi).trans (hdir i hi)⟩

theorem initFromDir_inv {s' : Vm} {r : Nat × Vm} (hok : initFromDir r = (true, s'))
    (h : r.2.Ready) (ha : r.1 ≠ 0 → r.2.Held r.1) :
    ∃ t a b c, BootFrames t a b c ∧ (a ≠ 0 ∧ b ≠ 0 ∧ c ≠ 0) ∧ s' = initTables t a b c := by
  unfold initFromDir at hok
  by_cases hz : r.1 = 0
  · rw [if_pos hz] at hok
    exact Bool.noConfusion (congrArg Prod.fst hok)
  · rw [if_neg hz] at hok
    obtain ⟨dir, s⟩ := r
    have hheld := ha hz
    obtain ⟨hal, hlt⟩ := hheld.aligned
    have hwritten : After s (initDirectory s dir) := by
      refine after_write (sameManager_initDirectory s dir) fun w hw => ?_
      rw [initDirectory_mem s hal hlt, if_neg (frame_word_outside h hheld hw)]
    have hready := h.after hwritten
    have hdir := hheld.after hwritten
    have hafter := after_allocate 1 hready
    refine initFromTable_inv hz hok (hready.after hafter) (hdir.after hafter) (fun hnz => ?_)
      fun i hi => ?_
    · obtain ⟨hnew, hfree⟩ := hready.first (by decide) hnz
      exact ⟨hnew, ne_of_checkBlock hdir.used hfree⟩
    · rw [hready.load_allocate hdir hi, Vm.load, initDirectory_mem s hal hlt,
        entryAddr_eq hal hlt hi, if_pos (by dsimp only; omega)]

/-- A successful `Page_Manager_Init` ends with the tables written over three frames that
differ. -/
theorem pageManagerInit_inv {s s' : Vm} (h : s.Ready) (hok : pageManagerInit s = (true, s')) :
    ∃ t a b c, BootFrames t a b c ∧ (a ≠ 0 ∧ b ≠ 0 ∧ c ≠ 0) ∧ s' = initTables t a b c :=
  initFromDir_inv hok (h.after (after_allocate 3 h)) fun ha => (h.first (by decide) ha).1

theorem pageManagerInit_maps {s s' : Vm} (h : s.Ready) (hok : pageManagerInit s = (true, s')) :
    BootMaps s' := by
  obtain ⟨_, _, _, _, hframes, _, rfl⟩ := pageManagerInit_inv h hok
  exact hframes.entries.maps

end SplongleOS
