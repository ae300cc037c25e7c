import SplongleOS.BootTables
set_option autoImplicit false

/-! What `Page_Manager_Init` and `map_page` leave behind when they return false: the
blocks of the requests that went through before the one that failed. -/

namespace SplongleOS

/-- Memory, with the bitmap and every table in it, the statics of the manager and the
current directory. The ghosts may differ. -/
structure Untouched (s t : Vm) : Prop where
  mem : t.pmm.mem = s.pmm.mem
  memoryMap : t.pmm.memoryMap = s.pmm.memoryMap
  maxBlocks : t.pmm.maxBlocks = s.pmm.maxBlocks
  usedBlocks : t.pmm.usedBlocks = s.pmm.usedBlocks
  currentPD : t.currentPD = s.currentPD

/-- The count allows the request, and the search settles on block `b`. -/
def Grants (s : Pmm) (num b : Nat) : Prop := num ≤ freeCount s ∧ 0 < num ∧ FirstCandidate s num b

def Refuses (s : Pmm) (num : Nat) : Prop := ∀ b, ¬Grants s num b

def Vm.taking (s : Vm) (num b : Nat) : Vm := (s.handOut num (b * 4096, takeBlocks s.pmm num b)).2

theorem Grants.unique {s : Pmm} {num b c : Nat} (hb : Grants s num b) (hc : Grants s num c) :
    b = c := hb.2.2.unique hc.2.2

inductive Requested (s : Vm) (num : Nat) : Nat × Vm → Prop where
  | refused {t : Vm} : Refuses s.pmm num → Untouched s t → Requested s num (0, t)
  | granted {b : Nat} : Grants s.pmm num b → Requested s num (b * 4096, s.taking num b)

theorem requested {s : Vm} (num : Nat) (hmax : s.pmm.maxBlocks ≤ 0x100000) :
    Requested s num (s.allocate num) := by
  have hall := allocateBlocks_cases s.pmm num hmax
  rw [Vm.allocate]
  generalize allocateBlocks s.pmm num = r at hall
  cases hall with
  | refused h =>
    refine .refused (fun b hb => ?_) ⟨rfl, rfl, rfl, rfl, rfl⟩
    obtain ⟨hcount, hn, _⟩ := hb
    omega
  | notFound _ hno =>
    refine .refused (fun b hb => ?_) ⟨rfl, rfl, rfl, rfl, rfl⟩
    obtain ⟨_, _, hlt, hcand, _⟩ := hb
    exact Bool.noConfusion (hcand.symm.trans (hno b hlt))
  | taken hcount hn hb =>
    have hlt := hb.1
    rw [Nat.mod_eq_of_lt (by omega)]
    exact .granted ⟨hcount, hn, hb⟩

theorem taking_maxBlocks (s : Vm) (num b : Nat) :
    (s.taking num b).pmm.maxBlocks = s.pmm.maxBlocks := takeBlocks_maxBlocks s.pmm num b

theorem taking_usedBlocks (s : Vm) (num b : Nat) :
    (s.taking num b).pmm.usedBlocks = (s.pmm.usedBlocks + num) % 0x100000000 := rfl

/-- What follows a request when `n` blocks have been counted since `s`. Once some have, it
has to be granted: they are never given back. A grant at block 0 is taken for a failure. -/
theorem request_untouched_iff {s t : Vm} {num n : Nat} {P : Nat → Prop}
    (rest : Nat × Vm → Bool × Vm) (hmax : t.pmm.maxBlocks ≤ 0x100000)
    (hcount : ∀ k, (t.pmm.usedBlocks + k) % 0x100000000 =
      (s.pmm.usedBlocks + (n + k)) % 0x100000000)
    (hpos : 0 < num) (hsmall : n + num < 0x100000000) (hfirst : n = 0 → t = s)
    (hfail : ∀ u, rest (0, u) = (false, u))
    (hgo : ∀ c, c ≠ 0 → (((rest (c * 4096, t.taking num c)).1 = false →
      Untouched s (rest (c * 4096, t.taking num c)).2) ↔ P c)) :
    ((rest (t.allocate num)).1 = false → Untouched s (rest (t.allocate num)).2) ↔
      (n = 0 ∧ Refuses t.pmm num) ∨ ∃ c, c ≠ 0 ∧ Grants t.pmm num c ∧ P c := by
  have hreq := requested num hmax
  generalize t.allocate num = r at hreq
  cases hreq with
  | @refused u hno hsame =>
    rw [hfail]
    by_cases hn : n = 0
    · rw [hfirst hn] at hno hsame ⊢
      exact iff_of_true (fun _ => hsame) (Or.inl ⟨hn, hno⟩)
    · refine iff_of_false (fun h => ?_) ?_
      · have hused : u.pmm.usedBlocks = s.pmm.usedBlocks := (h rfl).usedBlocks
        have hcounted := hcount 0
        rw [← hsame.usedBlocks, hused] at hcounted
        omega
      · rintro (⟨hn', _⟩ | ⟨c, _, hc, _⟩)
        · exact hn hn'
        · exact hno c hc
  | @granted b hb =>
    have hsome : ¬(n = 0 ∧ Refuses t.pmm num) := fun h => h.2 b hb
    rw [or_iff_right hsome]
    by_cases hz : b = 0
    · subst hz
      rw [Nat.zero_mul, hfail]
      refine iff_of_false (fun h => ?_) ?_
      · have hused : (t.taking num 0).pmm.usedBlocks = s.pmm.usedBlocks := (h rfl).usedBlocks
        rw [taking_usedBlocks, hcount] at hused
        omega
      · rintro ⟨c, hne, hc, _⟩
        exact hne (hc.unique hb)
    · rw [hgo b hz]
      constructor
      · exact fun h => ⟨b, hz, hb, h⟩
      · rintro ⟨c, _, hc, h⟩
        exact hc.unique hb ▸ h

theorem mapPage_untouched_iff {s : Vm} (hmax : s.pmm.maxBlocks ≤ 0x100000) (phys virt : Nat) :
    ((mapPage s phys virt).1 = false → Untouched s (mapPage s phys virt).2) ↔
      IsPresent (s.pde (pdIndex virt)) ∨ ¬Grants s.pmm 1 0 := by
  by_cases hp : IsPresent (s.pde (pdIndex virt))
  · rw [mapPage_present hp]
    exact iff_of_true (fun h => Bool.noConfusion h) (Or.inl hp)
  · rw [mapPage_absent hp, or_iff_right hp,
      request_untouched_iff (n := 0) (P := fun _ => True)
        (mapTable (entryAddr s.currentPD (pdIndex virt)) phys virt) hmax
        (fun k => by rw [Nat.zero_add]) Nat.one_pos (by decide) (fun _ => rfl)
        (fun u => if_pos rfl)]
    · constructor
      · rintro (⟨_, hno⟩ | ⟨c, hc, hgrant, _⟩) h0
        · exact hno 0 h0
        · exact hc (hgrant.unique h0)
      · intro h0
        by_cases hno : Refuses s.pmm 1
        · exact Or.inl ⟨rfl, hno⟩
        · obtain ⟨c, hgrant⟩ := not_forall_not.mp hno
          exact Or.inr ⟨c, fun hz => h0 (hz ▸ hgrant), hgrant, trivial⟩
    · intro c hc
      rw [mapTable, if_neg (show ¬c * 4096 = 0 by omega)]
      exact iff_of_true (fun h => Bool.noConfusion h) trivial

def Vm.withDir (s : Vm) (b : Nat) : Vm := initDirectory (s.taking 3 b) (b * 4096)

/-- All three requests are granted, none at block 0. -/
def AllGranted (s : Vm) : Prop :=
  ∃ b c d, (b ≠ 0 ∧ c ≠ 0 ∧ d ≠ 0) ∧ Grants s.pmm 3 b ∧ Grants (s.withDir b).pmm 1 c ∧
    Grants ((s.withDir b).taking 1 c).pmm 1 d

theorem withDir_maxBlocks (s : Vm) (b : Nat) : (s.withDir b).pmm.maxBlocks = s.pmm.maxBlocks :=
  (sameManager_initDirectory _ _).maxBlocks.trans (taking_maxBlocks s 3 b)

theorem withDir_usedBlocks (s : Vm) (b : Nat) :
    (s.withDir b).pmm.usedBlocks = (s.pmm.usedBlocks + 3) % 0x100000000 :=
  (sameManager_initDirectory _ _).usedBlocks.trans (taking_usedBlocks s 3 b)

theorem initFromTable3G_untouched {s t : Vm} (dir table : Nat) (hmax : t.pmm.maxBlocks ≤ 0x100000)
    (hcount : ∀ k, (t.pmm.usedBlocks + k) % 0x100000000 =
      (s.pmm.usedBlocks + (4 + k)) % 0x100000000) :
    ((initFromTable3G dir table (t.allocate 1)).1 = false →
      Untouched s (initFromTable3G dir table (t.allocate 1)).2) ↔
    ∃ d, d ≠ 0 ∧ Grants t.pmm 1 d := by
  rw [request_untouched_iff (P := fun _ => True) (initFromTable3G dir table) hmax hcount
    Nat.one_pos (by decide) (fun h => absurd h (by decide)) (fun u => if_pos rfl)]
  · simp
  · intro d hd
    rw [initFromTable3G, if_neg (show ¬d * 4096 = 0 by omega)]
    exact iff_of_true (fun h => Bool.noConfusion h) trivial

theorem initFromTable_untouched {s t : Vm} (dir : Nat) (hmax : t.pmm.maxBlocks ≤ 0x100000)
    (hcount : ∀ k, (t.pmm.usedBlocks + k) % 0x100000000 =
      (s.pmm.usedBlocks + (3 + k)) % 0x100000000) :
    ((initFromTable dir (t.allocate 1)).1 = false →
      Untouched s (initFromTable dir (t.allocate 1)).2) ↔
    ∃ c, c ≠ 0 ∧ Grants t.pmm 1 c ∧ ∃ d, d ≠ 0 ∧ Grants (t.taking 1 c).pmm 1 d := by
  rw [request_untouched_iff (P := fun c => ∃ d, d ≠ 0 ∧ Grants (t.taking 1 c).pmm 1 d)
    (initFromTable dir) hmax hcount Nat.one_pos (by decide) (fun h => absurd h (by decide))
    (fun u => if_pos rfl)]
  · simp
  · intro c hc
    rw [initFromTable, if_neg (show ¬c * 4096 = 0 by omega)]
    refine initFromTable3G_untouched dir (c * 4096) ((taking_maxBlocks t 1 c).symm ▸ hmax) fun k => ?_
    have hk := hcount (1 + k)
    rw [taking_usedBlocks]
    omega

theorem pageManagerInit_untouched_iff {s : Vm} (hmax : s.pmm.maxBlocks ≤ 0x100000) :
    ((pageManagerInit s).1 = false → Untouched s (pageManagerInit s).2) ↔
      Refuses s.pmm 3 ∨ AllGranted s := by
  rw [pageManagerInit, request_untouched_iff (n := 0)
    (P := fun b => ∃ c, c ≠ 0 ∧ Grants (s.withDir b).pmm 1 c ∧
      ∃ d, d ≠ 0 ∧ Grants ((s.withDir b).taking 1 c).pmm 1 d)
    initFromDir hmax (fun k => by rw [Nat.zero_add]) (by decide) (by decide) (fun _ => rfl)
    (fun u => if_pos rfl)]
  · constructor
    · rintro (⟨_, hno⟩ | ⟨b, hb, hgb, c, hc, hgc, d, hd, hgd⟩)
      · exact Or.inl hno
      · exact Or.inr ⟨b, c, d, ⟨hb, hc, hd⟩, hgb, hgc, hgd⟩
    · rintro (hno | ⟨b, c, d, ⟨hb, hc, hd⟩, hgb, hgc, hgd⟩)
      · exact Or.inl ⟨rfl, hno⟩
      · exact Or.inr ⟨b, hb, hgb, c, hc, hgc, d, hd, hgd⟩
  · intro b hb
    rw [initFromDir, if_neg (show ¬b * 4096 = 0 by omega)]
    change ((initFromTable (b * 4096) ((s.withDir b).allocate 1)).1 = false →
      Untouched s (initFromTable (b * 4096) ((s.withDir b).allocate 1)).2) ↔ _
    refine initFromTable_untouched (b * 4096) ((withDir_maxBlocks s b).symm ▸ hmax) fun k => ?_
    have hk := withDir_usedBlocks s b
    change ((s.withDir b).pmm.usedBlocks + k) % 0x100000000 = _
    omega

/-- `map_page` leaves no trace unless its request is granted at block 0, which it takes
for a failure. `Page_Manager_Init` leaves none where its first request is refused. -/
theorem out_of_memory_iff {s : Vm} (hmax : s.pmm.maxBlocks ≤ 0x100000) (phys virt : BitVec 32) :
    (((pageManagerInit s).1 = false → Untouched s (pageManagerInit s).2) ↔
      Refuses s.pmm 3 ∨ AllGranted s) ∧
    (((mapPage s phys.toNat virt.toNat).1 = false →
        Untouched s (mapPage s phys.toNat virt.toNat).2) ↔
      IsPresent (s.pde (pdIndex virt.toNat)) ∨ ¬Grants s.pmm 1 0) :=
  ⟨pageManagerInit_untouched_iff hmax, mapPage_untouched_iff hmax phys.toNat virt.toNat⟩

theorem out_of_memory_small :
    (((pageManagerInit smallMachine).1 = false →
        Untouched smallMachine (pageManagerInit smallMachine).2) ↔
      Refuses smallMachine.pmm 3 ∨ AllGranted smallMachine) ∧
    (((mapPage smallMachine (0x5000#32).toNat (0x400000#32).toNat).1 = false →
        Untouched smallMachine (mapPage smallMachine (0x5000#32).toNat (0x400000#32).toNat).2) ↔
      IsPresent (smallMachine.pde (pdIndex (0x400000#32).toNat)) ∨ ¬Grants smallMachine.pmm 1 0) :=
  out_of_memory_iff (by decide) 0x5000#32 0x400000#32

def tightMachine : Vm :=
  ⟨⟨fun w => if w = 0xC000 then 0xFFFFFFE1#32 else if w = 0xC001 then 0xFFFFFFFF#32 else 0#32,
    0x30000, 64, 60, []⟩, 0, []⟩

theorem checkBlock_tight : ∀ b < 64,
    checkBlock tightMachine.pmm b = false ↔ 1 ≤ b ∧ b ≤ 4 := by decide

theorem grants_tight : Grants tightMachine.pmm 3 1 := by
  have hsettles : Settles tightMachine.pmm 3 1 :=
    settles_of_status checkBlock_tight (by decide) (by decide) (by decide) (by decide) (by decide)
      (by decide) (by decide) fun c hc hfree => by omega
  exact ⟨by decide, by decide, (settles_iff _ (by decide) (by decide) 1).mp hsettles⟩

theorem checkBlock_withDir_tight {b : Nat} (hb : b < 64)
    (hfree : checkBlock (tightMachine.withDir 1).pmm b = false) : b = 4 := by
  have hsame := sameManager_initDirectory (tightMachine.taking 3 1) (1 * 4096)
  have hmem := initDirectory_mem (tightMachine.taking 3 1) (show 1 * 4096 % 4096 = 0 by decide)
    (by decide)
  have hslot : (tightMachine.taking 3 1).pmm.slot (b / 32 : Nat) = 0xC000 + b / 32 := by
    have hmap : (tightMachine.taking 3 1).pmm.memoryMap = 0x30000 := rfl
    rw [Pmm.slot, hmap]
    omega
  have hkept : checkBlock (tightMachine.withDir 1).pmm b = checkBlock (tightMachine.taking 3 1).pmm b := by
    refine checkBlock_congr hsame.memoryMap ?_
    rw [hslot, hmem, if_neg (by omega)]
  have htaken : checkBlock (takeBlocks tightMachine.pmm 3 1) b = true ↔
      (1 ≤ b ∧ b < 1 + 3) ∨ checkBlock tightMachine.pmm b = true :=
    checkBlock_takeBlocks tightMachine.pmm (by decide) (by omega)
  have hstatus := checkBlock_tight b hb
  rw [hkept] at hfree
  have hnot : ¬checkBlock (takeBlocks tightMachine.pmm 3 1) b = true := by
    rw [Bool.not_eq_true]
    exact hfree
  rw [htaken, not_or, Bool.not_eq_true, hstatus] at hnot
  omega

/-- The directory is taken, block 4 is then left, and the search does not accept it. -/
theorem out_of_memory_leaves_directory :
    ¬((pageManagerInit tightMachine).1 = false →
      Untouched tightMachine (pageManagerInit tightMachine).2) := by
  rw [pageManagerInit_untouched_iff (by decide)]
  rintro (hno | ⟨b, c, _, _, hb, hc, _⟩)
  · exact hno 1 grants_tight
  · rw [hb.unique grants_tight] at hc
    obtain ⟨_, _, hlt, hcand, _⟩ := hc
    rw [withDir_maxBlocks] at hlt
    have hc64 : c < 64 := hlt
    rw [candidate_iff _ (by decide) (by decide)] at hcand
    obtain ⟨hfree, hprobe⟩ := hcand
    rw [checkBlock_withDir_tight hc64 hfree] at hprobe
    have hnone : freeProbes (tightMachine.withDir 1).pmm (probeStart 4) (1 + 1) =
        Nat.count (fun _ => False) (1 + 1) := by
      refine freeProbes_eq_count fun k hk => iff_of_false (fun hk' => ?_) id
      have hstart : probeStart 4 = 16 := by decide
      have h4 := checkBlock_withDir_tight (show (probeStart 4 + k) % 0x100000000 < 64 by omega) hk'
      omega
    rw [hnone] at hprobe
    exact absurd hprobe (by decide)

end SplongleOS
