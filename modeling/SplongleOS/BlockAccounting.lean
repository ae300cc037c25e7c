import SplongleOS.Base.RangeCount
import SplongleOS.FrameOwnership
set_option autoImplicit false

/-! `g_usedBlocks` against the bits of the bitmap. No operation looks at a bit before it
counts it, so the counter is right as long as every operation changes all the bits it counts. -/

namespace SplongleOS
open WordMemory RangeCount

/-- Used bits among the managed blocks. -/
def usedCount (s : Pmm) : Nat := Nat.count (fun b => checkBlock s b = true) s.maxBlocks

def usedIn (s : Pmm) (lo n : Nat) : Nat := Nat.count (fun k => checkBlock s (lo + k) = true) n

theorem usedCount_le (s : Pmm) : usedCount s ≤ s.maxBlocks := Nat.count_le _

theorem usedIn_le (s : Pmm) (lo n : Nat) : usedIn s lo n ≤ n := Nat.count_le _

theorem usedIn_eq_iff {s : Pmm} {lo n : Nat} :
    usedIn s lo n = n ↔ ∀ k < n, checkBlock s (lo + k) = true := Nat.count_iff_forall

theorem usedIn_eq_zero_iff {s : Pmm} {lo n : Nat} :
    usedIn s lo n = 0 ↔ ∀ k < n, checkBlock s (lo + k) = false := by
  simp only [← Bool.not_eq_true]
  exact Nat.count_iff_forall_not

theorem usedCount_congr {s t : Pmm} (hmax : t.maxBlocks = s.maxBlocks)
    (h : ∀ b < s.maxBlocks, checkBlock t b = checkBlock s b) : usedCount t = usedCount s := by
  rw [usedCount, usedCount, hmax]
  exact count_congr fun b hb => by rw [h b hb]

theorem usedCount_set {s t : Pmm} {lo n : Nat} (hmax : t.maxBlocks = s.maxBlocks)
    (hfit : lo + n ≤ s.maxBlocks)
    (h : ∀ b < s.maxBlocks, checkBlock t b = true ↔ (lo ≤ b ∧ b < lo + n) ∨ checkBlock s b = true) :
    usedCount t + usedIn s lo n = usedCount s + n := by
  rw [usedCount, usedCount, usedIn, hmax]
  exact count_set_range hfit h

theorem usedCount_clear {s t : Pmm} {lo n : Nat} (hmax : t.maxBlocks = s.maxBlocks)
    (hfit : lo + n ≤ s.maxBlocks)
    (h : ∀ b < s.maxBlocks, checkBlock t b = true ↔
      ¬(lo ≤ b ∧ b < lo + n) ∧ checkBlock s b = true) :
    usedCount t + usedIn s lo n = usedCount s := by
  rw [usedCount, usedCount, usedIn, hmax]
  exact count_clear_range hfit h

def Counted (s : Pmm) : Prop := s.usedBlocks = usedCount s

theorem counted_memoryManagerInit_iff (p : Pmm) {address size : Nat} (hal : address % 4 = 0)
    (hfit : address + 0x20000 ≤ 0x100000000) :
    Counted (memoryManagerInit p address size) ↔
      ∀ b < (memoryManagerInit p address size).maxBlocks,
        8 * ((memoryManagerInit p address size).maxBlocks / 8) ≤ b →
          p.mem.bit (8 * address + b) = true := by
  have hmax : (memoryManagerInit p address size).maxBlocks ≤ 0x100000 := by
    rw [memoryManagerInit_maxBlocks]
    exact managedBlocks_le size
  have hused : (memoryManagerInit p address size).usedBlocks =
      (memoryManagerInit p address size).maxBlocks := rfl
  rw [Counted, hused, usedCount, eq_comm, Nat.count_iff_forall]
  refine forall₂_congr fun b hb => ?_
  rw [checkBlock_memoryManagerInit p hal hfit (by omega), Bool.or_eq_true, decide_eq_true_eq]
  constructor
  · exact fun h hle => h.resolve_left (by omega)
  · intro h
    by_cases hlt : b / 8 < (memoryManagerInit p address size).maxBlocks / 8
    · exact Or.inl hlt
    · exact Or.inr (h (by omega))

def Pmm.Inside (s : Pmm) (base size : Nat) : Prop :=
  base < 0x100000000 ∧ base + size ≤ 4096 * s.maxBlocks

instance (s : Pmm) (base size : Nat) : Decidable (s.Inside base size) :=
  inferInstanceAs (Decidable (_ ∧ _))

theorem Pmm.Inside.regionBlocks {s : Pmm} {base size : Nat} (h : s.Inside base size)
    (hmax : s.maxBlocks ≤ 0x100000) : regionBlocks base size = size / 4096 := by
  obtain ⟨_, hle⟩ := h
  unfold SplongleOS.regionBlocks clipSize
  rw [if_neg (by omega)]
  omega

theorem Pmm.Inside.blocks {s : Pmm} {base size : Nat} (h : s.Inside base size) :
    base / 4096 + size / 4096 ≤ s.maxBlocks := by
  obtain ⟨_, hle⟩ := h
  omega

/-- `initialize_region` counts right when all blocks of the region are used and block 0,
which it sets without counting, is used and not among them. -/
def InitializeSound (s : Pmm) (base size : Nat) : Prop :=
  (∀ k < size / 4096, checkBlock s (base / 4096 + k) = true) ∧
    (s.maxBlocks = 0 ∨ checkBlock s 0 = true ∧ ¬(base / 4096 = 0 ∧ 0 < size / 4096))

theorem checkBlock_initialize {s : Pmm} {base size b : Nat} (hmax : s.maxBlocks ≤ 0x100000)
    (hin : s.Inside base size) (hb : b < s.maxBlocks) :
    checkBlock (initializeRegion s base size) b = true ↔ (0 ≤ b ∧ b < 0 + 1) ∨
      (¬(base / 4096 ≤ b ∧ b < base / 4096 + size / 4096) ∧ checkBlock s b = true) := by
  have hfit := hin.blocks
  have hzero : 0 ≤ b ∧ b < 0 + 1 ↔ b = 0 := by omega
  rw [checkBlock_initializeRegion s size hin.1 (by omega), hin.regionBlocks hmax,
    exists_block_iff (by omega), hzero]

theorem usedCount_initializeRegion {s : Pmm} {base size : Nat} (hmax : s.maxBlocks ≤ 0x100000)
    (hin : s.Inside base size) (hpos : 0 < s.maxBlocks) :
    usedCount (initializeRegion s base size) + usedIn s (base / 4096) (size / 4096) +
        (if checkBlock s 0 = true ∧ ¬(base / 4096 = 0 ∧ 0 < size / 4096) then 1 else 0) =
      usedCount s + 1 := by
  let cleared : Nat → Prop := fun b =>
    ¬(base / 4096 ≤ b ∧ b < base / 4096 + size / 4096) ∧ checkBlock s b = true
  have hset : Nat.count (fun b => checkBlock (initializeRegion s base size) b = true) s.maxBlocks +
      Nat.count (fun k => cleared (0 + k)) 1 = Nat.count cleared s.maxBlocks + 1 :=
    count_set_range (by omega) fun b hb => checkBlock_initialize hmax hin hb
  have hclear : Nat.count cleared s.maxBlocks + usedIn s (base / 4096) (size / 4096) =
      Nat.count (fun b => checkBlock s b = true) s.maxBlocks :=
    count_clear_range hin.blocks fun b _ => Iff.rfl
  have hzero : Nat.count (fun k => cleared (0 + k)) 1 =
      if checkBlock s 0 = true ∧ ¬(base / 4096 = 0 ∧ 0 < size / 4096) then 1 else 0 := by
    rw [Nat.count_succ, Nat.count_zero, Nat.zero_add]
    refine if_congr ?_ rfl rfl
    simp only [cleared, Nat.add_zero]
    rw [and_comm]
    exact and_congr_right fun _ => not_congr (by omega)
  unfold usedCount
  rw [initializeRegion_maxBlocks, ← hzero]
  omega

theorem counted_initializeRegion_iff {s : Pmm} {base size : Nat} (hmax : s.maxBlocks ≤ 0x100000)
    (hin : s.Inside base size) (h : Counted s) :
    Counted (initializeRegion s base size) ↔ InitializeSound s base size := by
  have hcount := usedCount_le s
  have hle := usedIn_le s (base / 4096) (size / 4096)
  have hfit := hin.blocks
  have hused : (initializeRegion s base size).usedBlocks =
      (s.usedBlocks + 0x100000000 - size / 4096) % 0x100000000 := by
    unfold Counted at h
    rw [initializeRegion_usedBlocks s size hin.1 (by omega), hin.regionBlocks hmax]
  unfold Counted at h ⊢
  rw [hused, InitializeSound, ← usedIn_eq_iff]
  by_cases hpos : s.maxBlocks = 0
  · have hnone := usedCount_le (initializeRegion s base size)
    rw [initializeRegion_maxBlocks] at hnone
    simp only [hpos, true_or, and_true]
    omega
  · have hinit := usedCount_initializeRegion hmax hin (Nat.pos_of_ne_zero hpos)
    rw [or_iff_right hpos]
    by_cases hzero : checkBlock s 0 = true ∧ ¬(base / 4096 = 0 ∧ 0 < size / 4096)
    · rw [if_pos hzero] at hinit
      rw [and_iff_left hzero]
      omega
    · rw [if_neg hzero] at hinit
      refine iff_of_false (by omega) fun hs => hzero hs.2

/-- `deinitialize_region` counts right when all blocks of the region are free. -/
def DeinitializeSound (s : Pmm) (base size : Nat) : Prop :=
  ∀ k < size / 4096, checkBlock s (base / 4096 + k) = false

theorem checkBlock_deinitialize {s : Pmm} {base size b : Nat} (hmax : s.maxBlocks ≤ 0x100000)
    (hin : s.Inside base size) (hb : b < s.maxBlocks) :
    checkBlock (deinitializeRegion s base size) b = true ↔
      (base / 4096 ≤ b ∧ b < base / 4096 + size / 4096) ∨ checkBlock s b = true := by
  have hfit := hin.blocks
  rw [checkBlock_deinitializeRegion s size hin.1 (by omega), hin.regionBlocks hmax,
    exists_setBlock_iff (by omega)]

theorem counted_deinitializeRegion_iff {s : Pmm} {base size : Nat} (hmax : s.maxBlocks ≤ 0x100000)
    (hin : s.Inside base size) (h : Counted s) :
    Counted (deinitializeRegion s base size) ↔ DeinitializeSound s base size := by
  have hcount := usedCount_le s
  have hle := usedIn_le s (base / 4096) (size / 4096)
  have hfit := hin.blocks
  have hset := usedCount_set (deinitializeRegion_maxBlocks s base size) hfit
    fun b hb => checkBlock_deinitialize hmax hin hb
  unfold Counted at h ⊢
  rw [deinitializeRegion_usedBlocks s size hin.1 (by omega), hin.regionBlocks hmax,
    DeinitializeSound, ← usedIn_eq_zero_iff]
  omega

theorem freeBlocks_usedBlocks (s : Pmm) (address num : Nat) :
    (freeBlocks s address num).usedBlocks =
      (s.usedBlocks + 0x100000000 - num) % 0x100000000 := by
  have hloop : (forBlocks unsetBlock num (address / 4096) s).usedBlocks = s.usedBlocks :=
    forBlocks_invariant (P := fun t => t.usedBlocks = s.usedBlocks)
      (fun t b _ ht => (unsetBlock_usedBlocks t b).trans ht) num _ rfl
  rw [freeBlocks, hloop]

theorem counted_freeBlocks_iff {s : Pmm} {e : Alloc} (hmax : s.maxBlocks ≤ 0x100000)
    (hfit : e.address / 4096 + e.blocks ≤ s.maxBlocks) (h : Counted s) :
    Counted (freeBlocks s e.address e.blocks) ↔
      ∀ k < e.blocks, checkBlock s (e.address / 4096 + k) = true := by
  have hcount := usedCount_le s
  have hle := usedIn_le s (e.address / 4096) e.blocks
  have hclear := usedCount_clear (freeBlocks_maxBlocks s e.address e.blocks) hfit
    fun b hb => checkBlock_freeBlocks s (by omega) (by omega)
  unfold Counted at h ⊢
  rw [freeBlocks_usedBlocks, ← usedIn_eq_iff]
  omega

theorem counted_takeBlocks_iff {s : Pmm} {num b : Nat} (hmax : s.maxBlocks ≤ 0x100000)
    (hb : b < s.maxBlocks) (hcount : num ≤ freeCount s) (h : Counted s) :
    Counted (takeBlocks s num b) ↔ FreeRun s b num := by
  have hle := usedCount_le s
  unfold Counted at h ⊢
  unfold freeCount at hcount
  -- the part of the run that is managed
  obtain ⟨n, hn⟩ : ∃ n, n = min num (s.maxBlocks - b) := ⟨_, rfl⟩
  have hset := usedCount_set (takeBlocks_maxBlocks s num b) (show b + n ≤ s.maxBlocks by omega)
    fun x hx => by
      rw [checkBlock_takeBlocks s (by omega) (by omega)]
      exact or_congr_left (by omega)
  have hin := usedIn_le s b n
  have hfree : FreeRun s b num ↔ n = num ∧ usedIn s b n = 0 := by
    rw [usedIn_eq_zero_iff]
    constructor
    · intro hrun
      have hfit : num = 0 ∨ b + num ≤ s.maxBlocks := by
        by_cases h0 : num = 0
        · exact Or.inl h0
        · exact Or.inr (hrun.fits (Nat.pos_of_ne_zero h0))
      exact ⟨by omega, fun k hk => (hrun k (by omega)).2⟩
    · rintro ⟨rfl, hall⟩ k hk
      exact ⟨by omega, hall k hk⟩
  rw [hfree, takeBlocks_usedBlocks]
  omega

theorem counted_allocateBlocks_iff {s : Pmm} {num : Nat} (hmax : s.maxBlocks ≤ 0x100000)
    (hnum : num < 0x100000000) (h : Counted s) :
    Counted (allocateBlocks s num).2 ↔ SearchSound s num := by
  have hle := usedCount_le s
  have hfew : freeCount s ≤ s.maxBlocks := by
    unfold Counted at h
    unfold freeCount
    omega
  have hall := allocateBlocks_cases s num hmax
  generalize allocateBlocks s num = r at hall ⊢
  cases hall with
  | refused hno =>
    refine iff_of_true h (hno.imp_right fun h0 b _ k hk => ?_)
    omega
  | notFound hcount hno =>
    refine iff_of_true h (Or.inr fun b hb => ?_)
    by_cases h0 : num = 0
    · subst h0
      exact fun k hk => absurd hk (by omega)
    · have hcand := ((settles_iff s (Nat.pos_of_ne_zero h0) (by omega) b).mp hb).2.1
      exact Bool.noConfusion (hcand.symm.trans (hno b hb.1))
  | taken hcount hn hfirst =>
    have hlt := hfirst.1
    rw [counted_takeBlocks_iff hmax (by omega) hcount h, SearchSound, or_iff_right (by omega)]
    constructor
    · intro hrun c hc
      rwa [((settles_iff s hn (by omega) c).mp hc).unique hfirst]
    · exact fun hscan => hscan _ ((settles_iff s hn (by omega) _).mpr hfirst)

/-- What is called after Memory_Manager_Init. Regions lie inside the managed range. -/
inductive RegionCall where
  | initializeRegion (base : BitVec 32) (size : BitVec 64)
  | deinitializeRegion (base : BitVec 32) (size : BitVec 64)
  | block (c : Call)

def Owned.regionStep (o : Owned) : RegionCall → Option Owned
  | .initializeRegion base size =>
    if o.pmm.Inside base.toNat size.toNat then
      some { o with pmm := initializeRegion o.pmm base.toNat size.toNat }
    else none
  | .deinitializeRegion base size =>
    if o.pmm.Inside base.toNat size.toNat then
      some { o with pmm := deinitializeRegion o.pmm base.toNat size.toNat }
    else none
  | .block c => o.step c

def Owned.Counts (o : Owned) : RegionCall → Prop
  | .initializeRegion base size => InitializeSound o.pmm base.toNat size.toNat
  | .deinitializeRegion base size => DeinitializeSound o.pmm base.toNat size.toNat
  | .block (.allocate n) => SearchSound o.pmm n.toNat
  | .block (.free e) => ∀ k < e.blocks, checkBlock o.pmm (e.address / 4096 + k) = true
  | .block (.write _ _) => True

/-- The bits of managed blocks past the bytes memset fills are set. -/
def TailSet (p : Pmm) (address size : Nat) : Prop :=
  ∀ b < managedBlocks size, 8 * (managedBlocks size / 8) ≤ b → p.mem.bit (8 * address + b) = true

def Initialised (start : Pmm → Nat → Nat → Prop) (o : Owned) : Prop :=
  ∃ (p : Pmm) (address size : Nat), address % 4 = 0 ∧ address + 0x20000 ≤ 0x100000000 ∧
    start p address size ∧ o = ⟨memoryManagerInit p address size, []⟩

def Accounting (start : Pmm → Nat → Nat → Prop) (ok : Owned → RegionCall → Prop) : Owned → Prop :=
  Runs.Reach Owned.regionStep ok (Initialised start)

structure Owned.Balanced (o : Owned) : Prop where
  max : o.pmm.maxBlocks ≤ 0x100000
  fits : ∀ e ∈ o.live, e.address / 4096 + e.blocks ≤ o.pmm.maxBlocks
  counted : Counted o.pmm

theorem Owned.Balanced.returned {o : Owned} {t : Pmm} {a num : Nat} (h : o.Balanced)
    (haddr : a ≠ 0 → a / 4096 + num ≤ o.pmm.maxBlocks) (hmax : t.maxBlocks = o.pmm.maxBlocks)
    (hcounted : Counted t) :
    Owned.Balanced { pmm := t, live := if a = 0 then o.live else ⟨a, num⟩ :: o.live } := by
  refine ⟨hmax.trans_le h.max, ?_, hcounted⟩
  rw [hmax]
  by_cases ha : a = 0
  · rw [if_pos ha]
    exact h.fits
  · rw [if_neg ha]
    exact List.forall_mem_cons.mpr ⟨haddr ha, h.fits⟩

theorem Owned.Balanced.allocate {o o' : Owned} {n : BitVec 32} (h : o.Balanced)
    (hsound : SearchSound o.pmm n.toNat) (hs : o.step (.allocate n) = some o') : o'.Balanced := by
  simp only [Owned.step, Option.some.injEq] at hs
  subst hs
  have hfits : (allocateBlocks o.pmm n.toNat).1 ≠ 0 →
      (allocateBlocks o.pmm n.toNat).1 / 4096 + n.toNat ≤ o.pmm.maxBlocks := by
    intro ha
    obtain ⟨hn, hrun, _⟩ := allocateBlocks_freeRun h.max hsound (by omega) ha
    exact hrun.fits hn
  exact h.returned hfits (allocateBlocks_maxBlocks n.toNat h.max)
    ((counted_allocateBlocks_iff h.max n.isLt h.counted).mpr hsound)

theorem counted_write_iff {s : Pmm} {w : Nat} (v : BitVec 32) (hw : ¬s.InBitmap w) :
    Counted { s with mem := Function.update s.mem w v } ↔ Counted s := by
  have hcount : usedCount { s with mem := Function.update s.mem w v } = usedCount s := by
    refine usedCount_congr rfl fun b hb => ?_
    have hne : s.slot (b / 32 : Nat) ≠ w := fun heq => hw ⟨b / 32, by omega, heq.symm⟩
    exact checkBlock_congr (s := s) (t := { s with mem := Function.update s.mem w v }) rfl
      (Function.update_of_ne hne v s.mem)
  rw [Counted, Counted, hcount]

theorem counts_allocate_iff {o : Owned} {n : BitVec 32} {t : Pmm} {live : List Alloc}
    (h : Counted t ↔ SearchSound o.pmm n.toNat) :
    Counted (Owned.mk t live).pmm ↔ o.Counts (.block (.allocate n)) := h

theorem Owned.Balanced.counted_iff {o o' : Owned} {c : RegionCall} (h : o.Balanced)
    (hs : o.regionStep c = some o') : Counted o'.pmm ↔ o.Counts c := by
  cases c with
  | initializeRegion base size =>
    by_cases hin : o.pmm.Inside base.toNat size.toNat
    · simp only [Owned.regionStep, hin, ↓reduceIte, Option.some.injEq] at hs
      subst hs
      exact counted_initializeRegion_iff h.max hin h.counted
    · simp [Owned.regionStep, hin] at hs
  | deinitializeRegion base size =>
    by_cases hin : o.pmm.Inside base.toNat size.toNat
    · simp only [Owned.regionStep, hin, ↓reduceIte, Option.some.injEq] at hs
      subst hs
      exact counted_deinitializeRegion_iff h.max hin h.counted
    · simp [Owned.regionStep, hin] at hs
  | block c =>
    cases c with
    | allocate n =>
      simp only [Owned.regionStep, Owned.step, Option.some.injEq] at hs
      subst hs
      exact counts_allocate_iff (counted_allocateBlocks_iff h.max n.isLt h.counted)
    | free e =>
      by_cases he : e ∈ o.live
      · simp only [Owned.regionStep, Owned.step, he, ↓reduceIte, Option.some.injEq] at hs
        subst hs
        exact counted_freeBlocks_iff h.max (h.fits e he) h.counted
      · simp [Owned.regionStep, Owned.step, he] at hs
    | write w v =>
      by_cases hw : o.pmm.InBitmap w
      · simp [Owned.regionStep, Owned.step, hw] at hs
      · simp only [Owned.regionStep, Owned.step, hw, ↓reduceIte, Option.some.injEq] at hs
        subst hs
        exact iff_of_true ((counted_write_iff v hw).mpr h.counted) trivial

theorem Owned.Balanced.step {o o' : Owned} (c : RegionCall) (h : o.Balanced)
    (hok : o.Counts c) (hs : o.regionStep c = some o') : o'.Balanced := by
  have hcounted := (h.counted_iff hs).mpr hok
  cases c with
  | initializeRegion base size =>
    by_cases hin : o.pmm.Inside base.toNat size.toNat
    · simp only [Owned.regionStep, hin, ↓reduceIte, Option.some.injEq] at hs
      subst hs
      have hmax := initializeRegion_maxBlocks o.pmm base.toNat size.toNat
      exact ⟨hmax.trans_le h.max, fun e he => hmax ▸ h.fits e he, hcounted⟩
    · simp [Owned.regionStep, hin] at hs
  | deinitializeRegion base size =>
    by_cases hin : o.pmm.Inside base.toNat size.toNat
    · simp only [Owned.regionStep, hin, ↓reduceIte, Option.some.injEq] at hs
      subst hs
      have hmax := deinitializeRegion_maxBlocks o.pmm base.toNat size.toNat
      exact ⟨hmax.trans_le h.max, fun e he => hmax ▸ h.fits e he, hcounted⟩
    · simp [Owned.regionStep, hin] at hs
  | block c =>
    cases c with
    | allocate n => exact h.allocate hok hs
    | free e =>
      by_cases he : e ∈ o.live
      · simp only [Owned.regionStep, Owned.step, he, ↓reduceIte, Option.some.injEq] at hs
        subst hs
        have hmax := freeBlocks_maxBlocks o.pmm e.address e.blocks
        exact ⟨hmax.trans_le h.max,
          fun e' he' => hmax ▸ h.fits e' (List.mem_of_mem_erase he'), hcounted⟩
      · simp [Owned.regionStep, Owned.step, he] at hs
    | write w v =>
      by_cases hw : o.pmm.InBitmap w
      · simp [Owned.regionStep, Owned.step, hw] at hs
      · simp only [Owned.regionStep, Owned.step, hw, ↓reduceIte, Option.some.injEq] at hs
        subst hs
        exact ⟨h.max, h.fits, hcounted⟩

theorem balanced_initialised {o : Owned} (h : Initialised TailSet o) : o.Balanced := by
  obtain ⟨p, address, size, hal, hfit, htail, rfl⟩ := h
  refine ⟨?_, by simp, (counted_memoryManagerInit_iff p hal hfit).mpr ?_⟩
  · exact memoryManagerInit_maxBlocks p address size ▸ managedBlocks_le size
  · rwa [memoryManagerInit_maxBlocks]

/-- In a run whose operations change every bit they count, the counter is the number of
used bits and the free count never wraps. -/
theorem block_accounting {o : Owned} (h : Accounting TailSet Owned.Counts o) :
    o.pmm.usedBlocks = usedCount o.pmm ∧ o.pmm.usedBlocks ≤ o.pmm.maxBlocks ∧
      freeCount o.pmm = o.pmm.maxBlocks - o.pmm.usedBlocks := by
  have hbal : o.Balanced := Runs.Reach.invariant (fun _ => balanced_initialised)
    (fun _ c _ hi hok hs => hi.step c hok hs) h
  have hle : o.pmm.usedBlocks ≤ o.pmm.maxBlocks := hbal.counted ▸ usedCount_le o.pmm
  have hmax := hbal.max
  refine ⟨hbal.counted, hle, ?_⟩
  unfold freeCount
  omega

def smallInit : Pmm := memoryManagerInit ⟨fun _ => 0#32, 0, 0, 0, []⟩ 0x30000 0x20000

theorem initialised_smallInit {start : Pmm → Nat → Nat → Prop}
    (h : start ⟨fun _ => 0#32, 0, 0, 0, []⟩ 0x30000 0x20000) : Initialised start ⟨smallInit, []⟩ :=
  ⟨_, 0x30000, 0x20000, by decide, by decide, h, rfl⟩

theorem smallInit_maxBlocks : smallInit.maxBlocks = 32 := by decide

theorem tailSet_smallInit : TailSet ⟨fun _ => 0#32, 0, 0, 0, []⟩ 0x30000 0x20000 := by
  intro b hb hle
  have hmax : managedBlocks 0x20000 = 32 := by decide
  omega

theorem checkBlock_smallInit {b : Nat} (hb : b < 32) : checkBlock smallInit b = true := by
  have hmax := smallInit_maxBlocks
  unfold smallInit at hmax ⊢
  rw [checkBlock_memoryManagerInit _ (by decide) (by decide) (by omega), hmax]
  simp only [Bool.or_eq_true, decide_eq_true_eq]
  omega

theorem regionStep_smallInit {base : BitVec 32} {size : BitVec 64}
    (hin : smallInit.Inside base.toNat size.toNat) :
    Owned.regionStep ⟨smallInit, []⟩ (.initializeRegion base size) =
      some ⟨initializeRegion smallInit base.toNat size.toNat, []⟩ := by
  simp only [Owned.regionStep, hin, ↓reduceIte]

theorem inside_smallInit {base size : Nat} (h : base + size ≤ 4096 * 32) :
    smallInit.Inside base size := by
  rw [Pmm.Inside, smallInit_maxBlocks]
  omega

theorem block_accounting_small :
    (initializeRegion smallInit 0x1000 0x1000).usedBlocks =
        usedCount (initializeRegion smallInit 0x1000 0x1000) ∧
      (initializeRegion smallInit 0x1000 0x1000).usedBlocks ≤
        (initializeRegion smallInit 0x1000 0x1000).maxBlocks ∧
      freeCount (initializeRegion smallInit 0x1000 0x1000) =
        (initializeRegion smallInit 0x1000 0x1000).maxBlocks -
          (initializeRegion smallInit 0x1000 0x1000).usedBlocks :=
  block_accounting (o := ⟨initializeRegion smallInit 0x1000 0x1000, []⟩)
    (.next (.initializeRegion 0x1000#32 0x1000#64) (.start (initialised_smallInit tailSet_smallInit))
      ⟨fun k hk => checkBlock_smallInit (by simp at hk ⊢; omega),
        Or.inr ⟨checkBlock_smallInit (by omega), by decide⟩⟩
      (regionStep_smallInit (inside_smallInit (by decide))))

/-- Freeing the first page of 32 counts one block down, but `set_block(0)` sets it again. -/
theorem block_miscounted_small :
    ¬∀ o : Owned, Accounting (fun _ _ _ => True) (fun _ _ => True) o →
      o.pmm.usedBlocks = usedCount o.pmm := by
  intro hall
  have hin : smallInit.Inside 0 0x1000 := inside_smallInit (by decide)
  have hcounted : Counted smallInit :=
    (balanced_initialised (initialised_smallInit tailSet_smallInit)).counted
  have hafter := hall ⟨initializeRegion smallInit 0 0x1000, []⟩
    (.next (.initializeRegion 0#32 0x1000#64) (.start (initialised_smallInit trivial)) trivial
      (regionStep_smallInit hin))
  have hsound := (counted_initializeRegion_iff (by rw [smallInit_maxBlocks]; decide) hin
    hcounted).mp hafter
  rcases hsound.2 with hzero | ⟨_, hno⟩
  · exact absurd (smallInit_maxBlocks.symm.trans hzero) (by decide)
  · exact hno (by decide)

end SplongleOS
