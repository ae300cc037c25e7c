import SplongleOS.Base.Runs
import SplongleOS.BlockStatus
import SplongleOS.FrameOwnership
import SplongleOS.PageTables
set_option autoImplicit false

/-! The clock interrupt, rtc.c, and the frames it may write to. RTC_DT_AREA is 0x1610,
in block 1; the screen is not memory the manager knows of and is left out. -/

namespace SplongleOS
open WordMemory

structure RtcRegs where
  second : BitVec 8
  minute : BitVec 8
  hour : BitVec 8
  day : BitVec 8
  month : BitVec 8
  year : BitVec 8
  deriving DecidableEq, Repr

structure Datetime where
  second : BitVec 8
  minute : BitVec 8
  hour : BitVec 8
  day : BitVec 8
  month : BitVec 8
  year : BitVec 16
  deriving DecidableEq, Repr

def settleTime : RtcRegs → List RtcRegs → Option RtcRegs
  | _, [] => none
  | old, new :: rest => if old = new then some new else settleTime new rest

def fromBcd {n : Nat} (x : BitVec n) : BitVec n :=
  (x &&& BitVec.ofNat n 0x0F) + x / BitVec.ofNat n 16 * BitVec.ofNat n 10

def decodeTime (r : RtcRegs) (regB : BitVec 8) : Datetime :=
  let t : Datetime := ⟨r.second, r.minute, r.hour, r.day, r.month, r.year.setWidth 16⟩
  let t :=
    if regB &&& 0x04#8 = 0#8 then
      { second := fromBcd t.second
        minute := fromBcd t.minute
        hour := (t.hour &&& 0x0F#8) + (t.hour &&& 0x70#8) / 16#8 * 10#8 ||| t.hour &&& 0x80#8
        day := fromBcd t.day
        month := fromBcd t.month
        year := fromBcd t.year }
    else t
  let t :=
    if regB &&& 0x02#8 = 0#8 ∧ t.hour &&& 0x80#8 ≠ 0#8 then
      { t with hour := ((t.hour &&& 0x7F#8) + 12#8) % 24#8 }
    else t
  { t with year := t.year + 2000#16 }

def Datetime.bytes (t : Datetime) : List (BitVec 8) :=
  [t.second, t.minute, t.hour, t.day, t.month, t.year.setWidth 8, (t.year >>> 8).setWidth 8]

def storeBytes (a : Nat) : List (BitVec 8) → Mem → Mem
  | [], m => m
  | b :: bs, m => storeBytes (a + 1) bs (m.setByte a b)

theorem storeBytes_word (bs : List (BitVec 8)) (m : Mem) (a w : Nat)
    (h : w < a / 4 ∨ (a + bs.length + 3) / 4 ≤ w) : storeBytes a bs m w = m w := by
  induction bs generalizing a m with
  | nil => rfl
  | cons b bs ih =>
    rw [List.length_cons] at h
    rw [storeBytes, ih _ _ (by omega), Mem.setByte, Function.update_of_ne (by omega)]

/-- What kernel_main has set up once the manager has its map: `paging` says whether
`Page_Manager_Init` has run, `ticks` is RTC_ticks. -/
structure Kernel where
  vm : Vm
  paging : Bool
  ticks : BitVec 16

theorem Kernel.vm_mk (vm : Vm) (paging : Bool) (ticks : BitVec 16) :
    (Kernel.mk vm paging ticks).vm = vm := rfl

inductive Event where
  | pageManagerInit
  | allocate (n : BitVec 32)
  | tick (first : RtcRegs) (reads : List RtcRegs) (regB : BitVec 8)

def rtcHandler (k : Kernel) (first : RtcRegs) (reads : List RtcRegs) (regB : BitVec 8) :
    Option Kernel :=
  let ticks := k.ticks + 1#16
  if ticks % 1024#16 = 0#16 then
    (settleTime first reads).map fun r =>
      { k with
        ticks := 0#16
        vm := { k.vm with pmm :=
          { k.vm.pmm with mem := storeBytes 0x1610 (decodeTime r regB).bytes k.vm.pmm.mem } } }
  else some { k with ticks := ticks }

def Kernel.step (k : Kernel) : Event → Option Kernel
  | .pageManagerInit =>
    if k.paging then none else some { k with vm := (pageManagerInit k.vm).2, paging := true }
  | .allocate n => if k.paging then some { k with vm := (k.vm.allocate n.toNat).2 } else none
  | .tick first reads regB => if k.paging then rtcHandler k first reads regB else none

def Kernel.boot (s : Pmm) : Kernel := ⟨⟨s, 0, []⟩, false, 0#16⟩

def Kernel.Run (s : Pmm) : Kernel → Prop :=
  Runs.Reach Kernel.step (fun _ _ => True) fun k => k = Kernel.boot s

/-- No byte of the record lies in a block that is free or handed out. -/
def Kernel.ClockSafe (k : Kernel) : Prop :=
  ∀ x, 0x1610 ≤ x → x < 0x1610 + 7 →
    ¬(x / 4096 < k.vm.pmm.maxBlocks ∧ checkBlock k.vm.pmm (x / 4096) = false) ∧
      ∀ e ∈ k.vm.handed, ¬e.Holds (x / 4096)

def Kernel.TickKeeps (k : Kernel) : Prop :=
  ∀ first reads regB k', rtcHandler k first reads regB = some k' →
    ∀ e ∈ k.vm.handed, ∀ w, e.Holds (w / 1024) → k'.vm.pmm.mem w = k.vm.pmm.mem w

theorem clockSafe_iff (k : Kernel) : k.ClockSafe ↔
    ¬(1 < k.vm.pmm.maxBlocks ∧ checkBlock k.vm.pmm 1 = false) ∧
      ∀ e ∈ k.vm.handed, ¬e.Holds 1 := by
  constructor
  · intro h
    exact h 0x1610 (by omega) (by omega)
  · intro h x hlo hhi
    have hx : x / 4096 = 1 := by omega
    rw [hx]
    exact h

theorem rtcHandler_mem {k k' : Kernel} {first : RtcRegs} {reads : List RtcRegs} {regB : BitVec 8}
    (h : rtcHandler k first reads regB = some k') {w : Nat} (hw : w / 1024 ≠ 1) :
    k'.vm.pmm.mem w = k.vm.pmm.mem w := by
  unfold rtcHandler at h
  dsimp only at h
  split at h
  · obtain ⟨r, _, rfl⟩ := Option.map_eq_some_iff.mp h
    refine storeBytes_word _ _ _ _ ?_
    simp only [Datetime.bytes, List.length_cons, List.length_nil]
    omega
  · obtain rfl := Option.some.inj h
    rfl

theorem rtcHandler_sameManager {k k' : Kernel} {first : RtcRegs} {reads : List RtcRegs}
    {regB : BitVec 8} (h : rtcHandler k first reads regB = some k') : SameManager k.vm k'.vm := by
  unfold rtcHandler at h
  dsimp only at h
  split at h
  · obtain ⟨r, _, rfl⟩ := Option.map_eq_some_iff.mp h
    exact ⟨rfl, rfl, rfl, rfl⟩
  · obtain rfl := Option.some.inj h
    exact ⟨rfl, rfl, rfl, rfl⟩

theorem tickKeeps_of_clockSafe {k : Kernel} (h : k.ClockSafe) : k.TickKeeps := by
  intro first reads regB k' htick e he w hw
  refine rtcHandler_mem htick fun hblock => ?_
  rw [hblock] at hw
  exact ((clockSafe_iff k).mp h).2 e he hw

structure Vm.ClockInv (s : Vm) : Prop where
  map : s.pmm.memoryMap = 0x30000
  max : s.pmm.maxBlocks ≤ 0x100000
  used : s.pmm.maxBlocks ≤ 1 ∨ checkBlock s.pmm 1 = true
  away : ∀ e ∈ s.handed, ¬e.Holds 1

theorem Vm.ClockInv.clockSafe {k : Kernel} (h : k.vm.ClockInv) : k.ClockSafe := by
  refine (clockSafe_iff k).mpr ⟨?_, h.away⟩
  rintro ⟨hmax, hfree⟩
  rcases h.used with hle | hused
  · omega
  · exact Bool.noConfusion (hused.symm.trans hfree)

theorem checkBlock_one {s : Pmm} (h : s.memoryMap = 0x30000) :
    checkBlock s 1 = (s.mem 0xC000).getLsbD 1 := by
  have hslot : s.slot (1 / 32 : Nat) = 0xC000 := by
    rw [Pmm.slot, h]
    decide
  rw [checkBlock_eq, hslot]

theorem Vm.ClockInv.write {s t : Vm} (h : s.ClockInv) (hsame : SameManager s t)
    (hw : (s.pmm.mem 0xC000).getLsbD 1 = true → (t.pmm.mem 0xC000).getLsbD 1 = true) :
    t.ClockInv := by
  have hmap : t.pmm.memoryMap = 0x30000 := hsame.memoryMap.trans h.map
  refine ⟨hmap, hsame.maxBlocks ▸ h.max, ?_, hsame.handed ▸ h.away⟩
  rw [hsame.maxBlocks, checkBlock_one hmap]
  refine h.used.imp_right fun hused => hw ?_
  rwa [checkBlock_one h.map] at hused

theorem not_holds_one {a num : Nat} (ha : a ≠ 0) (hal : a % 4096 = 0) (hone : a / 4096 ≠ 1) :
    ¬(Alloc.mk a num).Holds 1 := by
  rintro ⟨hle, _⟩
  have hpage : 2 ≤ a / 4096 := by omega
  exact absurd hle (Nat.not_le.mpr hpage)

/-- An allocation starts at a free block other than block 0, so past block 1. -/
theorem Vm.ClockInv.allocate {s : Vm} (h : s.ClockInv) (num : Nat) :
    (s.allocate num).2.ClockInv := by
  have hkept := allocateBlocks_maxBlocks num h.max
  refine ⟨?_, ?_, ?_, ?_⟩
  · rw [allocate_pmm, allocateBlocks_memoryMap num h.max]
    exact h.map
  · rw [allocate_pmm, hkept]
    exact h.max
  · rw [allocate_pmm, hkept]
    exact h.used.imp_right (checkBlock_allocateBlocks_of_used num h.max (by decide))
  · rw [allocate_handed]
    by_cases ha : (allocateBlocks s.pmm num).1 = 0
    · rw [if_pos ha]
      exact h.away
    · rw [if_neg ha]
      refine List.forall_mem_cons.mpr ⟨?_, h.away⟩
      obtain ⟨_, _, hfirst, _⟩ := allocateBlocks_address h.max ha
      refine not_holds_one ha (allocateBlocks_aligned num h.max).1 fun hone => ?_
      have hfree := hfirst.free
      have hlt := hfirst.1
      rw [hone] at hfree
      rcases h.used with hle | hused
      · omega
      · exact Bool.noConfusion (hused.symm.trans hfree)

theorem getLsbD_linkTable (s : Vm) (pde : Nat) {table : Nat} (ha : Aligned table) {w : Nat}
    (hw : (s.pmm.mem w).getLsbD 1 = true) : ((linkTable s pde table).pmm.mem w).getLsbD 1 = true := by
  have hflag : (setFrame (setAttr (s.load pde) (present ||| readWrite)) table).getLsbD 1 = true := by
    rw [getLsbD_setFrame _ ha.1 ha.2 (by decide), setAttr, BitVec.getLsbD_or]
    have hrw : (present ||| readWrite).getLsbD 1 = true := by decide
    rw [hrw, Bool.or_true]
  rw [linkTable, store_mem]
  split
  · exact hflag
  · exact hw

/-- Directory and table entries all have bit 1 set, so even a directory or table that
lies on the bitmap keeps block 1 used. -/
theorem Vm.ClockInv.initDirectory {s : Vm} (h : s.ClockInv) {dir : Nat} (ha : Aligned dir) :
    (initDirectory s dir).ClockInv := by
  refine h.write (sameManager_initDirectory s dir) fun hw => ?_
  rw [initDirectory_mem s ha.1 ha.2]
  split
  · decide
  · exact hw

theorem Vm.ClockInv.initTables {s : Vm} (h : s.ClockInv) (dir : Nat) {table table3G : Nat}
    (ha : Aligned table) (ha3 : Aligned table3G) : (initTables s dir table table3G).ClockInv := by
  refine h.write (sameManager_initTables s dir table table3G) fun hw => ?_
  have hfill : ((fillTables s table table3G).pmm.mem 0xC000).getLsbD 1 = true := by
    rw [fillTables_mem s ha.1 ha.2 ha3.1 ha3.2]
    split
    · exact getLsbD_mappedEntry (by omega) (by omega) (by decide)
    · split
      · exact getLsbD_mappedEntry (by omega) (by omega) (by decide)
      · exact hw
  rw [initTables_eq, setPD_pmm]
  exact getLsbD_linkTable _ _ ha3 (getLsbD_linkTable _ _ ha hfill)

theorem Vm.ClockInv.pageManagerInit {s : Vm} (h : s.ClockInv) : (pageManagerInit s).2.ClockInv :=
  pageManagerInit_invariant (fun _ h => h.max) (fun _ num h => h.allocate num)
    (fun _ _ ha h => h.initDirectory ha) (fun _ dir _ _ ha ha3 h => h.initTables dir ha ha3) h.max
    (h.allocate 3)

theorem Vm.ClockInv.tick {k k' : Kernel} (h : k.vm.ClockInv) {first : RtcRegs} {reads : List RtcRegs}
    {regB : BitVec 8} (htick : rtcHandler k first reads regB = some k') : k'.vm.ClockInv := by
  refine h.write (rtcHandler_sameManager htick) fun hw => ?_
  rw [rtcHandler_mem htick (by decide)]
  exact hw

theorem Vm.ClockInv.step {k k' : Kernel} (h : k.vm.ClockInv) (e : Event) (hs : k.step e = some k') :
    k'.vm.ClockInv := by
  cases e with
  | pageManagerInit =>
    cases hp : k.paging with
    | true => simp [Kernel.step, hp] at hs
    | false =>
      simp only [Kernel.step, hp, Bool.false_eq_true, ↓reduceIte, Option.some.injEq] at hs
      subst hs
      rw [Kernel.vm_mk]
      exact h.pageManagerInit
  | allocate n =>
    cases hp : k.paging with
    | true =>
      simp only [Kernel.step, hp, ↓reduceIte, Option.some.injEq] at hs
      subst hs
      rw [Kernel.vm_mk]
      exact h.allocate n.toNat
    | false => simp [Kernel.step, hp] at hs
  | tick first reads regB =>
    cases hp : k.paging with
    | true =>
      simp only [Kernel.step, hp, ↓reduceIte] at hs
      exact h.tick hs
    | false => simp [Kernel.step, hp] at hs

/-- The clock never writes to free or allocated memory exactly when boot leaves block 1
used, or does not manage it. -/
theorem clock_safe_iff {buf : Nat → BitVec 8} {mbinfo : MultibootInfo} {mem : Mem} {s : Pmm}
    {es : List MmapEntry} (hes : mmapEntries buf mbinfo = some es)
    (hs : bootPmm buf mbinfo mem = some s) :
    (∀ k, Kernel.Run s k → k.ClockSafe ∧ k.TickKeeps) ↔
      managedBlocks (bootTotal mbinfo es) ≤ 1 ∨ ¬LeftFree mem (bootTotal mbinfo es) es 1 := by
  obtain ⟨_, hes', rfl⟩ := bootPmm_eq_some.mp hs
  obtain rfl : es = _ := Option.some.inj (hes.symm.trans hes')
  have hmanaged := managedBlocks_le (bootTotal mbinfo es)
  have hkernel : ¬KernelBlock (bootTotal mbinfo es) 1 := by
    unfold KernelBlock
    omega
  have hone := checkBlock_bootState_eq_false mem es (bootTotal_lt mbinfo es) (b := 1) (by decide)
  rw [and_iff_right hkernel] at hone
  constructor
  · intro hall
    have hsafe := ((clockSafe_iff _).mp (hall _ (.start rfl)).1).1
    by_contra hcond
    rw [not_or, not_not] at hcond
    refine hsafe ⟨?_, hone.mpr hcond.2⟩
    change 1 < (bootState mem (bootTotal mbinfo es) es).maxBlocks
    rw [bootState_maxBlocks]
    omega
  · intro hcond k hk
    have hstart : (Kernel.boot (bootState mem (bootTotal mbinfo es) es)).vm.ClockInv := by
      refine ⟨bootState_memoryMap _ _ _, ?_, ?_, by simp [Kernel.boot]⟩
      · rw [Kernel.boot, bootState_maxBlocks]
        exact hmanaged
      · rw [Kernel.boot, bootState_maxBlocks]
        refine hcond.imp_right fun hno => ?_
        rw [← hone, Bool.not_eq_false] at hno
        exact hno
    have hinv : k.vm.ClockInv := Runs.Reach.invariant (I := fun k => k.vm.ClockInv)
      (fun _ hk => hk ▸ hstart) (fun _ e _ hi _ hstep => hi.step e hstep) hk
    exact ⟨hinv.clockSafe, tickKeeps_of_clockSafe hinv.clockSafe⟩

theorem clock_safe_iff_qemu :
    (∀ k, Kernel.Run qemuState k → k.ClockSafe ∧ k.TickKeeps) ↔
      managedBlocks (bootTotal (mapInfo qemuMap) qemuMap) ≤ 1 ∨
        ¬LeftFree (fun _ => 0#32) (bootTotal (mapInfo qemuMap) qemuMap) qemuMap 1 :=
  clock_safe_iff (mmapEntries_encodeMap (by decide) (by decide)) bootPmm_qemuState

theorem settles_qemuState_three : Settles qemuState 3 1 := by
  rw [Settles, qemuState_maxBlocks]
  refine ⟨by decide, (accepts_qemuState (by decide) (by decide) (by decide)).mpr (by decide), ?_⟩
  intro c hc
  obtain rfl : c = 0 := by omega
  exact (accepts_qemuState (by decide) (by decide) (by decide)).not.mpr (by decide)

theorem directory_qemu :
    Alloc.mk 0x1000 3 ∈ (pageManagerInit (Kernel.boot qemuState).vm).2.handed := by
  have hmax : (Kernel.boot qemuState).vm.pmm.maxBlocks ≤ 0x100000 := by
    rw [Kernel.boot, qemuState_maxBlocks]
    decide
  have haddr : (allocateBlocks (Kernel.boot qemuState).vm.pmm 3).1 = 0x1000 :=
    allocateBlocks_qemuState (by decide) (by decide) settles_qemuState_three
  have hfirst : Alloc.mk 0x1000 3 ∈ ((Kernel.boot qemuState).vm.allocate 3).2.handed := by
    rw [allocate_handed, haddr]
    simp
  have hkept := allocateBlocks_maxBlocks 3 hmax
  refine (pageManagerInit_invariant
    (P := fun t => t.pmm.maxBlocks ≤ 0x100000 ∧ Alloc.mk 0x1000 3 ∈ t.handed)
    (fun _ h => h.1) ?_ ?_ ?_ hmax ⟨by rw [allocate_pmm, hkept]; exact hmax, hfirst⟩).2
  · intro s num h
    rw [allocate_pmm, allocateBlocks_maxBlocks num h.1, allocate_handed]
    refine ⟨h.1, ?_⟩
    split
    · exact h.2
    · exact List.mem_cons_of_mem _ h.2
  · intro s dir _ h
    rw [(sameManager_initDirectory s dir).maxBlocks, (sameManager_initDirectory s dir).handed]
    exact h
  · intro s dir table table3G _ _ h
    rw [(sameManager_initTables s dir table table3G).maxBlocks,
      (sameManager_initTables s dir table table3G).handed]
    exact h

/-- There the record overlays entries 388 and 389 of the page directory. -/
theorem clock_not_safe_qemu :
    ¬∀ (buf : Nat → BitVec 8) (mbinfo : MultibootInfo) (mem : Mem) (s : Pmm),
      bootPmm buf mbinfo mem = some s → ∀ k, Kernel.Run s k → k.ClockSafe ∧ k.TickKeeps := by
  intro hall
  have hrun : Kernel.Run qemuState
      ⟨(pageManagerInit (Kernel.boot qemuState).vm).2, true, 0#16⟩ :=
    .next .pageManagerInit (.start rfl) trivial rfl
  have hsafe := (clockSafe_iff _).mp (hall _ _ _ _ bootPmm_qemuState _ hrun).1
  rw [Kernel.vm_mk] at hsafe
  exact hsafe.2 _ directory_qemu ⟨by decide, by decide⟩

end SplongleOS
