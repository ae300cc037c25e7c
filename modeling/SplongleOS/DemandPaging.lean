import SplongleOS.Base.Runs
import SplongleOS.PageInit
set_option autoImplicit false

/-! Page faults: what `PFHandler` maps and what it leaves alone. -/

namespace SplongleOS
open WordMemory

/-- The frame of the entry is the one `Page_Manager_Init` gave it. The bits the processor
sets in an entry do not count. -/
def BootFrame (i j : Nat) (entry : BitVec 32) : Prop :=
  (i = 0 ∧ pagePhysAddr entry = j * 4096) ∨ (i = 768 ∧ pagePhysAddr entry = 0x100000 + j * 4096)

/-- The page fault at `virt` was served with `frame`. Present entries of the two maps of
`Page_Manager_Init` that still have their frame may name it too. -/
structure FaultServed (s s' : Vm) (virt frame : Nat) : Prop where
  walk : s'.walk virt = some frame
  wasFree : frame / 4096 < s.pmm.maxBlocks ∧ checkBlock s.pmm (frame / 4096) = false
  nowUsed : checkBlock s'.pmm (frame / 4096) = true
  notDirectory : s'.currentPD ≠ frame
  notTable : ∀ i < 1024, IsPresent (s'.pde i) → pagePhysAddr (s'.pde i) ≠ frame
  notPage : ∀ i < 1024, ∀ j < 1024, (i, j) ≠ (pdIndex virt, ptIndex virt) → IsPresent (s'.pde i) →
    IsPresent (s'.pte i j) → ¬BootFrame i j (s'.pte i j) → pagePhysAddr (s'.pte i j) ≠ frame
  asWritten : ∀ i < 1024, ∀ j < 1024, BootFrame i j (s'.pte i j) → BootEntry i j (s'.pte i j)
  others : ∀ v < 0x100000000, v / 4096 ≠ virt / 4096 → s'.walk v = s.walk v

theorem index_congr {v w : Nat} (h : v / 4096 = w / 4096) :
    pdIndex v = pdIndex w ∧ ptIndex v = ptIndex w := by
  rw [pdIndex_eq, pdIndex_eq, ptIndex_eq, ptIndex_eq]
  omega

theorem walk_page (s : Vm) (virt : Nat) : s.walk (virt / 4096 * 4096) = s.walk virt := by
  have hpage : virt / 4096 * 4096 / 4096 = virt / 4096 := by omega
  obtain ⟨hd, ht⟩ := index_congr hpage
  rw [walk_eq, hd, ht, ← walk_eq]

theorem FaultServed.congr {s s' : Vm} {v w frame : Nat} (hp : v / 4096 = w / 4096)
    (h : FaultServed s s' v frame) : FaultServed s s' w frame := by
  obtain ⟨hd, ht⟩ := index_congr hp
  refine ⟨?_, h.wasFree, h.nowUsed, h.notDirectory, h.notTable, ?_, h.asWritten,
    fun x hx hne => ?_⟩
  · have hw := h.walk
    rw [walk_eq, hd, ht, ← walk_eq] at hw
    exact hw
  · rw [← hd, ← ht]
    exact h.notPage
  · exact h.others x hx (hp ▸ hne)

structure SmallMap (s : Pmm) (lo : Nat) : Prop where
  maxBlocks : s.maxBlocks = 64
  map : s.memoryMap = 0x30000
  usedBlocks : s.usedBlocks = lo + 1
  status : ∀ b < 256, checkBlock s b = decide (b < lo ∨ b = 48)

def smallMachine : Vm :=
  ⟨⟨fun w => if w = 0xC000 then 1#32 else if w = 0xC001 then 0x10000#32 else 0#32, 0x30000, 64, 2, []⟩,
    0, []⟩

theorem smallMap_smallMachine : SmallMap smallMachine.pmm 1 where
  maxBlocks := rfl
  map := rfl
  usedBlocks := rfl
  status b hb := by
    have hall : ∀ i < 8, ∀ j < 32, checkBlock smallMachine.pmm (32 * i + j) =
      decide (32 * i + j < 1 ∨ 32 * i + j = 48) := by decide
    have h := hall (b / 32) (by omega) (b % 32) (by omega)
    rwa [show 32 * (b / 32) + b % 32 = b by omega] at h

theorem SmallMap.allocate {s : Pmm} {lo num : Nat} (h : SmallMap s lo) (hlo : 0 < lo)
    (hn : 0 < num) (hend : lo + num ≤ 48) (hstart : probeStart lo + (num + 1) ≤ 256)
    (hcount : num ≤ Nat.count (fun c => ¬(probeStart lo + c < lo ∨ probeStart lo + c = 48)) (num + 1)) :
    (allocateBlocks s num).1 = lo * 4096 ∧ SmallMap (allocateBlocks s num).2 (lo + num) := by
  have hmax := h.maxBlocks
  have hfree : ∀ b < 256, checkBlock s b = false ↔ ¬(b < lo ∨ b = 48) := by
    intro b hb
    rw [h.status b hb, decide_eq_false_iff_not]
  have hsettles : Settles s num lo := settles_of_status hfree (by decide) (by omega) (by omega)
    (by omega) (by omega) hcount hstart fun c hc hno => absurd (Or.inl hc) hno
  have hfreeCount : num ≤ freeCount s := by
    rw [freeCount, hmax, h.usedBlocks]
    omega
  rw [allocateBlocks_eq (by omega) hfreeCount hn ((settles_iff s hn (by omega) lo).mp hsettles)]
  refine ⟨Nat.mod_eq_of_lt (by omega), ?_, ?_, ?_, fun b hb => ?_⟩
  · rw [takeBlocks_maxBlocks, hmax]
  · rw [takeBlocks_memoryMap, h.map]
  · change (s.usedBlocks + num) % 0x100000000 = lo + num + 1
    rw [h.usedBlocks]
    omega
  · rw [Bool.eq_iff_iff, checkBlock_takeBlocks s (by omega) (by omega), h.status b hb,
      decide_eq_true_eq, decide_eq_true_eq]
    omega

theorem SmallMap.write {s t : Vm} {lo : Nat} (h : SmallMap s.pmm lo) (hsame : SameManager s t)
    (hwords : ∀ w, 0xC000 ≤ w → w < 0xC008 → t.pmm.mem w = s.pmm.mem w) : SmallMap t.pmm lo where
  maxBlocks := hsame.maxBlocks.trans h.maxBlocks
  map := hsame.memoryMap.trans h.map
  usedBlocks := hsame.usedBlocks.trans h.usedBlocks
  status b hb := by
    have hslot : s.pmm.slot (b / 32 : Nat) = 0xC000 + b / 32 := by
      rw [Pmm.slot, h.map]
      omega
    rw [checkBlock_congr (s := s.pmm) hsame.memoryMap (hwords _ (by omega) (by omega))]
    exact h.status b hb

theorem vm_allocate_small {s : Vm} {lo : Nat} (h : SmallMap s.pmm lo) (hlo : 0 < lo ∧ lo < 8) :
    (s.allocate 1).1 = lo * 4096 ∧ SmallMap (s.allocate 1).2.pmm (lo + 1) := by
  have hstart : ∀ k < 8, probeStart k + (1 + 1) ≤ 256 := by decide
  have hcount : ∀ k < 8, 1 ≤ Nat.count
      (fun c => ¬(probeStart k + c < k ∨ probeStart k + c = 48)) (1 + 1) := by decide
  rw [allocate_fst, allocate_pmm]
  exact h.allocate hlo.1 (by decide) (by omega) (hstart lo hlo.2) (hcount lo hlo.2)

theorem aligned_small {k : Nat} (h : k < 16) : Aligned (k * 4096) := ⟨by omega, by omega⟩

/-! A manager whose lowest free blocks are 1 to 5 gives them to `Page_Manager_Init`; `P lo`
holds when those below `lo` are gone, whatever is written below the bitmap. -/

section FirstBlocks

variable {P : Nat → Pmm → Prop}
  (hnext : ∀ (s : Vm) (lo : Nat), lo = 4 ∨ lo = 5 → P lo s.pmm →
    (s.allocate 1).1 = lo * 4096 ∧ P (lo + 1) (s.allocate 1).2.pmm)
  (hwrite : ∀ (s t : Vm) (lo : Nat), SameManager s t →
    (∀ w, 0xC000 ≤ w → t.pmm.mem w = s.pmm.mem w) → P lo s.pmm → P lo t.pmm)

include hwrite in
theorem initFromTable3G_first {r : Nat × Vm} (hr : r.1 = 5 * 4096) (h : P 6 r.2.pmm) :
    ∃ s', initFromTable3G (1 * 4096) (4 * 4096) r = (true, s') ∧ P 6 s'.pmm := by
  refine ⟨_, if_neg (by omega), ?_⟩
  rw [hr]
  exact hwrite _ _ 6 (sameManager_initTables _ _ _ _) (fun w hw => initTables_mem_of_outside _
    (aligned_small (by decide)) (aligned_small (by decide)) (aligned_small (by decide))
    (by omega) (by omega) (by omega)) h

include hnext hwrite in
theorem initFromTable_first {r : Nat × Vm} (hr : r.1 = 4 * 4096) (h : P 5 r.2.pmm) :
    ∃ s', initFromTable (1 * 4096) r = (true, s') ∧ P 6 s'.pmm := by
  obtain ⟨hblock, hmap⟩ := hnext r.2 5 (Or.inr rfl) h
  rw [initFromTable, if_neg (by omega), hr]
  exact initFromTable3G_first hwrite hblock hmap

include hnext hwrite in
theorem initFromDir_first {r : Nat × Vm} (hr : r.1 = 1 * 4096) (h : P 4 r.2.pmm) :
    ∃ s', initFromDir r = (true, s') ∧ P 6 s'.pmm := by
  have hdir : P 4 (initDirectory r.2 (1 * 4096)).pmm := by
    refine hwrite _ _ 4 (sameManager_initDirectory r.2 _) (fun w hw => ?_) h
    rw [initDirectory_mem r.2 (by decide) (by decide), if_neg (by omega)]
  obtain ⟨hblock, hmap⟩ := hnext _ 4 (Or.inl rfl) hdir
  rw [initFromDir, if_neg (by omega), hr]
  exact initFromTable_first hnext hwrite hblock hmap

include hnext hwrite in
theorem pageManagerInit_first {s : Vm} (hs : (s.allocate 3).1 = 1 * 4096)
    (h : P 4 (s.allocate 3).2.pmm) : ∃ s', pageManagerInit s = (true, s') ∧ P 6 s'.pmm :=
  initFromDir_first hnext hwrite hs h

end FirstBlocks

theorem pageManagerInit_small :
    ∃ s', pageManagerInit smallMachine = (true, s') ∧ SmallMap s'.pmm 6 := by
  have hfirst : (allocateBlocks smallMachine.pmm 3).1 = 1 * 4096 ∧
      SmallMap (allocateBlocks smallMachine.pmm 3).2 (1 + 3) :=
    smallMap_smallMachine.allocate (by decide) (by decide) (by decide) (by decide) (by decide)
  rw [← allocate_fst, ← allocate_pmm] at hfirst
  refine pageManagerInit_first (P := fun lo s => SmallMap s lo) (fun s lo hlo h => ?_)
    (fun s t lo hsame hwords h => h.write hsame fun w hw _ => hwords w hw) hfirst.1 hfirst.2
  exact vm_allocate_small h (by omega)

theorem ready_smallMachine : smallMachine.Ready where
  max := by decide
  map := rfl
  bitmapUsed b hlt hb := by
    rw [bitmapBlock_iff] at hb
    have hmax : smallMachine.pmm.maxBlocks = 64 := rfl
    have h48 : b = 48 := by omega
    rw [smallMap_smallMachine.status b (by omega), h48]
    rfl

end SplongleOS
