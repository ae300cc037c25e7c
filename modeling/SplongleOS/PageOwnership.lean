import SplongleOS.Base.Runs
import SplongleOS.PageTables
set_option autoImplicit false

/-! Which frames a family of page-table entries holds while `allocate_page` and
`free_page` run on it. `free_page` looks at the frame bits and clears only the present
bit, so an entry remembers the frame it gave back. -/

namespace SplongleOS
open WordMemory

def Vm.Present (s : Vm) (page : Nat) : Prop := s.load page &&& present ≠ 0#32

instance (s : Vm) (page : Nat) : Decidable (s.Present page) :=
  inferInstanceAs (Decidable (s.load page &&& present ≠ 0#32))

def Vm.frame (s : Vm) (page : Nat) : Nat := pagePhysAddr (s.load page)

inductive PageCall where
  | allocatePage (page : Nat)
  | freePage (page : Nat)

def Vm.pageStep (pages : List Nat) (s : Vm) : PageCall → Option Vm
  | .allocatePage page =>
    if page ∈ pages ∧ ¬s.Present page then some (allocatePage s page).2 else none
  | .freePage page => if page ∈ pages then some (freePage s page) else none

/-- A page is freed when it is present, when it never had a frame, or when no present
page holds the frame it remembers. -/
def Vm.FreeSound (pages : List Nat) (s : Vm) : PageCall → Prop
  | .allocatePage _ => True
  | .freePage page => s.Present page ∨ s.frame page = 0 ∨
      ∀ q ∈ pages, s.Present q → s.frame q ≠ s.frame page

/-- A family of entries the manager knows nothing of, none of them used yet. -/
structure FreshPages (pages : List Nat) (s : Vm) : Prop where
  max : s.pmm.maxBlocks ≤ 0x100000
  aligned : ∀ p ∈ pages, p % 4 = 0
  outside : ∀ p ∈ pages, ¬s.pmm.InBitmap (p / 4)
  notPresent : ∀ p ∈ pages, ¬s.Present p
  noFrame : ∀ p ∈ pages, s.frame p = 0

structure Vm.PagesInv (pages : List Nat) (s : Vm) : Prop where
  max : s.pmm.maxBlocks ≤ 0x100000
  aligned : ∀ p ∈ pages, p % 4 = 0
  outside : ∀ p ∈ pages, ¬s.pmm.InBitmap (p / 4)
  managed : ∀ p ∈ pages, s.frame p ≠ 0 → s.frame p / 4096 < s.pmm.maxBlocks
  hasFrame : ∀ p ∈ pages, s.Present p → s.frame p ≠ 0
  used : ∀ p ∈ pages, s.Present p → checkBlock s.pmm (s.frame p / 4096) = true
  distinct : ∀ p ∈ pages, ∀ q ∈ pages, p ≠ q → s.Present p → s.Present q → s.frame p ≠ s.frame q

theorem pagesInv_of_fresh {pages : List Nat} {s : Vm} (h : FreshPages pages s) :
    s.PagesInv pages where
  max := h.max
  aligned := h.aligned
  outside := h.outside
  managed p hp hne := absurd (h.noFrame p hp) hne
  hasFrame p hp hpres := absurd hpres (h.notPresent p hp)
  used p hp hpres := absurd hpres (h.notPresent p hp)
  distinct p hp _ _ _ hpres _ := absurd hpres (h.notPresent p hp)

theorem frame_aligned (s : Vm) (p : Nat) : s.frame p % 4096 = 0 := by
  rw [Vm.frame, pagePhysAddr_eq]
  omega

theorem frame_lt (s : Vm) (p : Nat) : s.frame p < 0x100000000 := by
  have hlt := (s.load p).isLt
  rw [Vm.frame, pagePhysAddr_eq]
  omega

theorem present_iff (s : Vm) (p : Nat) : s.Present p ↔ (s.load p).getLsbD 0 = true := by
  rw [Vm.Present, ne_eq, and_present_eq_zero, Bool.not_eq_false]

theorem frame_congr {s t : Vm} {p : Nat} (h : t.load p = s.load p) : t.frame p = s.frame p := by
  rw [Vm.frame, h, Vm.frame]

theorem present_congr {s t : Vm} {p : Nat} (h : t.load p = s.load p) :
    t.Present p ↔ s.Present p := by
  rw [Vm.Present, h, Vm.Present]

theorem Vm.PagesInv.mono {pages : List Nat} {s t : Vm} (h : s.PagesInv pages)
    (hmax : t.pmm.maxBlocks = s.pmm.maxBlocks) (hmap : t.pmm.memoryMap = s.pmm.memoryMap)
    (hload : ∀ p ∈ pages, t.load p = s.load p)
    (hkeep : ∀ p ∈ pages, s.Present p → checkBlock s.pmm (s.frame p / 4096) = true →
      checkBlock t.pmm (s.frame p / 4096) = true) : t.PagesInv pages where
  max := hmax ▸ h.max
  aligned := h.aligned
  outside p hp := (inBitmap_congr hmax hmap _).not.mpr (h.outside p hp)
  managed p hp := by
    rw [frame_congr (hload p hp), hmax]
    exact h.managed p hp
  hasFrame p hp := by
    rw [present_congr (hload p hp), frame_congr (hload p hp)]
    exact h.hasFrame p hp
  used p hp := by
    rw [present_congr (hload p hp), frame_congr (hload p hp)]
    exact fun hpres => hkeep p hp hpres (h.used p hp hpres)
  distinct p hp q hq := by
    rw [present_congr (hload p hp), frame_congr (hload p hp), present_congr (hload q hq),
      frame_congr (hload q hq)]
    exact h.distinct p hp q hq

theorem Vm.PagesInv.unmap {pages : List Nat} {s : Vm} {p : Nat} {v : BitVec 32}
    (h : s.PagesInv pages) (hp : p ∈ pages) (hpres : v.getLsbD 0 = false)
    (hframe : pagePhysAddr v = s.frame p) : (s.store p v).PagesInv pages := by
  have hload : ∀ q ∈ pages, q ≠ p → (s.store p v).load q = s.load q := by
    intro q hq hne
    have hap := h.aligned p hp
    have haq := h.aligned q hq
    rw [load_store, if_neg (by omega)]
  have hself : (s.store p v).load p = v := by rw [load_store, if_pos rfl]
  have hnot : ¬(s.store p v).Present p := by
    rw [present_iff, hself, hpres]
    simp
  have hfr : (s.store p v).frame p = s.frame p := by rw [Vm.frame, hself, hframe]
  have hne : ∀ q, (s.store p v).Present q → q ≠ p := fun q hq heq => hnot (heq ▸ hq)
  refine ⟨h.max, h.aligned, h.outside, ?_, ?_, ?_, ?_⟩
  · intro q hq
    by_cases heq : q = p
    · rw [heq, hfr]
      exact h.managed p hp
    · rw [frame_congr (hload q hq heq)]
      exact h.managed q hq
  · intro q hq hq'
    rw [frame_congr (hload q hq (hne q hq'))]
    exact h.hasFrame q hq ((present_congr (hload q hq (hne q hq'))).mp hq')
  · intro q hq hq'
    have hqs := (present_congr (hload q hq (hne q hq'))).mp hq'
    rw [frame_congr (hload q hq (hne q hq')),
      checkBlock_store v (h.outside p hp) (h.managed q hq (h.hasFrame q hq hqs))]
    exact h.used q hq hqs
  · intro q hq r hr hqr hq' hr'
    rw [frame_congr (hload q hq (hne q hq')), frame_congr (hload r hr (hne r hr'))]
    exact h.distinct q hq r hr hqr ((present_congr (hload q hq (hne q hq'))).mp hq')
      ((present_congr (hload r hr (hne r hr'))).mp hr')

/-- Giving the frame of an entry back as the entry is cleared. The entry is cleared first
here; `free_page` frees the block first, which is the same to every other entry. -/
theorem Vm.PagesInv.giveBack {pages : List Nat} {s t : Vm} {p : Nat} {v : BitVec 32}
    (h : s.PagesInv pages) (hp : p ∈ pages) (hpres : v.getLsbD 0 = false)
    (hframe : pagePhysAddr v = s.frame p) (hne : s.frame p ≠ 0)
    (ht : t.pmm = freeBlocks s.pmm (s.frame p) 1)
    (hothers : ∀ q ∈ pages, q ≠ p → s.Present q → s.frame q ≠ s.frame p) :
    (t.store p v).PagesInv pages := by
  have hblock := h.managed p hp hne
  have hbound := h.max
  have hmax : t.pmm.maxBlocks = s.pmm.maxBlocks := by rw [ht, freeBlocks_maxBlocks]
  have hmap : t.pmm.memoryMap = s.pmm.memoryMap := by rw [ht, freeBlocks_memoryMap]
  have hload : ∀ q ∈ pages, t.load q = s.load q := by
    intro q hq
    rw [Vm.load, ht]
    exact freeBlocks_mem hbound (by omega) (h.outside q hq)
  refine (h.unmap hp hpres hframe).mono hmax hmap ?_ ?_
  · intro q hq
    rw [load_store, load_store, hload q hq]
  · intro q hq hq' hused
    have hqp : q ≠ p := by
      intro heq
      rw [heq, present_iff, load_store, if_pos rfl, hpres] at hq'
      exact absurd hq' (by decide)
    have hqs : (s.store p v).load q = s.load q := by
      have hap := h.aligned p hp
      have haq := h.aligned q hq
      rw [load_store, if_neg (by omega)]
    have hpq := (present_congr hqs).mp hq'
    have hdiff := hothers q hq hqp hpq
    have halp := frame_aligned s p
    have halq := frame_aligned s q
    have hmq := h.managed q hq (h.hasFrame q hq hpq)
    rw [frame_congr hqs] at hused ⊢
    rw [checkBlock_store v (h.outside p hp) hmq] at hused
    have hout : ¬t.pmm.InBitmap (p / 4) := (inBitmap_congr hmax hmap _).not.mpr (h.outside p hp)
    rw [checkBlock_store v hout (by omega), ht, checkBlock_freeBlocks _ (by omega) (by omega)]
    exact ⟨by omega, hused⟩

theorem Vm.PagesInv.map {pages : List Nat} {s : Vm} {p a : Nat} {v : BitVec 32}
    (h : s.PagesInv pages) (hp : p ∈ pages) (hframe : pagePhysAddr v = a) (ha : a ≠ 0)
    (hmanaged : a / 4096 < s.pmm.maxBlocks) (hused : checkBlock s.pmm (a / 4096) = true)
    (hfresh : ∀ q ∈ pages, s.Present q → s.frame q ≠ a) : (s.store p v).PagesInv pages := by
  have hload : ∀ q ∈ pages, q ≠ p → (s.store p v).load q = s.load q := by
    intro q hq hne
    have hap := h.aligned p hp
    have haq := h.aligned q hq
    rw [load_store, if_neg (by omega)]
  have hfr : (s.store p v).frame p = a := by rw [Vm.frame, load_store, if_pos rfl, hframe]
  have hout := h.outside p hp
  refine ⟨h.max, h.aligned, h.outside, ?_, ?_, ?_, ?_⟩
  · intro q hq
    by_cases heq : q = p
    · rw [heq, hfr]
      exact fun _ => hmanaged
    · rw [frame_congr (hload q hq heq)]
      exact h.managed q hq
  · intro q hq hq'
    by_cases heq : q = p
    · rw [heq, hfr]
      exact ha
    · rw [frame_congr (hload q hq heq)]
      exact h.hasFrame q hq ((present_congr (hload q hq heq)).mp hq')
  · intro q hq hq'
    by_cases heq : q = p
    · rw [heq, hfr, checkBlock_store v hout hmanaged]
      exact hused
    · have hqs := (present_congr (hload q hq heq)).mp hq'
      rw [frame_congr (hload q hq heq),
        checkBlock_store v hout (h.managed q hq (h.hasFrame q hq hqs))]
      exact h.used q hq hqs
  · intro q hq r hr hqr hq' hr'
    by_cases heq : q = p
    · have hrp : r ≠ p := fun hrp => hqr (heq.trans hrp.symm)
      have hrs := (present_congr (hload r hr hrp)).mp hr'
      rw [heq, hfr, frame_congr (hload r hr hrp)]
      exact (hfresh r hr hrs).symm
    · have hqs := (present_congr (hload q hq heq)).mp hq'
      rw [frame_congr (hload q hq heq)]
      by_cases hrp : r = p
      · rw [hrp, hfr]
        exact hfresh q hq hqs
      · rw [frame_congr (hload r hr hrp)]
        exact h.distinct q hq r hr hqr hqs ((present_congr (hload r hr hrp)).mp hr')

theorem Vm.PagesInv.mapBlock {pages : List Nat} {s : Vm} {page : Nat} {block : Nat × Vm}
    (h : s.PagesInv pages) (hp : page ∈ pages) (hone : OneBlock s.pmm block.1 block.2.pmm) :
    (mapBlock page block).2.PagesInv pages := by
  obtain ⟨a, t⟩ := block
  have hload : ∀ q ∈ pages, t.load q = s.load q := fun q hq => hone.mem _ (h.outside q hq)
  have ht : t.PagesInv pages := by
    refine h.mono hone.maxBlocks hone.memoryMap hload fun q hq hpres hused => ?_
    exact hone.keep _ (by have hlt := frame_lt s q; omega) hused
  unfold SplongleOS.mapBlock
  by_cases ha : a = 0
  · rw [if_pos ha]
    exact ht
  · rw [if_neg ha]
    refine ht.map hp ?_ ha (hone.maxBlocks ▸ hone.managed ha) (hone.taken ha) fun q hq hpres heq => ?_
    · rw [pagePhysAddr_setAttr_present, pagePhysAddr_setFrame _ hone.aligned hone.fits]
    · have hqs := (present_congr (hload q hq)).mp hpres
      rw [frame_congr (hload q hq)] at heq
      have hused := h.used q hq hqs
      rw [heq] at hused
      exact Bool.noConfusion (hused.symm.trans (hone.free ha))

theorem Vm.PagesInv.allocatePage {pages : List Nat} {s : Vm} {page : Nat} (h : s.PagesInv pages)
    (hp : page ∈ pages) : (allocatePage s page).2.PagesInv pages :=
  h.mapBlock hp (allocate_one h.max)

theorem Vm.PagesInv.freePage {pages : List Nat} {s : Vm} {page : Nat} (h : s.PagesInv pages)
    (hp : page ∈ pages) (hsound : s.FreeSound pages (.freePage page)) :
    (freePage s page).PagesInv pages := by
  unfold SplongleOS.freePage
  by_cases hzero : s.frame page = 0
  · have hz : pagePhysAddr (s.load page) = 0 := hzero
    have hnot : ¬s.Present page := fun hpres => h.hasFrame page hp hpres hzero
    simp only [hz, ↓reduceIte]
    refine h.unmap hp ?_ (pagePhysAddr_clearAttr_present _)
    rw [getLsbD_clearAttr_present]
    rfl
  · have hz : ¬pagePhysAddr (s.load page) = 0 := hzero
    simp only [hz, ↓reduceIte]
    have hload : ({ s with pmm := freeBlocks s.pmm (pagePhysAddr (s.load page)) 1 } : Vm).load page =
        s.load page :=
      freeBlocks_mem h.max (h.managed page hp hzero) (h.outside page hp)
    refine h.giveBack hp ?_ ?_ hzero rfl ?_
    · rw [getLsbD_clearAttr_present]
      rfl
    · rw [pagePhysAddr_clearAttr_present, hload, Vm.frame]
    · intro q hq hne hq'
      rcases hsound with hpres | hno | hother
      · exact h.distinct q hq page hp hne hq' hpres
      · exact absurd hno hzero
      · exact hother q hq hq'

theorem Vm.PagesInv.step {pages : List Nat} {s s' : Vm} (c : PageCall) (h : s.PagesInv pages)
    (hsound : s.FreeSound pages c) (hs : s.pageStep pages c = some s') : s'.PagesInv pages := by
  cases c with
  | allocatePage page =>
    by_cases hp : page ∈ pages ∧ ¬s.Present page
    · rw [Vm.pageStep, if_pos hp] at hs
      exact Option.some.inj hs ▸ h.allocatePage hp.1
    · rw [Vm.pageStep, if_neg hp] at hs
      contradiction
  | freePage page =>
    by_cases hp : page ∈ pages
    · rw [Vm.pageStep, if_pos hp] at hs
      exact Option.some.inj hs ▸ h.freePage hp hsound
    · rw [Vm.pageStep, if_neg hp] at hs
      contradiction

/-- In a run that never frees a frame some other present page holds, present pages own
their frames. -/
theorem page_ownership {pages : List Nat} {s0 s : Vm} (hfresh : FreshPages pages s0)
    (h : Runs.Reach (Vm.pageStep pages) (Vm.FreeSound pages) (fun s => s = s0) s) :
    (∀ p ∈ pages, ∀ q ∈ pages, p ≠ q → s.Present p → s.Present q → s.frame p ≠ s.frame q) ∧
      ∀ p ∈ pages, s.Present p → checkBlock s.pmm (s.frame p / 4096) = true := by
  have hinv : s.PagesInv pages := Runs.Reach.invariant (I := fun s => s.PagesInv pages)
    (fun _ h => h ▸ pagesInv_of_fresh hfresh) (fun _ c _ hi hok hs => hi.step c hok hs) h
  exact ⟨hinv.distinct, hinv.used⟩

def smallVm : Vm :=
  ⟨⟨fun w => if w = 0xC000 then 0xFFFFFFF9#32 else 0#32, 0x30000, 32, 30, []⟩, 0, []⟩

theorem freshPages_smallVm : FreshPages [0x200000, 0x200004] smallVm where
  max := by decide
  aligned := by decide
  outside := by decide
  notPresent := by decide
  noFrame := by decide

theorem allocatePage_eq {s : Vm} {b : Nat} (page : Nat) (hmax : s.pmm.maxBlocks ≤ 0x100000)
    (hcount : 1 ≤ freeCount s.pmm) (h : Settles s.pmm 1 b) : allocatePage s page =
      mapBlock page (s.handOut 1 (b * 4096 % 0x100000000, takeBlocks s.pmm 1 b)) := by
  rw [allocatePage, Vm.allocate,
    allocateBlocks_eq hmax hcount (by decide) ((settles_iff _ (by decide) (by decide) b).mp h)]

def withBlockOne (s : Vm) (page : Nat) : Vm :=
  (mapBlock page (s.handOut 1 (0x1000, takeBlocks s.pmm 1 1))).2

def freedTwice : Vm :=
  freePage (withBlockOne (freePage (withBlockOne smallVm 0x200000) 0x200000) 0x200004) 0x200000

theorem allocatePage_withBlockOne {s : Vm} (page : Nat) (hmax : s.pmm.maxBlocks ≤ 0x100000)
    (hcount : 1 ≤ freeCount s.pmm) (h : Settles s.pmm 1 1) :
    (allocatePage s page).2 = withBlockOne s page := by
  rw [allocatePage_eq page hmax hcount h]
  rfl

theorem run_freedTwice : Runs.Reach (Vm.pageStep [0x200000, 0x200004]) (fun _ _ => True)
    (fun s => s = smallVm) freedTwice := by
  have hone : smallVm.pageStep [0x200000, 0x200004] (.allocatePage 0x200000) =
      some (withBlockOne smallVm 0x200000) := by
    rw [Vm.pageStep, if_pos (by decide),
      allocatePage_withBlockOne _ (by decide) (by decide) (by unfold Settles Accepts; decide)]
  have htwo : (freePage (withBlockOne smallVm 0x200000) 0x200000).pageStep [0x200000, 0x200004]
      (.allocatePage 0x200004) =
        some (withBlockOne (freePage (withBlockOne smallVm 0x200000) 0x200000) 0x200004) := by
    rw [Vm.pageStep, if_pos (by decide),
      allocatePage_withBlockOne _ (by decide) (by decide) (by unfold Settles Accepts; decide)]
  have hfree : ∀ s : Vm, s.pageStep [0x200000, 0x200004] (.freePage 0x200000) =
      some (freePage s 0x200000) := by
    intro s
    rw [Vm.pageStep, if_pos (by decide)]
  exact .next _ (.next _ (.next _ (.next _ (.start rfl) trivial hone) trivial (hfree _)) trivial htwo)
    trivial (hfree _)

theorem page_ownership_small :
    (∀ p ∈ [0x200000, 0x200004], ∀ q ∈ [0x200000, 0x200004], p ≠ q →
        (withBlockOne smallVm 0x200000).Present p → (withBlockOne smallVm 0x200000).Present q →
        (withBlockOne smallVm 0x200000).frame p ≠ (withBlockOne smallVm 0x200000).frame q) ∧
      ∀ p ∈ [0x200000, 0x200004], (withBlockOne smallVm 0x200000).Present p →
        checkBlock (withBlockOne smallVm 0x200000).pmm
          ((withBlockOne smallVm 0x200000).frame p / 4096) = true :=
  page_ownership freshPages_smallVm
    (.next (.allocatePage 0x200000) (.start rfl) trivial (by
      rw [Vm.pageStep, if_pos (by decide),
        allocatePage_withBlockOne _ (by decide) (by decide) (by unfold Settles Accepts; decide)]))

theorem page_not_owned_freedTwice :
    ¬∀ (pages : List Nat) (s0 s : Vm), FreshPages pages s0 →
      Runs.Reach (Vm.pageStep pages) (fun _ _ => True) (fun s => s = s0) s →
      (∀ p ∈ pages, ∀ q ∈ pages, p ≠ q → s.Present p → s.Present q → s.frame p ≠ s.frame q) ∧
        ∀ p ∈ pages, s.Present p → checkBlock s.pmm (s.frame p / 4096) = true := by
  intro hall
  have hused := (hall _ _ _ freshPages_smallVm run_freedTwice).2 0x200004 (by decide) (by decide)
  exact absurd hused (by decide)

end SplongleOS
