import SplongleOS.Base.Simulation
import SplongleOS.BootTables
import SplongleOS.PageMapping
set_option autoImplicit false

/-! What paging is for: a finite map from pages to frames. The entries of page.c refine it. -/

namespace SplongleOS
open Simulation

abbrev AddressSpace := Nat → Option Nat

def AddressSpace.boot : AddressSpace := fun page =>
  if page < 0x400 then some (page * 4096)
  else if 0xC0000 ≤ page ∧ page < 0xC0400 then some ((page - 0xC0000) * 4096 + 0x100000)
  else none

inductive AddressSpace.Next : AddressSpace → VmCall × Bool → AddressSpace → Prop where
  | map (A : AddressSpace) (phys virt : BitVec 32) :
      Next A (.mapPage phys virt, true)
        (Function.update A (virt.toNat / 4096) (some (phys.toNat / 4096 * 4096)))
  | noTable (A : AddressSpace) (phys virt : BitVec 32) :
      (∀ page, page / 1024 = virt.toNat / 0x400000 → A page = none) →
      Next A (.mapPage phys virt, false) A
  | unmap (A : AddressSpace) (virt : BitVec 32) :
      Next A (.unmapPage virt, true) (Function.update A (virt.toNat / 4096) none)
  | free (A : AddressSpace) (virt : BitVec 32) : A (virt.toNat / 4096) ≠ none →
      Next A (.freePage virt, true) (Function.update A (virt.toNat / 4096) none)
  | fault (A : AddressSpace) (badAddr ec : BitVec 32) (frame : Nat) :
      ec &&& 1#32 = 0#32 → ec &&& 4#32 = 0#32 → frame ≠ 0 → frame % 4096 = 0 →
      Next A (.fault badAddr ec, true) (Function.update A (badAddr.toNat / 4096) (some frame))
  | write (A : AddressSpace) (address value : BitVec 32) : Next A (.write address value, true) A

def Vm.answer (s : Vm) : VmCall → Bool
  | .mapPage phys virt => (mapPage s phys.toNat virt.toNat).1
  | _ => true

/-- The directory translates as the map says, and the page structures are in order. -/
structure Vm.Refines (s : Vm) (A : AddressSpace) : Prop where
  spread : s.Spread
  page : ∀ virt < 0x100000000, s.walk virt = A (virt / 4096)

variable {s t : Vm} {A : AddressSpace} {virt : Nat}

theorem Vm.Refines.update (h : s.Refines A) (hc : Changed s t virt) {f : Option Nat}
    (hwalk : t.walk virt = f) : t.Refines (Function.update A (virt / 4096) f) where
  spread := hc.spread
  page v hv := by
    by_cases hpage : v / 4096 = virt / 4096
    · rw [hpage, Function.update_self, ← hwalk, ← walk_page, hpage, walk_page]
    · rw [Function.update_of_ne hpage, hc.others v hv hpage, h.page v hv]

theorem Vm.Refines.same (h : s.Refines A) (hsame : SameEntries s t) (ht : t.Tables) : t.Refines A where
  spread := hsame.spread ht h.spread
  page v hv := (hsame.walk v).trans (h.page v hv)

theorem Vm.Refines.mapPage (h : s.Refines A) (phys virt : BitVec 32) :
    ∃ A', A.Next (.mapPage phys virt, (SplongleOS.mapPage s phys.toNat virt.toNat).1) A' ∧
      (SplongleOS.mapPage s phys.toNat virt.toNat).2.Refines A' := by
  have hres := mapPage_result h.spread.toTables phys.isLt virt.isLt
  generalize SplongleOS.mapPage s phys.toNat virt.toNat = r at hres ⊢
  cases hres with
  | outOfMemory hnot _ hsame ht =>
    refine ⟨A, .noTable A phys virt fun page hpage => ?_, h.same hsame ht⟩
    have hindex : pdIndex (page * 4096) = pdIndex virt.toNat := by
      rw [pdIndex_eq, pdIndex_eq]
      omega
    have hlt : page * 4096 < 0x100000000 := by
      have hvirt := virt.isLt
      omega
    have hwalk := h.page (page * 4096) hlt
    rw [Nat.mul_div_cancel _ (by decide)] at hwalk
    rw [← hwalk, walk_eq, hindex, if_neg hnot]
  | mapped hm => exact ⟨_, .map A phys virt, h.update (hm.changed h.spread) hm.walk⟩

theorem Vm.Refines.fault {badAddr ec : BitVec 32} (h : s.Refines A)
    (hs : pfHandler s badAddr ec = some t) :
    ∃ A', A.Next (.fault badAddr ec, true) A' ∧ t.Refines A' := by
  obtain ⟨hmissing, hkernel, hne, hmap⟩ := pfHandler_inv hs
  have hone := allocate_one h.spread.max
  have hsame := h.spread.sameEntries hone (allocate_currentPD s 1)
  have hu := h.same hsame (hsame.tables (after_oneBlock h.spread.toReady hone) h.spread.toTables)
  obtain ⟨hal, hlt⟩ := allocate_aligned 1 h.spread.max
  have hres := mapPage_result hu.spread.toTables hlt (show faultPage badAddr < _ from BitVec.isLt _)
  rw [hmap] at hres
  cases hres with
  | mapped hm =>
    refine ⟨_, .fault A badAddr ec _ hmissing hkernel hne hal, ?_⟩
    rw [← faultPage_page]
    refine hu.update (hm.changed hu.spread) ?_
    rw [hm.walk, Nat.div_mul_cancel (Nat.dvd_of_mod_eq_zero hal)]

theorem Vm.Refines.step (c : VmCall) (h : s.Refines A) (hok : s.Sound c) (hs : s.step c = some t) :
    ∃ A', A.Next (c, s.answer c) A' ∧ t.Refines A' := by
  cases c with
  | mapPage phys virt =>
    obtain rfl := Option.some.inj hs
    exact h.mapPage phys virt
  | unmapPage virt =>
    obtain rfl := Option.some.inj hs
    obtain ⟨hc, hwalk⟩ := unmapPage_changed h.spread virt.isLt
    exact ⟨_, .unmap A virt, h.update hc hwalk⟩
  | freePage virt =>
    cases hw : s.walk virt.toNat with
    | none =>
      rw [Vm.step, if_pos hw] at hs
      contradiction
    | some f =>
      rw [Vm.step, if_neg (by rw [hw]; exact Option.some_ne_none f)] at hs
      obtain rfl := Option.some.inj hs
      obtain ⟨hc, hwalk⟩ := freePage_changed h.spread virt.isLt hw (hok f hw)
      refine ⟨_, .free A virt ?_, h.update hc hwalk⟩
      rw [← h.page _ virt.isLt, hw]
      exact Option.some_ne_none f
  | fault badAddr ec => exact h.fault hs
  | write address value =>
    obtain rfl := Option.some.inj hs
    obtain ⟨hsame, hafter⟩ := h.spread.storeAway hok.1 hok.2 value
    exact ⟨A, .write A address value, h.same hsame (hsame.tables hafter h.spread.toTables)⟩

theorem refines_of_init {s0 s1 : Vm} (hready : s0.Ready) (hinit : pageManagerInit s0 = (true, s1)) :
    s1.Refines AddressSpace.boot where
  spread := (inv_of_init hready hinit).spread
  page v hv := by
    have hmaps := pageManagerInit_maps hready hinit
    rw [AddressSpace.boot]
    by_cases hlow : v / 4096 < 0x400
    · rw [if_pos hlow, hmaps.low v (by omega)]
    · rw [if_neg hlow]
      by_cases hhigh : 0xC0000 ≤ v / 4096 ∧ v / 4096 < 0xC0400
      · obtain ⟨w, rfl⟩ : ∃ w, v = 0xC0000000 + w := ⟨v - 0xC0000000, by omega⟩
        have hframe : ((0xC0000000 + w) / 4096 - 0xC0000) * 4096 + 0x100000 =
            0x100000 + w / 4096 * 4096 := by omega
        rw [if_pos hhigh, hmaps.high w (by omega), hframe]
      · have hindex := pdIndex_eq v
        rw [if_neg hhigh, walk_eq,
          if_neg (not_isPresent_of_init hready hinit (pdIndex_lt v) (by omega) (by omega))]

/-- Whatever is mapped, unmapped, freed and faulted in after `Page_Manager_Init`, and whatever
the calls answer, there is a run of the finite map with the same answers, and the processor
translates every address as it says. What is freed is no page structure, and other code writes
off the bitmap and the structures. -/
theorem paging_refines_map {s0 s1 s : Vm} {calls : List (VmCall × Bool)} (hready : s0.Ready)
    (hinit : pageManagerInit s0 = (true, s1))
    (hcalls : Calls Vm.step Vm.Sound (fun s c => (c, s.answer c)) s1 calls s) :
    ∃ A, Path AddressSpace.Next AddressSpace.boot calls A ∧
      ∀ virt : BitVec 32, s.translate virt.toNat =
        (A (virt.toNat / 4096)).map fun frame => frame + virt.toNat % 4096 := by
  obtain ⟨A, hpath, hA⟩ := hcalls.simulate
    (fun _ A c _ h hok hs => Vm.Refines.step (A := A) c h hok hs) (refines_of_init hready hinit)
  refine ⟨A, hpath, fun virt => ?_⟩
  rw [Vm.translate, hA.page _ virt.isLt]

theorem paging_refines_map_small : ∃ s1, pageManagerInit smallMachine = (true, s1) ∧
    ∃ A, Path AddressSpace.Next AddressSpace.boot
        [(.mapPage 0x5000#32 0x3000#32, s1.answer (.mapPage 0x5000#32 0x3000#32)),
          (.unmapPage 0x3000#32, true)] A ∧
      ∀ virt : BitVec 32, (unmapPage (mapPage s1 0x5000 0x3000).2 0x3000).translate virt.toNat =
        (A (virt.toNat / 4096)).map fun frame => frame + virt.toNat % 4096 := by
  obtain ⟨s1, hinit, _⟩ := pageManagerInit_small
  have hfirst : s1.Sound (.mapPage 0x5000#32 0x3000#32) := trivial
  have hsecond : Vm.Sound (mapPage s1 0x5000 0x3000).2 (.unmapPage 0x3000#32) := trivial
  have hmap : Calls Vm.step Vm.Sound (fun s c => (c, s.answer c)) s1 _
      (mapPage s1 0x5000 0x3000).2 := .snoc _ (.nil s1) hfirst rfl
  exact ⟨s1, hinit, paging_refines_map ready_smallMachine hinit (.snoc _ hmap hsecond rfl)⟩

end SplongleOS
