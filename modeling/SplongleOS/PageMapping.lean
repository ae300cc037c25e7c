import SplongleOS.PageAddressing
import SplongleOS.Tlb
set_option autoImplicit false

/-! The effect of `map_page` and of `unmap_page` on memory and on the pages, from any state
a run leaves. -/

namespace SplongleOS
open WordMemory

variable {s t : Vm} {virt : Nat}

/-- The calls that change mappings, and `write`, what the rest of the kernel does to its
own memory. -/
inductive VmCall where
  | mapPage (phys virt : BitVec 32)
  | unmapPage (virt : BitVec 32)
  | freePage (virt : BitVec 32)
  | fault (badAddr ec : BitVec 32)
  | write (address : BitVec 32) (value : BitVec 32)

def Vm.step (s : Vm) : VmCall → Option Vm
  | .mapPage phys virt => some (SplongleOS.mapPage s phys.toNat virt.toNat).2
  | .unmapPage virt => some (SplongleOS.unmapPage s virt.toNat)
  | .freePage virt =>
    if s.walk virt.toNat = none then none else some (SplongleOS.freePage s (getPage s virt.toNat))
  | .fault badAddr ec => pfHandler s badAddr ec
  | .write address value => some (s.store address.toNat value)

/-- No page structure is freed, and the bitmap and the structures are written by the
managers only. -/
def Vm.Sound (s : Vm) : VmCall → Prop
  | .mapPage _ _ | .unmapPage _ | .fault _ _ => True
  | .freePage virt => ∀ f, s.walk virt.toNat = some f → s.Freeable f
  | .write address _ => ¬BitmapBlock s.pmm.maxBlocks (address.toNat / 4096) ∧
      s.NoTable (address.toNat / 4096 * 4096)

theorem Vm.Spread.mapPage {phys : Nat} (h : s.Spread) (hphys : phys < 0x100000000)
    (hvirt : virt < 0x100000000) : (SplongleOS.mapPage s phys virt).2.Spread := by
  have hres := mapPage_result h.toTables hphys hvirt
  generalize SplongleOS.mapPage s phys virt = r at hres ⊢
  cases hres with
  | outOfMemory _ _ hsame ht => exact hsame.spread ht h
  | mapped hm => exact (hm.changed h).spread

theorem Vm.Spread.fault {badAddr ec : BitVec 32} (h : s.Spread) (hs : pfHandler s badAddr ec = some t) :
    t.Spread := by
  obtain ⟨_, _, _, hmap⟩ := pfHandler_inv hs
  have hone := allocate_one h.max
  have hsame := h.sameEntries hone (allocate_currentPD s 1)
  have hu := hsame.spread (hsame.tables (after_oneBlock h.toReady hone) h.toTables) h
  have hspread := hu.mapPage (allocate_aligned 1 h.max).2 (show faultPage badAddr < _ from BitVec.isLt _)
  rwa [hmap] at hspread

theorem Vm.Spread.step (c : VmCall) (h : s.Spread) (hok : s.Sound c) (hs : s.step c = some t) :
    t.Spread := by
  cases c with
  | mapPage phys virt => exact Option.some.inj hs ▸ h.mapPage phys.isLt virt.isLt
  | unmapPage virt => exact Option.some.inj hs ▸ (unmapPage_changed h virt.isLt).1.spread
  | freePage virt =>
    cases hw : s.walk virt.toNat with
    | none =>
      rw [Vm.step, if_pos hw] at hs
      contradiction
    | some f =>
      rw [Vm.step, if_neg (by rw [hw]; exact Option.some_ne_none f)] at hs
      exact Option.some.inj hs ▸ (freePage_changed h virt.isLt hw (hok f hw)).1.spread
  | fault badAddr ec => exact h.fault hs
  | write address value =>
    obtain ⟨hsame, hafter⟩ := h.storeAway hok.1 hok.2 value
    exact Option.some.inj hs ▸ hsame.spread (hsame.tables hafter h.toTables) h

theorem not_isPresent_of_init {s0 s1 : Vm} (hready : s0.Ready)
    (hinit : pageManagerInit s0 = (true, s1)) {k : Nat} (hk : k < 1024) (h0 : k ≠ 0)
    (h768 : k ≠ 768) : ¬IsPresent (s1.pde k) := by
  obtain ⟨_, _, _, _, hframes, _, rfl⟩ := pageManagerInit_inv hready hinit
  intro hp
  rcases hframes.entries.pde_isPresent hk hp with ⟨hzero, _⟩ | ⟨hhigh, _⟩
  · exact h0 hzero
  · exact h768 hhigh

end SplongleOS
