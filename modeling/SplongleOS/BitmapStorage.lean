import SplongleOS.BlockStatus
set_option autoImplicit false

/-! Whether boot reserves the blocks the bitmap itself lies in. kernel_main rounds the
size of the bitmap down twice, to whole bytes and to whole blocks, so only a partial
last block is left to what the memory map says about it. -/

namespace SplongleOS
open WordMemory

/-- Block `b` contains a byte of the bitmap of `maxBlocks` blocks at MEMMAP_AREA. -/
def BitmapBlock (maxBlocks b : Nat) : Prop :=
  ∃ x, 0x30000 ≤ x ∧ x < 0x30000 + (maxBlocks + 7) / 8 ∧ x / 4096 = b

theorem bitmapBlock_iff (maxBlocks b : Nat) :
    BitmapBlock maxBlocks b ↔ 48 ≤ b ∧ 4096 * b < 0x30000 + (maxBlocks + 7) / 8 := by
  constructor
  · rintro ⟨x, hlo, hhi, rfl⟩
    omega
  · rintro ⟨hlo, hhi⟩
    exact ⟨4096 * b, by omega, hhi, by omega⟩

def lastBitmapBlock (maxBlocks : Nat) : Nat := 48 + maxBlocks / 32768

theorem bitmapBlock_cases {total b : Nat} (ht : total < 0x10000000000000000)
    (hb : BitmapBlock (managedBlocks total) b) :
    KernelBlock total b ∨
      (managedBlocks total % 32768 ≠ 0 ∧ b = lastBitmapBlock (managedBlocks total)) := by
  rw [bitmapBlock_iff] at hb
  unfold managedBlocks lastBitmapBlock at *
  by_cases hlast : b < 48 + regionBlocks 0x30000 (total / 4096 / 8)
  · exact Or.inl (Or.inr ⟨hb.1, hlast⟩)
  · right
    unfold regionBlocks clipSize at hlast
    split at hlast <;> omega

theorem lastBitmapBlock_not_kernel {total : Nat} (ht : total < 0x10000000000000000)
    (hpart : managedBlocks total % 32768 ≠ 0) :
    BitmapBlock (managedBlocks total) (lastBitmapBlock (managedBlocks total)) ∧
      ¬KernelBlock total (lastBitmapBlock (managedBlocks total)) := by
  rw [bitmapBlock_iff]
  unfold KernelBlock managedBlocks lastBitmapBlock regionBlocks clipSize at *
  split <;> omega

/-- Boot reserves every block of the bitmap exactly when the bitmap fills whole blocks
(the managed memory is a multiple of 128 MB) or the map leaves its last block used. -/
theorem bitmap_reserved_iff {buf : Nat → BitVec 8} {mbinfo : MultibootInfo} {mem : Mem} {s : Pmm}
    {es : List MmapEntry} (hes : mmapEntries buf mbinfo = some es)
    (hs : bootPmm buf mbinfo mem = some s) :
    (∀ b, BitmapBlock s.maxBlocks b → checkBlock s b = true) ↔
      managedBlocks (bootTotal mbinfo es) % 32768 = 0 ∨
        ¬LeftFree mem (bootTotal mbinfo es) es
          (lastBitmapBlock (managedBlocks (bootTotal mbinfo es))) := by
  obtain ⟨_, hes', rfl⟩ := bootPmm_eq_some.mp hs
  obtain rfl : es = _ := Option.some.inj (hes.symm.trans hes')
  have ht := bootTotal_lt mbinfo es
  have hmax := managedBlocks_le (bootTotal mbinfo es)
  rw [bootState_maxBlocks]
  constructor
  · intro hall
    by_cases hpart : managedBlocks (bootTotal mbinfo es) % 32768 = 0
    · exact Or.inl hpart
    · right
      intro hfree
      obtain ⟨hbit, hnk⟩ := lastBitmapBlock_not_kernel ht hpart
      have hused := hall _ hbit
      have hunused := (checkBlock_bootState_eq_false mem es ht
        (by unfold lastBitmapBlock; omega)).mpr ⟨hnk, hfree⟩
      rw [hused] at hunused
      contradiction
  · intro hcond b hb
    have hlt : b < 0x100000 := by
      rw [bitmapBlock_iff] at hb
      omega
    by_contra hne
    obtain ⟨hnk, hfree⟩ :=
      (checkBlock_bootState_eq_false mem es ht hlt).mp (Bool.not_eq_true _ ▸ hne)
    rcases bitmapBlock_cases ht hb with hk | ⟨hpart, rfl⟩
    · exact hnk hk
    · rcases hcond with hzero | hused
      · exact hpart hzero
      · exact hused hfree

theorem bitmap_reserved_iff_qemu :
    (∀ b, BitmapBlock (bootState (fun _ => 0#32) 0x1FFF0000 qemuMap).maxBlocks b →
        checkBlock (bootState (fun _ => 0#32) 0x1FFF0000 qemuMap) b = true) ↔
      managedBlocks (bootTotal (mapInfo qemuMap) qemuMap) % 32768 = 0 ∨
        ¬LeftFree (fun _ => 0#32) (bootTotal (mapInfo qemuMap) qemuMap) qemuMap
          (lastBitmapBlock (managedBlocks (bootTotal (mapInfo qemuMap) qemuMap))) :=
  bitmap_reserved_iff (mmapEntries_encodeMap (by decide) (by decide)) (bootPmm_qemuMap _)

/-- On the 512 MB machine of run_hdd.sh block 51 holds the end of the bitmap and is free. -/
theorem bitmap_not_reserved_qemu :
    ¬∀ (buf : Nat → BitVec 8) (mbinfo : MultibootInfo) (mem : Mem) (s : Pmm),
      bootPmm buf mbinfo mem = some s → ∀ b, BitmapBlock s.maxBlocks b → checkBlock s b = true := by
  intro hall
  have hused := hall _ _ _ _ (bootPmm_qemuMap fun _ => 0#32) 51 (by
    rw [bootState_maxBlocks, bitmapBlock_iff]
    decide)
  have hfree := (checkBlock_qemuMap (fun _ => 0#32) (b := 51) (by omega)).mpr (by omega)
  exact Bool.noConfusion (hused.symm.trans hfree)

end SplongleOS
