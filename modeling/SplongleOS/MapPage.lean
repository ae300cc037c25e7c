import SplongleOS.PageInit
set_option autoImplicit false

/-! `map_page` on any frame: what it does to the directory, the tables and the other
pages. -/

namespace SplongleOS
open WordMemory

theorem getLsbD_frameMask (i : Nat) (hi : i < 32) :
    (~~~0xFFFFF000#32).getLsbD i = decide (i < 12) := by
  have h : ∀ j < 32, (~~~0xFFFFF000#32).getLsbD j = decide (j < 12) := by decide
  exact h i hi

/-- SET_FRAME with an address that is not aligned still sets the frame it lies in. -/
theorem pagePhysAddr_setFrame_any (e : BitVec 32) {a : Nat} (ha : a < 0x100000000) :
    pagePhysAddr (setFrame e a) = a / 4096 * 4096 := by
  have hword : pagePhysAddr (setFrame e a) = pagePhysAddr (BitVec.ofNat 32 a) := by
    refine pagePhysAddr_congr fun i hi => ?_
    by_cases hlt : i < 32
    · have hhigh : ¬i < 12 := by omega
      rw [setFrame, BitVec.getLsbD_or, BitVec.getLsbD_and, getLsbD_frameMask i hlt]
      simp [hhigh]
    · rw [BitVec.getLsbD_of_ge _ _ (by omega), BitVec.getLsbD_of_ge _ _ (by omega)]
  rw [hword, pagePhysAddr_eq, BitVec.toNat_ofNat, Nat.mod_eq_of_lt ha]

theorem isPresent_setFrame_any (e : BitVec 32) (a : Nat) :
    IsPresent (setFrame (setAttr e present) a) := by
  rw [isPresent_iff, setFrame, BitVec.getLsbD_or, BitVec.getLsbD_and, getLsbD_frameMask 0 (by decide),
    getLsbD_setAttr_present]
  simp

theorem getPage_eq (s : Vm) (virt : Nat) :
    getPage s virt = entryAddr (pagePhysAddr (s.pde (pdIndex virt))) (ptIndex virt) := rfl

/-- The entries after `map_page` returned true. -/
structure MapDone (s t : Vm) (phys virt : Nat) : Prop where
  tables : t.Tables
  dir : t.currentPD = s.currentPD
  pde : ∀ k < 1024, t.pde k = s.pde k ∨ (k = pdIndex virt ∧ ¬IsPresent (s.pde k) ∧
    IsPresent (t.pde k) ∧ pagePhysAddr (t.pde k) = (s.allocate 1).1 ∧ (s.allocate 1).1 ≠ 0)
  walk : t.walk virt = some (phys / 4096 * 4096)
  others : ∀ v < 0x100000000, v / 4096 ≠ virt / 4096 → t.walk v = s.walk v
  after : After s t

inductive MapResult (s : Vm) (phys virt : Nat) : Bool × Vm → Prop where
  | outOfMemory {t : Vm} : ¬IsPresent (s.pde (pdIndex virt)) → (s.allocate 1).1 = 0 →
      SameEntries s t → t.Tables → MapResult s phys virt (false, t)
  | mapped {t : Vm} : MapDone s t phys virt → MapResult s phys virt (true, t)

theorem TableLinked.tables {s t : Vm} {i b : Nat} (hl : TableLinked s t i b) (h : s.Tables)
    (hb : s.Held b) (hfresh : s.NoTable b) : t.Tables := by
  have hframe : ∀ k < 1024, IsPresent (t.pde k) →
      (k = i ∧ pagePhysAddr (t.pde k) = b) ∨ (k ≠ i ∧ IsPresent (s.pde k) ∧ t.pde k = s.pde k) := by
    intro k hk hp
    by_cases hki : k = i
    · exact Or.inl ⟨hki, hki ▸ hl.frame⟩
    · have hpde := hl.pde k hk hki
      exact Or.inr ⟨hki, hpde ▸ hp, hpde⟩
  refine ⟨h.toReady.after hl.after, hl.dir ▸ h.dirHeld.after hl.after, ?_, ?_, ?_⟩
  · intro k hk hp
    rcases hframe k hk hp with ⟨_, hf⟩ | ⟨_, hps, hpde⟩
    · exact hf ▸ hb.after hl.after
    · exact hpde ▸ (h.tableHeld k hk hps).after hl.after
  · intro k hk hp
    rw [hl.dir]
    rcases hframe k hk hp with ⟨_, hf⟩ | ⟨_, hps, hpde⟩
    · exact hf ▸ hfresh.ne_dir
    · exact hpde ▸ h.table_ne_dir k hk hps
  · intro k hk l hlt hp hp' heq
    rcases hframe k hk hp with ⟨hki, hf⟩ | ⟨_, hps, hpde⟩ <;>
      rcases hframe l hlt hp' with ⟨hli, hf'⟩ | ⟨_, hps', hpde'⟩
    · exact hki.trans hli.symm
    · rw [hf, hpde'] at heq
      exact absurd heq.symm (hfresh.ne_table l hlt hps')
    · rw [hf', hpde] at heq
      exact absurd heq (hfresh.ne_table k hk hps)
    · rw [hpde, hpde'] at heq
      exact h.table_inj k hk l hlt hps hps' heq

theorem PteWritten.tables {s t : Vm} {i j : Nat} {v : BitVec 32} (hw : PteWritten s t i j v)
    (h : s.Tables) : t.Tables where
  toReady := h.toReady.after hw.after
  dirHeld := hw.dir ▸ h.dirHeld.after hw.after
  tableHeld k hk hp := by
    rw [hw.pde k hk] at hp ⊢
    exact (h.tableHeld k hk hp).after hw.after
  table_ne_dir k hk hp := by
    rw [hw.pde k hk] at hp ⊢
    exact hw.dir ▸ h.table_ne_dir k hk hp
  table_inj k hk l hl hp hp' := by
    rw [hw.pde k hk] at hp ⊢
    rw [hw.pde l hl] at hp' ⊢
    exact h.table_inj k hk l hl hp hp'

theorem Vm.Tables.noTable {s t : Vm} {a : Nat} (h : s.Tables) (hone : OneBlock s.pmm a t.pmm)
    (ha : a ≠ 0) : s.NoTable a where
  ne_dir := (ne_of_checkBlock h.dirHeld.used (hone.free ha)).symm
  ne_table i hi hp := ne_of_checkBlock (h.tableHeld i hi hp).used (hone.free ha)

theorem Vm.Tables.setPage {s : Vm} {phys virt : Nat} (h : s.Tables) (hphys : phys < 0x100000000)
    (hvirt : virt < 0x100000000) (hp : IsPresent (s.pde (pdIndex virt))) :
    MapDone s (setPage s (entryAddr s.currentPD (pdIndex virt)) phys virt) phys virt := by
  rw [setPage_eq]
  have hw := h.writePte (pdIndex_lt virt) (ptIndex_lt virt) hp
    (setFrame (setAttr (s.pte (pdIndex virt) (ptIndex virt)) present) phys)
  refine ⟨hw.tables h, hw.dir, fun k hk => Or.inl (hw.pde k hk), ?_,
    fun v hv hne => hw.walk_of_ne hvirt hv hne, hw.after⟩
  rw [hw.walk hp, if_pos (isPresent_setFrame_any _ _), pagePhysAddr_setFrame_any _ hphys]

theorem mapTable_result {s : Vm} {phys virt : Nat} {r : Nat × Vm} (h : s.Tables)
    (hphys : phys < 0x100000000) (hvirt : virt < 0x100000000)
    (hnot : ¬IsPresent (s.pde (pdIndex virt))) (hone : OneBlock s.pmm r.1 r.2.pmm)
    (hpd : r.2.currentPD = s.currentPD) (hr : (s.allocate 1).1 = r.1) :
    MapResult s phys virt (mapTable (entryAddr s.currentPD (pdIndex virt)) phys virt r) := by
  obtain ⟨b, u⟩ := r
  dsimp only at hone hpd hr
  have hsame := h.sameEntries hone hpd
  have hafter := after_oneBlock h.toReady hone
  have hu := hsame.tables hafter h
  unfold mapTable
  by_cases hz : b = 0
  · rw [if_pos hz]
    exact .outOfMemory hnot (hr.trans hz) hsame hu
  · rw [if_neg hz, ← hpd]
    change MapResult s phys virt (true, setPage (u.addTable (pdIndex virt) b)
      (entryAddr u.currentPD (pdIndex virt)) phys virt)
    have hi := pdIndex_lt virt
    have hb := h.toReady.held_of_taken hone hz
    have hold := h.noTable hone hz
    have hfresh : u.NoTable b := by
      refine ⟨hsame.dir ▸ hold.ne_dir, fun k hk hp => ?_⟩
      rw [hsame.pde k hk] at hp ⊢
      exact hold.ne_table k hk hp
    have hl := hu.addTable hi hb hfresh
    have hdone := (hl.tables hu hb hfresh).setPage hphys hvirt hl.isPresent
    rw [hl.dir] at hdone
    have hnotu : ¬IsPresent (u.pde (pdIndex virt)) := by rwa [hsame.pde _ hi]
    refine .mapped ⟨hdone.tables, hdone.dir.trans (hl.dir.trans hsame.dir), fun k hk => ?_, hdone.walk,
      fun v hv hne => ?_, ?_⟩
    · rcases hdone.pde k hk with heq | ⟨hk', hno, _⟩
      · by_cases hki : k = pdIndex virt
        · subst hki
          rw [heq, hr]
          exact Or.inr ⟨rfl, hnot, hl.isPresent, hl.frame, hz⟩
        · exact Or.inl (heq.trans ((hl.pde k hk hki).trans (hsame.pde k hk)))
      · exact absurd hl.isPresent (hk' ▸ hno)
    · exact (hdone.others v hv hne).trans ((hl.walk hnotu v).trans (hsame.walk v))
    · exact hafter.trans (hl.after.trans hdone.after)

theorem mapPage_result {s : Vm} {phys virt : Nat} (h : s.Tables) (hphys : phys < 0x100000000)
    (hvirt : virt < 0x100000000) : MapResult s phys virt (mapPage s phys virt) := by
  by_cases hp : IsPresent (s.pde (pdIndex virt))
  · rw [mapPage_present hp]
    exact .mapped (h.setPage hphys hvirt hp)
  · rw [mapPage_absent hp]
    exact mapTable_result h hphys hvirt hp (allocate_one h.max) (allocate_currentPD s 1) rfl

end SplongleOS
