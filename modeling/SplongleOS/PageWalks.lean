import SplongleOS.BootTables
set_option autoImplicit false

/-! `get_pde` and `get_pte`, one after the other, beside `get_page` and `map_page`. They
take the entry of the directory at PT_INDEX where the others take the one at PD_INDEX. -/

namespace SplongleOS

/-- Neither pointer is null, the entry reached is that of `get_page`, and it is the word
`map_page` writes. -/
structure WalksAgree (s : Vm) (phys virt : Nat) : Prop where
  entry : ∃ pde, getPde s.currentPD virt = some pde ∧
    getPte (pagePhysAddr (s.load pde)) virt = some (getPage s virt)
  written : ∃ v, mapPage s phys virt = (true, s.store (getPage s virt) v)

theorem pagePhysAddr_aligned (e : BitVec 32) : Aligned (pagePhysAddr e) := by
  have hlt := e.isLt
  rw [pagePhysAddr_eq]
  exact ⟨by omega, by omega⟩

theorem entryAddr_inj {f g j : Nat} (hf : Aligned f) (hg : Aligned g) (hj : j < 1024) :
    entryAddr f j = entryAddr g j ↔ f = g := by
  rw [entryAddr_eq hf.1 hf.2 hj, entryAddr_eq hg.1 hg.2 hj]
  omega

theorem getPde_eq_some {pd virt pde : Nat} :
    getPde pd virt = some pde ↔ pd ≠ 0 ∧ entryAddr pd (ptIndex virt) = pde := by
  by_cases h : pd = 0 <;> simp [getPde, h]

theorem getPte_eq_some {pt virt pte : Nat} :
    getPte pt virt = some pte ↔ pt ≠ 0 ∧ entryAddr pt (ptIndex virt) = pte := by
  by_cases h : pt = 0 <;> simp [getPte, h]

theorem mapPage_getPage {s : Vm} {virt : Nat} (phys : Nat) (hp : IsPresent (s.pde (pdIndex virt))) :
    ∃ v, mapPage s phys virt = (true, s.store (getPage s virt) v) := by
  rw [mapPage_present hp, setPage_eq]
  exact ⟨_, rfl⟩

theorem walk_getPage_iff (s : Vm) (virt : Nat) :
    (∃ pde, getPde s.currentPD virt = some pde ∧
      getPte (pagePhysAddr (s.load pde)) virt = some (getPage s virt)) ↔
    s.currentPD ≠ 0 ∧ pagePhysAddr (s.pde (ptIndex virt)) ≠ 0 ∧
      pagePhysAddr (s.pde (ptIndex virt)) = pagePhysAddr (s.pde (pdIndex virt)) := by
  have hinj := entryAddr_inj (pagePhysAddr_aligned (s.pde (ptIndex virt)))
    (pagePhysAddr_aligned (s.pde (pdIndex virt))) (ptIndex_lt virt)
  constructor
  · rintro ⟨_, hpde, hpte⟩
    obtain ⟨hdir, rfl⟩ := getPde_eq_some.mp hpde
    obtain ⟨htable, heq⟩ := getPte_eq_some.mp hpte
    exact ⟨hdir, htable, hinj.mp heq⟩
  · rintro ⟨hdir, htable, heq⟩
    exact ⟨_, getPde_eq_some.mpr ⟨hdir, rfl⟩, getPte_eq_some.mpr ⟨htable, hinj.mpr heq⟩⟩

/-- The two ways agree exactly when there is a directory and its entry at PT_INDEX names
a frame, the one that the entry at PD_INDEX names. -/
theorem page_walks_agree_iff {s : Vm} (phys virt : BitVec 32)
    (hp : IsPresent (s.pde (pdIndex virt.toNat))) : WalksAgree s phys.toNat virt.toNat ↔
      s.currentPD ≠ 0 ∧ pagePhysAddr (s.pde (ptIndex virt.toNat)) ≠ 0 ∧
        pagePhysAddr (s.pde (ptIndex virt.toNat)) = pagePhysAddr (s.pde (pdIndex virt.toNat)) := by
  rw [← walk_getPage_iff]
  exact ⟨fun h => h.entry, fun h => ⟨h, mapPage_getPage phys.toNat hp⟩⟩

theorem bootEntries_small : ∃ t a b c, BootEntries t a b c ∧
    pageManagerInit smallMachine = (true, initTables t a b c) := by
  obtain ⟨s, hinit, _⟩ := pageManagerInit_small
  obtain ⟨t, a, b, c, hentries, rfl⟩ :=
    pageManagerInit_entries (by decide) offStorage_small hinit
  exact ⟨t, a, b, c, hentries, hinit⟩

theorem page_walks_agree_small : ∃ s, pageManagerInit smallMachine = (true, s) ∧
    (WalksAgree s (0x5000#32).toNat (0x2000#32).toNat ↔
      s.currentPD ≠ 0 ∧ pagePhysAddr (s.pde (ptIndex (0x2000#32).toNat)) ≠ 0 ∧
        pagePhysAddr (s.pde (ptIndex (0x2000#32).toNat)) =
          pagePhysAddr (s.pde (pdIndex (0x2000#32).toNat))) := by
  obtain ⟨t, a, b, c, hentries, hinit⟩ := bootEntries_small
  have hindex : pdIndex (0x2000#32).toNat = 0 := by decide
  have hp : IsPresent ((initTables t a b c).pde (pdIndex (0x2000#32).toNat)) := by
    rw [hindex, hentries.pde (by decide), if_pos rfl]
    exact linked_isPresent _ hentries.table3GAligned
  exact ⟨_, hinit, page_walks_agree_iff 0x5000#32 0x2000#32 hp⟩

theorem page_walks_differ : ∃ s, pageManagerInit smallMachine = (true, s) ∧
    IsPresent (s.pde (pdIndex (0xC0000000#32).toNat)) ∧
    ¬WalksAgree s (0x5000#32).toNat (0xC0000000#32).toNat := by
  obtain ⟨t, a, b, c, hentries, hinit⟩ := bootEntries_small
  have h768 : pdIndex (0xC0000000#32).toNat = 768 := by decide
  have h0 : ptIndex (0xC0000000#32).toNat = 0 := by decide
  have hb := hentries.tableAligned
  have hc := hentries.table3GAligned
  have hkernel : (initTables t a b c).pde 768 = setFrame (setAttr 0x2#32 (present ||| readWrite)) b := by
    rw [hentries.pde (by decide), if_neg (by decide), if_pos rfl]
  have hlow : (initTables t a b c).pde 0 = setFrame (setAttr 0x2#32 (present ||| readWrite)) c := by
    rw [hentries.pde (by decide), if_pos rfl]
  refine ⟨_, hinit, ?_, fun h => ?_⟩
  · rw [h768, hkernel]
    exact linked_isPresent _ hb
  · obtain ⟨_, _, heq⟩ := (walk_getPage_iff _ _).mp h.entry
    rw [h768, h0, hkernel, hlow, pagePhysAddr_setFrame _ hb.1 hb.2,
      pagePhysAddr_setFrame _ hc.1 hc.2] at heq
    exact hentries.table_ne_table3G heq.symm

end SplongleOS
