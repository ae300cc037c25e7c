import SplongleOS.Base.Lookaside
import SplongleOS.Base.Runs
import SplongleOS.DemandPaging
import SplongleOS.MapPage
set_option autoImplicit false

/-! The translations the processor caches while mappings change. `map_page` flushes the
page it mapped and `set_pd` loads CR3; `unmap_page` and `free_page` flush nothing. The
functions reach the directory and the tables through pages mapped to themselves. -/

namespace SplongleOS
open WordMemory

/-- Memory and the cached translations, each a page and the frame it had. -/
structure Mmu where
  vm : Vm
  tlb : List (Nat × Nat)

def Vm.translation (s : Vm) (page : Nat) : Option Nat := s.walk (page * 4096)

def Mmu.access (m : Mmu) (virt : Nat) : Mmu :=
  { m with tlb := Lookaside.fill m.vm.translation (virt / 4096) m.tlb }

def Mmu.reachEntry (m : Mmu) (virt : Nat) : Mmu :=
  (m.access (entryAddr m.vm.currentPD (pdIndex virt))).access (getPage m.vm virt)

def Mmu.flushTlbEntry (m : Mmu) (virt : Nat) : Mmu :=
  { m with tlb := Lookaside.flush (virt / 4096) m.tlb }

inductive MmuCall where
  | mapPage (phys virt : BitVec 32)
  | unmapPage (virt : BitVec 32)
  | freePage (virt : BitVec 32)
  | setPD (pd : BitVec 32)
  | access (virt : BitVec 32)

def Mmu.mapped (m : Mmu) (virt : Nat) : Bool × Vm → Mmu
  | (true, s) => (({ m with vm := s } : Mmu).reachEntry virt).flushTlbEntry virt
  | (false, s) => { m with vm := s }

def Mmu.mapPage (m : Mmu) (phys virt : Nat) : Mmu :=
  (m.access (entryAddr m.vm.currentPD (pdIndex virt))).mapped virt (SplongleOS.mapPage m.vm phys virt)

def Mmu.unmapPage (m : Mmu) (virt : Nat) : Mmu :=
  { m.reachEntry virt with vm := SplongleOS.unmapPage m.vm virt }

def Mmu.freePage (m : Mmu) (virt : Nat) : Mmu :=
  { m.reachEntry virt with vm := SplongleOS.freePage m.vm (getPage m.vm virt) }

def Mmu.setPD (m : Mmu) (pd : Nat) : Mmu :=
  match SplongleOS.setPD m.vm pd with
  | (true, s) => ⟨s, []⟩
  | (false, s) => { m with vm := s }

def Mmu.step (m : Mmu) : MmuCall → Option Mmu
  | .mapPage phys virt => some (m.mapPage phys.toNat virt.toNat)
  | .unmapPage virt => some (m.unmapPage virt.toNat)
  | .freePage virt => if m.vm.walk virt.toNat = none then none else some (m.freePage virt.toNat)
  | .setPD pd => some (m.setPD pd.toNat)
  | .access virt => some (m.access virt.toNat)

/-- No page has a cached translation the directory does not give. -/
def Mmu.Coherent (m : Mmu) : Prop := ∀ e ∈ m.tlb, m.vm.walk (e.1 * 4096) = some e.2

/-- The structures lie apart from block 0, which an entry without a table names. -/
structure Vm.Spread (s : Vm) : Prop extends Vm.Tables s where
  dir_ne_zero : s.currentPD ≠ 0
  table_ne_zero : ∀ i < 1024, IsPresent (s.pde i) → pagePhysAddr (s.pde i) ≠ 0
  blank : ∀ i < 1024, ¬IsPresent (s.pde i) → pagePhysAddr (s.pde i) = 0

def Vm.Freeable (s : Vm) (f : Nat) : Prop :=
  f = 0 ∨ (f / 4096 < s.pmm.maxBlocks ∧ ¬BitmapBlock s.pmm.maxBlocks (f / 4096) ∧ s.NoTable f)

/-- A page is unmapped or freed while it is not cached, and what is freed is no page
structure; a directory is switched to when its tables lie apart. -/
def Mmu.Sound (m : Mmu) : MmuCall → Prop
  | .mapPage _ _ | .access _ => True
  | .unmapPage virt => ¬Lookaside.Cached (m.reachEntry virt.toNat).tlb (virt.toNat / 4096)
  | .freePage virt => ¬Lookaside.Cached (m.reachEntry virt.toNat).tlb (virt.toNat / 4096) ∧
      ∀ f, m.vm.walk virt.toNat = some f → m.vm.Freeable f
  | .setPD pd => pd = 0#32 ∨ ({ m.vm with currentPD := pd.toNat } : Vm).Spread

theorem store_store (s : Vm) (a : Nat) (v w : BitVec 32) : (s.store a v).store a w = s.store a w := by
  simp only [Vm.store, Function.update_idem]

theorem load_store_self (s : Vm) (a : Nat) (v : BitVec 32) : (s.store a v).load a = v := by
  rw [load_store, if_pos rfl]

theorem unmapPage_eq (s : Vm) (virt : Nat) : unmapPage s virt = s.store (getPage s virt)
    (clearAttr (setFrame (s.load (getPage s virt)) 0) present) := by
  rw [unmapPage, load_store_self, store_store]

theorem not_isPresent_clearAttr (e : BitVec 32) : ¬IsPresent (clearAttr e present) := by
  rw [isPresent_iff, getLsbD_clearAttr_present]
  simp

/-- What `map_page`, `unmap_page` and `free_page` all leave alone. -/
structure Changed (s t : Vm) (virt : Nat) : Prop where
  spread : t.Spread
  others : ∀ v < 0x100000000, v / 4096 ≠ virt / 4096 → t.walk v = s.walk v

variable {s t : Vm} {virt : Nat}

theorem SameEntries.spread (hsame : SameEntries s t) (ht : t.Tables) (h : s.Spread) : t.Spread where
  toTables := ht
  dir_ne_zero := hsame.dir ▸ h.dir_ne_zero
  table_ne_zero i hi hp := by
    rw [hsame.pde i hi] at hp ⊢
    exact h.table_ne_zero i hi hp
  blank i hi hp := by
    rw [hsame.pde i hi] at hp ⊢
    exact h.blank i hi hp

theorem SameEntries.changed (hsame : SameEntries s t) (ht : t.Tables) (h : s.Spread) :
    Changed s t virt :=
  ⟨hsame.spread ht h, fun v _ _ => hsame.walk v⟩

theorem PteWritten.spread {i j : Nat} {v : BitVec 32} (hw : PteWritten s t i j v) (h : s.Spread) :
    t.Spread where
  toTables := hw.tables h.toTables
  dir_ne_zero := hw.dir ▸ h.dir_ne_zero
  table_ne_zero i hi hp := by
    rw [hw.pde i hi] at hp ⊢
    exact h.table_ne_zero i hi hp
  blank i hi hp := by
    rw [hw.pde i hi] at hp ⊢
    exact h.blank i hi hp

theorem MapDone.changed {phys : Nat} (hm : MapDone s t phys virt) (h : s.Spread) :
    Changed s t virt where
  others := hm.others
  spread := by
    refine ⟨hm.tables, hm.dir ▸ h.dir_ne_zero, fun k hk hp => ?_, fun k hk hp => ?_⟩
    · rcases hm.pde k hk with heq | ⟨_, _, _, hframe, hne⟩
      · rw [heq] at hp ⊢
        exact h.table_ne_zero k hk hp
      · exact hframe ▸ hne
    · rcases hm.pde k hk with heq | ⟨_, _, hpres, _⟩
      · rw [heq] at hp ⊢
        exact h.blank k hk hp
      · exact absurd hpres hp

theorem Vm.Spread.storeZero {j : Nat} (h : s.Spread) (hj : j < 1024) (v : BitVec 32) :
    SameEntries s (s.store (entryAddr 0 j) v) ∧ After s (s.store (entryAddr 0 j) v) := by
  have haligned : Aligned 0 := ⟨rfl, by decide⟩
  have hblock : entryAddr 0 j / 4096 = 0 := entryAddr_page haligned hj
  have hno : s.NoTable (entryAddr 0 j / 4096 * 4096) := by
    rw [hblock]
    exact ⟨h.dir_ne_zero.symm, h.table_ne_zero⟩
  refine h.storeAway ?_ hno v
  have hmax := h.max
  rw [hblock, bitmapBlock_iff]
  omega

theorem unmapPage_changed (h : s.Spread) (hvirt : virt < 0x100000000) :
    Changed s (unmapPage s virt) virt ∧ (unmapPage s virt).walk virt = none := by
  rw [unmapPage_eq, getPage_eq]
  have hi := pdIndex_lt virt
  have hj := ptIndex_lt virt
  by_cases hp : IsPresent (s.pde (pdIndex virt))
  · have hw := h.writePte hi hj hp
      (clearAttr (setFrame (s.load (getPage s virt)) 0) present)
    refine ⟨⟨hw.spread h, fun v hv hne => hw.walk_of_ne hvirt hv hne⟩, ?_⟩
    exact (hw.walk hp).trans (if_neg (not_isPresent_clearAttr _))
  · rw [h.blank _ hi hp]
    obtain ⟨hsame, hafter⟩ := h.storeZero hj (clearAttr (setFrame (s.load (entryAddr 0 (ptIndex virt))) 0) present)
    refine ⟨hsame.changed (hsame.tables hafter h.toTables) h, ?_⟩
    rw [hsame.walk, walk_eq, if_neg hp]

theorem Vm.Spread.freeFrame {f : Nat} (h : s.Spread) (hf : f % 4096 = 0) (hfree : s.Freeable f)
    (hne : f ≠ 0) : SameEntries s { s with pmm := freeBlocks s.pmm f 1 } ∧
      ({ s with pmm := freeBlocks s.pmm f 1 } : Vm).Spread := by
  rcases hfree with hz | ⟨hlt, hbit, hno⟩
  · exact absurd hz hne
  · have hmax := h.max
    have hkeep : ∀ b < s.pmm.maxBlocks, b ≠ f / 4096 → checkBlock s.pmm b = true →
        checkBlock (freeBlocks s.pmm f 1) b = true := by
      intro b hb hbf hused
      rw [checkBlock_freeBlocks _ (by omega) (by omega)]
      exact ⟨by omega, hused⟩
    generalize ht : ({ s with pmm := freeBlocks s.pmm f 1 } : Vm) = t
    have hpmm : t.pmm = freeBlocks s.pmm f 1 := by rw [← ht]
    have hdir : t.currentPD = s.currentPD := by rw [← ht]
    have hmaxBlocks : t.pmm.maxBlocks = s.pmm.maxBlocks := by rw [hpmm, freeBlocks_maxBlocks]
    have hmap : t.pmm.memoryMap = s.pmm.memoryMap := by rw [hpmm, freeBlocks_memoryMap]
    have hload : ∀ {g l}, s.Held g → l < 1024 → t.load (entryAddr g l) = s.load (entryAddr g l) := by
      intro g l hg hl
      rw [Vm.load, hpmm]
      exact freeBlocks_mem h.max (by omega) (entry_outside h.map h.max hg hl)
    have hpde : ∀ k < 1024, t.pde k = s.pde k := by
      intro k hk
      rw [Vm.pde, hdir]
      exact hload h.dirHeld hk
    have hsame : SameEntries s t := by
      refine ⟨hdir, hpde, fun k hk l hl hp => ?_⟩
      rw [Vm.pte, hpde k hk]
      exact hload (h.tableHeld k hk hp) hl
    have hheld : ∀ g, s.Held g → g ≠ f → t.Held g := by
      intro g hg hgf
      have hal := hg.aligned.1
      refine hg.mono hmaxBlocks fun hused => ?_
      rw [hpmm]
      exact hkeep _ hg.managed (by omega) hused
    have hready : t.Ready := by
      refine ⟨hmaxBlocks ▸ h.max, hmap.trans h.map, fun b hb hbb => ?_⟩
      rw [hmaxBlocks] at hb hbb
      rw [hpmm]
      exact hkeep b hb (fun heq => hbit (heq ▸ hbb)) (h.bitmapUsed b hb hbb)
    refine ⟨hsame, hsame.spread ⟨hready, hdir ▸ hheld _ h.dirHeld hno.ne_dir.symm, ?_, ?_, ?_⟩ h⟩
    · intro k hk hp
      rw [hpde k hk] at hp ⊢
      exact hheld _ (h.tableHeld k hk hp) (hno.ne_table k hk hp)
    · intro k hk hp
      rw [hpde k hk] at hp ⊢
      exact hdir ▸ h.table_ne_dir k hk hp
    · intro k hk l hl hp hp'
      rw [hpde k hk] at hp ⊢
      rw [hpde l hl] at hp' ⊢
      exact h.table_inj k hk l hl hp hp'

theorem walk_of_page {f : Nat} (h : s.walk virt = some f) :
    IsPresent (s.pde (pdIndex virt)) ∧ pagePhysAddr (s.load (getPage s virt)) = f := by
  obtain ⟨hp, _, hf⟩ := walk_eq_some h
  exact ⟨hp, hf⟩

theorem clearPresent_changed {u : Vm} (hsame : SameEntries s u) (hu : u.Spread)
    (hvirt : virt < 0x100000000) (hp : IsPresent (s.pde (pdIndex virt))) (v : BitVec 32)
    (hv : ¬IsPresent v) :
    Changed s (u.store (getPage s virt) v) virt ∧ (u.store (getPage s virt) v).walk virt = none := by
  have hi := pdIndex_lt virt
  rw [getPage_eq, ← hsame.pde _ hi]
  have hpu : IsPresent (u.pde (pdIndex virt)) := by rwa [hsame.pde _ hi]
  have hw := hu.writePte hi (ptIndex_lt virt) hpu v
  refine ⟨⟨hw.spread hu, fun w hlt hne => ?_⟩, (hw.walk hpu).trans (if_neg hv)⟩
  exact (hw.walk_of_ne hvirt hlt hne).trans (hsame.walk w)

theorem freePage_changed {f : Nat} (h : s.Spread) (hvirt : virt < 0x100000000)
    (hwalk : s.walk virt = some f) (hfree : s.Freeable f) :
    Changed s (freePage s (getPage s virt)) virt ∧
      (freePage s (getPage s virt)).walk virt = none := by
  obtain ⟨hp, hf⟩ := walk_of_page hwalk
  have hal : f % 4096 = 0 := by
    rw [← hf, pagePhysAddr_eq]
    omega
  unfold freePage
  rw [hf]
  by_cases hz : f = 0
  · simp only [hz, ↓reduceIte]
    exact clearPresent_changed ⟨rfl, fun _ _ => rfl, fun _ _ _ _ _ => rfl⟩ h hvirt hp _
      (not_isPresent_clearAttr _)
  · simp only [hz, ↓reduceIte]
    obtain ⟨hsame, hu⟩ := h.freeFrame hal hfree hz
    exact clearPresent_changed hsame hu hvirt hp _ (not_isPresent_clearAttr _)

structure Mmu.Inv (m : Mmu) : Prop where
  spread : m.vm.Spread
  coherent : Lookaside.Coherent m.tlb m.vm.translation
  pages : ∀ e ∈ m.tlb, e.1 < 0x100000

theorem Mmu.Inv.access {m : Mmu} (h : m.Inv) {virt : Nat} (hvirt : virt < 0x100000000) :
    (m.access virt).Inv where
  spread := h.spread
  coherent := h.coherent.fill _
  pages e he := by
    rcases Lookaside.mem_fill.mp he with ⟨hk, _⟩ | hmem
    · omega
    · exact h.pages e hmem

theorem entryAddr_lt (table i : Nat) : entryAddr table i < 0x100000000 := by
  rw [entryAddr]
  omega

theorem Mmu.Inv.reachEntry {m : Mmu} (h : m.Inv) (virt : Nat) : (m.reachEntry virt).Inv :=
  (h.access (entryAddr_lt _ _)).access (entryAddr_lt _ _)

structure Mmu.InvExcept (m : Mmu) (virt : Nat) : Prop where
  spread : m.vm.Spread
  coherent : Lookaside.CoherentExcept (virt / 4096) m.tlb m.vm.translation
  pages : ∀ e ∈ m.tlb, e.1 < 0x100000

theorem Mmu.Inv.changed {m : Mmu} (h : m.Inv) (hc : Changed m.vm t virt) :
    Mmu.InvExcept { m with vm := t } virt where
  spread := hc.spread
  coherent := h.coherent.except fun e he hne => by
    have hlt := h.pages e he
    exact hc.others _ (by omega) (by omega)
  pages := h.pages

theorem Mmu.InvExcept.access {m : Mmu} (h : m.InvExcept virt) {w : Nat} (hw : w < 0x100000000) :
    (m.access w).InvExcept virt where
  spread := h.spread
  coherent := h.coherent.fill _
  pages e he := by
    rcases Lookaside.mem_fill.mp he with ⟨hk, _⟩ | hmem
    · omega
    · exact h.pages e hmem

theorem Mmu.InvExcept.flush {m : Mmu} (h : m.InvExcept virt) : (m.flushTlbEntry virt).Inv where
  spread := h.spread
  coherent := h.coherent.flush
  pages e he := h.pages e (List.mem_filter.mp he).1

theorem Mmu.InvExcept.uncached {m : Mmu} (h : m.InvExcept virt)
    (hno : ¬Lookaside.Cached m.tlb (virt / 4096)) : m.Inv where
  spread := h.spread
  coherent := h.coherent.uncached hno
  pages := h.pages

theorem Mmu.Inv.mapPage {m : Mmu} (h : m.Inv) {phys : Nat} (hphys : phys < 0x100000000)
    (hvirt : virt < 0x100000000) : (m.mapPage phys virt).Inv := by
  have hread := h.access (entryAddr_lt m.vm.currentPD (pdIndex virt))
  have hres := mapPage_result h.spread.toTables hphys hvirt
  unfold Mmu.mapPage
  generalize SplongleOS.mapPage m.vm phys virt = r at hres ⊢
  cases hres with
  | outOfMemory _ _ hsame ht =>
    have hc : Changed m.vm _ virt := hsame.changed ht h.spread
    refine ⟨hc.spread, fun e he => ?_, hread.pages⟩
    exact (hsame.walk _).trans (hread.coherent e he)
  | mapped hm =>
    have hc := hm.changed h.spread
    exact (((hread.changed hc).access (entryAddr_lt _ _)).access (entryAddr_lt _ _)).flush

/-- An operation that unmaps `virt` without a flush. -/
theorem Mmu.Inv.unflushed_iff {m : Mmu} (h : m.Inv) (hc : Changed m.vm t virt)
    (hnone : t.walk virt = none) : Mmu.Coherent { m with vm := t } ↔
      ¬Lookaside.Cached m.tlb (virt / 4096) := by
  constructor
  · intro hcoherent hcached
    have hgone : t.translation (virt / 4096) = none := (walk_page t virt).trans hnone
    exact Lookaside.not_coherent_of_cached hcached hgone hcoherent
  · exact fun hno => ((h.changed hc).uncached hno).coherent

theorem Mmu.Inv.freePage_coherent_iff {m : Mmu} {f : Nat} (h : m.Inv) (hvirt : virt < 0x100000000)
    (hwalk : m.vm.walk virt = some f) (hfree : m.vm.Freeable f) :
    (m.freePage virt).Coherent ↔ ¬Lookaside.Cached (m.reachEntry virt).tlb (virt / 4096) := by
  obtain ⟨hc, hnone⟩ := freePage_changed h.spread hvirt hwalk hfree
  exact (h.reachEntry virt).unflushed_iff hc hnone

theorem Mmu.Inv.setPD {m : Mmu} {pd : Nat} (h : m.Inv)
    (hpd : pd = 0 ∨ ({ m.vm with currentPD := pd } : Vm).Spread) : (m.setPD pd).Inv := by
  unfold Mmu.setPD SplongleOS.setPD
  by_cases hz : pd = 0
  · rw [if_pos hz]
    exact h
  · rw [if_neg hz]
    exact ⟨hpd.resolve_left hz, Lookaside.coherent_nil, fun _ he => absurd he List.not_mem_nil⟩

theorem Mmu.Inv.step {m m' : Mmu} (c : MmuCall) (h : m.Inv) (hok : m.Sound c)
    (hs : m.step c = some m') : m'.Inv := by
  cases c with
  | mapPage phys virt =>
    obtain rfl := Option.some.inj hs
    exact h.mapPage phys.isLt virt.isLt
  | unmapPage virt =>
    obtain rfl := Option.some.inj hs
    obtain ⟨hc, _⟩ := unmapPage_changed h.spread virt.isLt
    exact ((h.reachEntry virt.toNat).changed hc).uncached hok
  | freePage virt =>
    cases hw : m.vm.walk virt.toNat with
    | none =>
      rw [Mmu.step, if_pos hw] at hs
      contradiction
    | some f =>
      rw [Mmu.step, if_neg (by rw [hw]; exact Option.some_ne_none f)] at hs
      obtain rfl := Option.some.inj hs
      obtain ⟨hno, hfree⟩ := hok
      obtain ⟨hc, _⟩ := freePage_changed h.spread virt.isLt hw (hfree f hw)
      exact ((h.reachEntry virt.toNat).changed hc).uncached hno
  | setPD pd =>
    obtain rfl := Option.some.inj hs
    refine h.setPD (hok.imp_left fun hz => ?_)
    rw [hz]
    rfl
  | access virt =>
    obtain rfl := Option.some.inj hs
    exact h.access virt.isLt

theorem BootFrames.spread {a b c : Nat} (h : BootFrames s a b c) (ha : a ≠ 0) (hb : b ≠ 0)
    (hc : c ≠ 0) : (initTables s a b c).Spread where
  toTables := h.paged.tables
  dir_ne_zero := h.entries.currentPD ▸ ha
  table_ne_zero k hk hp := by
    rcases h.entries.pde_isPresent hk hp with ⟨_, hf⟩ | ⟨_, hf⟩
    · rw [hf]
      exact hc
    · rw [hf]
      exact hb
  blank k hk hp := by
    have hblank : pagePhysAddr 0x2#32 = 0 := by decide
    rw [h.entries.pde hk] at hp ⊢
    by_cases h0 : k = 0
    · rw [if_pos h0] at hp
      exact absurd (linked_isPresent _ h.table3GHeld.aligned) hp
    · rw [if_neg h0] at hp ⊢
      by_cases h768 : k = 768
      · rw [if_pos h768] at hp
        exact absurd (linked_isPresent _ h.tableHeld.aligned) hp
      · rw [if_neg h768, hblank]

theorem inv_of_init {s0 s1 : Vm} (hready : s0.Ready) (hinit : pageManagerInit s0 = (true, s1)) :
    Mmu.Inv ⟨s1, []⟩ := by
  obtain ⟨_, _, _, _, hframes, ⟨ha, hb, hc⟩, rfl⟩ := pageManagerInit_inv hready hinit
  exact ⟨hframes.spread ha hb hc, Lookaside.coherent_nil, fun _ he => absurd he List.not_mem_nil⟩

end SplongleOS
