import SplongleOS.Base.Ownership
import SplongleOS.BitmapStorage
import SplongleOS.PageTables
set_option autoImplicit false

/-! The frames paging holds: the directory, the tables and the pages mapped on demand.
They are all different; only the two maps `Page_Manager_Init` fills name frames the
manager may still hold as free. -/

namespace SplongleOS
open WordMemory Ownership

def IsPresent (entry : BitVec 32) : Prop := entry &&& present ≠ 0#32

instance (entry : BitVec 32) : Decidable (IsPresent entry) :=
  inferInstanceAs (Decidable (entry &&& present ≠ 0#32))

def Vm.pde (s : Vm) (i : Nat) : BitVec 32 := s.load (entryAddr s.currentPD i)

def Vm.pte (s : Vm) (i j : Nat) : BitVec 32 := s.load (entryAddr (pagePhysAddr (s.pde i)) j)

/-- What `Page_Manager_Init` writes to entry `j` of the tables for 0 and for 3 GB. -/
def BootEntry (i j : Nat) (entry : BitVec 32) : Prop :=
  (i = 0 ∧ entry = mappedEntry (j * 4096)) ∨ (i = 768 ∧ entry = mappedEntry (0x100000 + j * 4096))

/-- Who may hold a frame. -/
inductive Slot where
  | directory
  | table (i : Nat)
  | page (i j : Nat)
  deriving DecidableEq, Repr

def Vm.Holds (s : Vm) : Slot → Nat → Prop
  | .directory, f => f = s.currentPD
  | .table i, f => i < 1024 ∧ IsPresent (s.pde i) ∧ f = pagePhysAddr (s.pde i)
  | .page i j, f => i < 1024 ∧ j < 1024 ∧ IsPresent (s.pde i) ∧ IsPresent (s.pte i j) ∧
      ¬BootEntry i j (s.pte i j) ∧ f = pagePhysAddr (s.pte i j)

/-- A frame that is handed out and no part of the bitmap. -/
structure Vm.Held (s : Vm) (f : Nat) : Prop where
  aligned : Aligned f
  managed : f / 4096 < s.pmm.maxBlocks
  used : checkBlock s.pmm (f / 4096) = true
  offBitmap : ¬BitmapBlock s.pmm.maxBlocks (f / 4096)

/-- The manager's side of paging: the bitmap is its own, the map of kernel_main. -/
structure Vm.Ready (s : Vm) : Prop where
  max : s.pmm.maxBlocks ≤ 0x100000
  map : s.pmm.memoryMap = 0x30000
  bitmapUsed : ∀ b < s.pmm.maxBlocks, BitmapBlock s.pmm.maxBlocks b → checkBlock s.pmm b = true

structure Vm.Paged (s : Vm) : Prop extends Vm.Ready s where
  owns : Exclusive s.Holds s.Held

theorem isPresent_iff (e : BitVec 32) : IsPresent e ↔ e.getLsbD 0 = true := by
  rw [IsPresent, ne_eq, and_present_eq_zero, Bool.not_eq_false]

theorem mapPage_present {s : Vm} {phys virt : Nat} (hp : IsPresent (s.pde (pdIndex virt))) :
    mapPage s phys virt = (true, setPage s (entryAddr s.currentPD (pdIndex virt)) phys virt) := by
  have hload : ¬(s.load (entryAddr s.currentPD (pdIndex virt)) &&& present ≠ present) := by
    rw [and_present_ne, Bool.not_eq_false]
    exact (isPresent_iff _).mp hp
  exact if_neg hload

theorem mapPage_absent {s : Vm} {phys virt : Nat} (hp : ¬IsPresent (s.pde (pdIndex virt))) :
    mapPage s phys virt =
      mapTable (entryAddr s.currentPD (pdIndex virt)) phys virt (s.allocate 1) := by
  have hload : s.load (entryAddr s.currentPD (pdIndex virt)) &&& present ≠ present := by
    rw [and_present_ne]
    exact Bool.not_eq_true _ ▸ fun hbit => hp ((isPresent_iff _).mpr hbit)
  exact if_pos hload

theorem load_entry_store (s : Vm) {t t' j j' : Nat} (v : BitVec 32) (ht : Aligned t)
    (ht' : Aligned t') (hj : j < 1024) (hj' : j' < 1024) :
    (s.store (entryAddr t j) v).load (entryAddr t' j') =
      if t' = t ∧ j' = j then v else s.load (entryAddr t' j') := by
  obtain ⟨hal, hlt⟩ := ht
  obtain ⟨hal', hlt'⟩ := ht'
  rw [load_store, entryAddr_eq hal hlt hj, entryAddr_eq hal' hlt' hj']
  by_cases heq : t' = t ∧ j' = j
  · rw [if_pos (by omega), if_pos heq]
  · rw [if_neg (by omega), if_neg heq]

theorem outside_of_offBitmap {s : Pmm} (hmap : s.memoryMap = 0x30000) (hmax : s.maxBlocks ≤ 0x100000)
    {w : Nat} (h : ¬BitmapBlock s.maxBlocks (w / 1024)) : ¬s.InBitmap w := by
  rintro ⟨k, hk, rfl⟩
  have hslot : s.slot (k : Nat) = 0xC000 + k := by
    rw [Pmm.slot, hmap]
    omega
  rw [hslot] at h
  exact h ⟨4 * (0xC000 + k), by omega, by omega, by omega⟩

theorem entry_outside {s : Vm} (hmap : s.pmm.memoryMap = 0x30000) (hmax : s.pmm.maxBlocks ≤ 0x100000)
    {t j : Nat} (ht : s.Held t) (hj : j < 1024) : ¬s.pmm.InBitmap (entryAddr t j / 4) := by
  obtain ⟨hal, hlt⟩ := ht.aligned
  refine outside_of_offBitmap hmap hmax ?_
  rw [entryAddr_eq hal hlt hj, show (t + 4 * j) / 4 / 1024 = t / 4096 by omega]
  exact ht.offBitmap

theorem Vm.Held.mono {s t : Vm} {f : Nat} (h : s.Held f) (hmax : t.pmm.maxBlocks = s.pmm.maxBlocks)
    (hkeep : checkBlock s.pmm (f / 4096) = true → checkBlock t.pmm (f / 4096) = true) : t.Held f where
  aligned := h.aligned
  managed := hmax ▸ h.managed
  used := hkeep h.used
  offBitmap := hmax ▸ h.offBitmap

/-- `t` comes after `s`: the manager is the same, and used blocks are still used. -/
structure After (s t : Vm) : Prop where
  maxBlocks : t.pmm.maxBlocks = s.pmm.maxBlocks
  memoryMap : t.pmm.memoryMap = s.pmm.memoryMap
  keep : ∀ b < s.pmm.maxBlocks, checkBlock s.pmm b = true → checkBlock t.pmm b = true

theorem After.trans {s t u : Vm} (h : After s t) (h' : After t u) : After s u where
  maxBlocks := h'.maxBlocks.trans h.maxBlocks
  memoryMap := h'.memoryMap.trans h.memoryMap
  keep b hb hused := h'.keep b (h.maxBlocks.symm ▸ hb) (h.keep b hb hused)

theorem Vm.Ready.after {s t : Vm} (h : s.Ready) (ht : After s t) : t.Ready := by
  refine ⟨ht.maxBlocks ▸ h.max, ht.memoryMap.trans h.map, fun b hlt hb => ?_⟩
  rw [ht.maxBlocks] at hlt hb
  exact ht.keep b hlt (h.bitmapUsed b hlt hb)

theorem Vm.Held.after {s t : Vm} {f : Nat} (h : s.Held f) (ht : After s t) : t.Held f :=
  h.mono ht.maxBlocks (ht.keep _ h.managed)

theorem after_write {s t : Vm} (hsame : SameManager s t)
    (hwords : ∀ w, s.pmm.InBitmap w → t.pmm.mem w = s.pmm.mem w) : After s t := by
  refine ⟨hsame.maxBlocks, hsame.memoryMap, fun b hb hused => ?_⟩
  rw [checkBlock_congr hsame.memoryMap (hwords _ ⟨b / 32, by omega, rfl⟩)]
  exact hused

theorem Vm.Ready.held_of_taken {s : Vm} (h : s.Ready) {a : Nat} {t : Vm}
    (hone : OneBlock s.pmm a t.pmm) (ha : a ≠ 0) : t.Held a where
  aligned := ⟨hone.aligned, hone.fits⟩
  managed := by
    rw [hone.maxBlocks]
    exact hone.managed ha
  used := hone.taken ha
  offBitmap := by
    rw [hone.maxBlocks]
    intro hbit
    exact Bool.noConfusion ((h.bitmapUsed _ (hone.managed ha) hbit).symm.trans (hone.free ha))

theorem after_oneBlock {s t : Vm} {a : Nat} (h : s.Ready) (hone : OneBlock s.pmm a t.pmm) :
    After s t := by
  have hmax := h.max
  exact ⟨hone.maxBlocks, hone.memoryMap, fun b hb => hone.keep b (by omega)⟩

theorem frame_word_outside {s : Vm} (h : s.Ready) {f w : Nat} (hf : s.Held f)
    (hw : s.pmm.InBitmap w) : ¬(f / 4 ≤ w ∧ w < f / 4 + 1024) := by
  intro hin
  obtain ⟨hal, hlt⟩ := hf.aligned
  refine outside_of_offBitmap h.map h.max ?_ hw
  rw [show w / 1024 = f / 4096 by omega]
  exact hf.offBitmap

/-- The directory and the tables it names are held and all different. Nothing is said
of the pages. -/
structure Vm.Tables (s : Vm) : Prop extends Vm.Ready s where
  dirHeld : s.Held s.currentPD
  tableHeld : ∀ i < 1024, IsPresent (s.pde i) → s.Held (pagePhysAddr (s.pde i))
  table_ne_dir : ∀ i < 1024, IsPresent (s.pde i) → pagePhysAddr (s.pde i) ≠ s.currentPD
  table_inj : ∀ i < 1024, ∀ k < 1024, IsPresent (s.pde i) → IsPresent (s.pde k) →
    pagePhysAddr (s.pde i) = pagePhysAddr (s.pde k) → i = k

theorem Vm.Paged.tables {s : Vm} (h : s.Paged) : s.Tables where
  toReady := h.toReady
  dirHeld := h.owns.ok .directory _ rfl
  tableHeld i hi hp := h.owns.ok (.table i) _ ⟨hi, hp, rfl⟩
  table_ne_dir i hi hp heq := by
    have hsame := h.owns.unique (.table i) .directory _ ⟨hi, hp, rfl⟩ heq
    contradiction
  table_inj i hi k hk hp hp' heq :=
    Slot.table.inj (h.owns.unique (.table i) (.table k) _ ⟨hi, hp, rfl⟩ ⟨hk, hp', heq⟩)

theorem walk_eq (s : Vm) (virt : Nat) : s.walk virt =
    if IsPresent (s.pde (pdIndex virt)) then
      if IsPresent (s.pte (pdIndex virt) (ptIndex virt)) then
        some (pagePhysAddr (s.pte (pdIndex virt) (ptIndex virt)))
      else none
    else none := by
  by_cases hp : IsPresent (s.pde (pdIndex virt))
  · rw [if_pos hp]
    by_cases ht : IsPresent (s.pte (pdIndex virt) (ptIndex virt))
    · rw [if_pos ht]
      exact (if_neg hp).trans (if_neg ht)
    · rw [if_neg ht]
      exact (if_neg hp).trans (if_pos (not_not.mp ht))
  · rw [if_neg hp]
    exact if_pos (not_not.mp hp)

theorem walk_eq_some {s : Vm} {virt f : Nat} (h : s.walk virt = some f) :
    IsPresent (s.pde (pdIndex virt)) ∧ IsPresent (s.pte (pdIndex virt) (ptIndex virt)) ∧
      pagePhysAddr (s.pte (pdIndex virt) (ptIndex virt)) = f := by
  rw [walk_eq] at h
  by_cases hp : IsPresent (s.pde (pdIndex virt))
  · rw [if_pos hp] at h
    by_cases ht : IsPresent (s.pte (pdIndex virt) (ptIndex virt))
    · rw [if_pos ht] at h
      exact ⟨hp, ht, Option.some.inj h⟩
    · rw [if_neg ht] at h
      contradiction
  · rw [if_neg hp] at h
    contradiction

theorem walk_congr {s t : Vm} {virt : Nat} (hpde : t.pde (pdIndex virt) = s.pde (pdIndex virt))
    (hpte : IsPresent (s.pde (pdIndex virt)) →
      t.pte (pdIndex virt) (ptIndex virt) = s.pte (pdIndex virt) (ptIndex virt)) :
    t.walk virt = s.walk virt := by
  rw [walk_eq, walk_eq, hpde]
  by_cases hp : IsPresent (s.pde (pdIndex virt))
  · rw [hpte hp]
  · rw [if_neg hp, if_neg hp]

structure SameEntries (s t : Vm) : Prop where
  dir : t.currentPD = s.currentPD
  pde : ∀ i < 1024, t.pde i = s.pde i
  pte : ∀ i < 1024, ∀ j < 1024, IsPresent (s.pde i) → t.pte i j = s.pte i j

theorem pdIndex_lt (virt : Nat) : pdIndex virt < 1024 := by
  rw [pdIndex_eq]
  omega

theorem ptIndex_lt (virt : Nat) : ptIndex virt < 1024 := by
  rw [ptIndex_eq]
  omega

theorem SameEntries.walk {s t : Vm} (h : SameEntries s t) (virt : Nat) : t.walk virt = s.walk virt :=
  walk_congr (h.pde _ (pdIndex_lt virt)) (h.pte _ (pdIndex_lt virt) _ (ptIndex_lt virt))

theorem SameEntries.holds {s t : Vm} (h : SameEntries s t) {x : Slot} {f : Nat}
    (hx : t.Holds x f) : s.Holds x f := by
  cases x with
  | directory => exact hx.trans h.dir
  | table i =>
    obtain ⟨hi, hp, hf⟩ := hx
    rw [h.pde i hi] at hp hf
    exact ⟨hi, hp, hf⟩
  | page i j =>
    obtain ⟨hi, hj, hp, hrest⟩ := hx
    rw [h.pde i hi] at hp
    rw [h.pte i hi j hj hp] at hrest
    exact ⟨hi, hj, hp, hrest⟩

theorem SameEntries.tables {s t : Vm} (hsame : SameEntries s t) (hafter : After s t)
    (h : s.Tables) : t.Tables where
  toReady := h.toReady.after hafter
  dirHeld := hsame.dir ▸ h.dirHeld.after hafter
  tableHeld i hi hp := by
    rw [hsame.pde i hi] at hp ⊢
    exact (h.tableHeld i hi hp).after hafter
  table_ne_dir i hi hp := by
    rw [hsame.pde i hi] at hp ⊢
    exact hsame.dir ▸ h.table_ne_dir i hi hp
  table_inj i hi k hk hp hp' := by
    rw [hsame.pde i hi] at hp ⊢
    rw [hsame.pde k hk] at hp' ⊢
    exact h.table_inj i hi k hk hp hp'

/-- Taking a block writes to the bitmap only. -/
theorem Vm.Tables.sameEntries {s t : Vm} {a : Nat} (h : s.Tables) (hone : OneBlock s.pmm a t.pmm)
    (hdir : t.currentPD = s.currentPD) : SameEntries s t := by
  have hload : ∀ {f j}, s.Held f → j < 1024 → t.load (entryAddr f j) = s.load (entryAddr f j) :=
    fun hf hj => hone.mem _ (entry_outside h.map h.max hf hj)
  have hpde : ∀ i < 1024, t.pde i = s.pde i := by
    intro i hi
    rw [Vm.pde, hdir]
    exact hload h.dirHeld hi
  refine ⟨hdir, hpde, fun i hi j hj hp => ?_⟩
  rw [Vm.pte, hpde i hi]
  exact hload (h.tableHeld i hi hp) hj

theorem Vm.Paged.allocate {s t : Vm} {a : Nat} (h : s.Paged) (hone : OneBlock s.pmm a t.pmm)
    (hdir : t.currentPD = s.currentPD) : t.Paged ∧ SameEntries s t := by
  have hsame := h.tables.sameEntries hone hdir
  have hafter := after_oneBlock h.toReady hone
  exact ⟨⟨h.toReady.after hafter,
    h.owns.mono (fun x f hx => hsame.holds hx) fun f hf => hf.after hafter⟩, hsame⟩

theorem Vm.Paged.fresh {s t : Vm} {a : Nat} (h : s.Paged) (hone : OneBlock s.pmm a t.pmm)
    (ha : a ≠ 0) (x : Slot) : ¬s.Holds x a := fun hx =>
  Bool.noConfusion ((h.owns.ok x a hx).used.symm.trans (hone.free ha))

def Vm.addTable (s : Vm) (i b : Nat) : Vm :=
  linkTable (s.clear b 4096) (entryAddr s.currentPD i) b

theorem clear_load (s : Vm) {b t j : Nat} (hb : Aligned b) (ht : Aligned t) (hj : j < 1024) :
    (s.clear b 4096).load (entryAddr t j) = if t = b then 0#32 else s.load (entryAddr t j) := by
  obtain ⟨halb, hltb⟩ := hb
  obtain ⟨hal, hlt⟩ := ht
  rw [Vm.load, clear_mem s (by omega) (by decide) (by omega), entryAddr_eq hal hlt hj]
  by_cases heq : t = b
  · rw [if_pos (by omega), if_pos heq]
  · rw [if_neg (by omega), if_neg heq, Vm.load]

theorem addTable_load {s : Vm} {i b t j : Nat} (hb : Aligned b) (hdir : Aligned s.currentPD)
    (hne : b ≠ s.currentPD) (hi : i < 1024) (ht : Aligned t) (hj : j < 1024) :
    (s.addTable i b).load (entryAddr t j) =
      if t = s.currentPD ∧ j = i then setFrame (setAttr (s.pde i) (present ||| readWrite)) b
      else if t = b then 0#32 else s.load (entryAddr t j) := by
  rw [Vm.addTable, linkTable, load_entry_store _ _ hdir ht hi hj, clear_load s hb ht hj,
    clear_load s hb hdir hi, if_neg hne.symm]
  rfl

theorem linked_isPresent (e : BitVec 32) {b : Nat} (hb : Aligned b) :
    IsPresent (setFrame (setAttr e (present ||| readWrite)) b) := by
  rw [isPresent_iff, getLsbD_setFrame _ hb.1 hb.2 (by decide), setAttr, BitVec.getLsbD_or]
  have hbit : (present ||| readWrite).getLsbD 0 = true := by decide
  rw [hbit, Bool.or_true]

theorem addTable_pde {s : Vm} {i b k : Nat} (hb : Aligned b) (hdir : Aligned s.currentPD)
    (hne : b ≠ s.currentPD) (hi : i < 1024) (hk : k < 1024) : (s.addTable i b).pde k =
      if k = i then setFrame (setAttr (s.pde i) (present ||| readWrite)) b else s.pde k := by
  change (s.addTable i b).load (entryAddr s.currentPD k) = _
  rw [addTable_load hb hdir hne hi hdir hk]
  by_cases hki : k = i
  · rw [if_pos ⟨rfl, hki⟩, if_pos hki]
  · rw [if_neg (fun h => hki h.2), if_neg hki, if_neg hne.symm, Vm.pde]

theorem addTable_words {s : Vm} {i b w : Nat} (h : s.Tables) (hi : i < 1024) (hb : s.Held b)
    (hw : s.pmm.InBitmap w) : (s.addTable i b).pmm.mem w = s.pmm.mem w := by
  obtain ⟨halb, hltb⟩ := hb.aligned
  have hne : w ≠ entryAddr s.currentPD i / 4 := fun heq =>
    entry_outside h.map h.max h.dirHeld hi (heq ▸ hw)
  have hout : ¬(b / 4 ≤ w ∧ w < b / 4 + 4096 / 4) := frame_word_outside h.toReady hb hw
  rw [Vm.addTable, linkTable, store_mem, if_neg hne, clear_mem s (by omega) (by decide) (by omega),
    if_neg hout]

/-- A frame that is neither the directory nor a table. -/
structure Vm.NoTable (s : Vm) (f : Nat) : Prop where
  ne_dir : f ≠ s.currentPD
  ne_table : ∀ i < 1024, IsPresent (s.pde i) → pagePhysAddr (s.pde i) ≠ f

theorem entryAddr_page {f j : Nat} (hf : Aligned f) (hj : j < 1024) :
    entryAddr f j / 4096 = f / 4096 := by
  obtain ⟨hal, hlt⟩ := hf
  rw [entryAddr_eq hal hlt hj]
  omega

theorem Vm.Tables.storeAway {s : Vm} {a : Nat} (h : s.Tables)
    (hbitmap : ¬BitmapBlock s.pmm.maxBlocks (a / 4096)) (hno : s.NoTable (a / 4096 * 4096))
    (v : BitVec 32) : SameEntries s (s.store a v) ∧ After s (s.store a v) := by
  have hload : ∀ {f j}, Aligned f → a / 4096 * 4096 ≠ f → j < 1024 →
      (s.store a v).load (entryAddr f j) = s.load (entryAddr f j) := by
    intro f j hf hne hj
    have hpage := entryAddr_page hf hj
    have haligned := hf.1
    rw [load_store, if_neg (by omega)]
  have hpde : ∀ k < 1024, (s.store a v).pde k = s.pde k :=
    fun k hk => hload h.dirHeld.aligned hno.ne_dir hk
  refine ⟨⟨rfl, hpde, fun k hk l hl hp => ?_⟩, after_write (sameManager_store _ _ _) fun w hw => ?_⟩
  · rw [Vm.pte, hpde k hk]
    exact hload (h.tableHeld k hk hp).aligned (hno.ne_table k hk hp).symm hl
  · have hout : ¬s.pmm.InBitmap (a / 4) := by
      refine outside_of_offBitmap h.map h.max ?_
      rwa [show a / 4 / 1024 = a / 4096 by omega]
    have hne : w ≠ a / 4 := fun heq => hout (heq ▸ hw)
    rw [store_mem, if_neg hne]

structure TableLinked (s t : Vm) (i b : Nat) : Prop where
  dir : t.currentPD = s.currentPD
  isPresent : IsPresent (t.pde i)
  frame : pagePhysAddr (t.pde i) = b
  pde : ∀ k < 1024, k ≠ i → t.pde k = s.pde k
  pte : ∀ k < 1024, ∀ j < 1024, k ≠ i → IsPresent (s.pde k) → t.pte k j = s.pte k j
  empty : ∀ j < 1024, t.pte i j = 0#32
  after : After s t

theorem Vm.Tables.addTable {s : Vm} {i b : Nat} (h : s.Tables) (hi : i < 1024) (hb : s.Held b)
    (hfresh : s.NoTable b) : TableLinked s (s.addTable i b) i b := by
  have hdir := h.dirHeld.aligned
  have hne := hfresh.ne_dir
  have hpde : ∀ k < 1024, k ≠ i → (s.addTable i b).pde k = s.pde k := by
    intro k hk hki
    rw [addTable_pde hb.aligned hdir hne hi hk, if_neg hki]
  have hself : (s.addTable i b).pde i = setFrame (setAttr (s.pde i) (present ||| readWrite)) b := by
    rw [addTable_pde hb.aligned hdir hne hi hi, if_pos rfl]
  have hframe : pagePhysAddr ((s.addTable i b).pde i) = b := by
    rw [hself, pagePhysAddr_setFrame _ hb.aligned.1 hb.aligned.2]
  refine ⟨rfl, hself ▸ linked_isPresent _ hb.aligned, hframe, hpde, ?_, ?_, ?_⟩
  · intro k hk j hj hki hp
    have htab := h.tableHeld k hk hp
    rw [Vm.pte, hpde k hk hki, addTable_load hb.aligned hdir hne hi htab.aligned hj,
      if_neg fun hin => h.table_ne_dir k hk hp hin.1, if_neg (hfresh.ne_table k hk hp), Vm.pte]
  · intro j hj
    rw [Vm.pte, hframe, addTable_load hb.aligned hdir hne hi hb.aligned hj,
      if_neg fun hin => hne hin.1, if_pos rfl]
  · exact after_write ((sameManager_clear s b 4096).trans (sameManager_linkTable _ _ b))
      fun w hw => addTable_words h hi hb hw

theorem TableLinked.walk {s t : Vm} {i b : Nat} (hl : TableLinked s t i b)
    (hnot : ¬IsPresent (s.pde i)) (virt : Nat) : t.walk virt = s.walk virt := by
  by_cases hki : pdIndex virt = i
  · have hempty : ¬IsPresent (t.pte i (ptIndex virt)) := by
      rw [hl.empty _ (ptIndex_lt virt)]
      exact fun hne => hne rfl
    rw [walk_eq, walk_eq, hki, if_pos hl.isPresent, if_neg hempty, if_neg hnot]
  · exact walk_congr (hl.pde _ (pdIndex_lt virt) hki)
      (hl.pte _ (pdIndex_lt virt) _ (ptIndex_lt virt) hki)

structure TableAdded (s s' : Vm) (i b : Nat) : Prop where
  paged : s'.Paged
  dir : s'.currentPD = s.currentPD
  isPresent : IsPresent (s'.pde i)
  holds : ∀ x f, s'.Holds x f → s.Holds x f ∨ (x = .table i ∧ f = b)
  after : After s s'
  walk : ∀ virt, s'.walk virt = s.walk virt

theorem Vm.Paged.addTable {s : Vm} {i b : Nat} (h : s.Paged) (hi : i < 1024)
    (hnot : ¬IsPresent (s.pde i)) (hb : s.Held b) (hfresh : ∀ x, ¬s.Holds x b) :
    TableAdded s (s.addTable i b) i b := by
  have hl := h.tables.addTable hi hb
    ⟨hfresh .directory, fun k hk hp heq => hfresh (.table k) ⟨hk, hp, heq.symm⟩⟩
  have hsub : ∀ x f, (s.addTable i b).Holds x f → s.Holds x f ∨ (x = .table i ∧ f = b) := by
    intro x f hx
    cases x with
    | directory => exact Or.inl hx
    | table k =>
      obtain ⟨hk, hp, hf⟩ := hx
      by_cases hki : k = i
      · subst hki
        exact Or.inr ⟨rfl, hf.trans hl.frame⟩
      · rw [hl.pde k hk hki] at hp hf
        exact Or.inl ⟨hk, hp, hf⟩
    | page k j =>
      obtain ⟨hk, hj, hp, hpt, hrest⟩ := hx
      by_cases hki : k = i
      · subst hki
        rw [hl.empty j hj] at hpt
        exact absurd rfl hpt
      · rw [hl.pde k hk hki] at hp
        rw [hl.pte k hk j hj hki hp] at hpt hrest
        exact Or.inl ⟨hk, hj, hp, hpt, hrest⟩
  exact ⟨⟨h.toReady.after hl.after, h.owns.take hfresh (hb.after hl.after)
    (fun f hf => hf.after hl.after) hsub⟩, hl.dir, hl.isPresent, hsub, hl.after, hl.walk hnot⟩

theorem setPage_eq (s : Vm) (phys virt : Nat) :
    setPage s (entryAddr s.currentPD (pdIndex virt)) phys virt =
      s.store (entryAddr (pagePhysAddr (s.pde (pdIndex virt))) (ptIndex virt))
        (setFrame (setAttr (s.pte (pdIndex virt) (ptIndex virt)) present) phys) := rfl

theorem mapped_isPresent (e : BitVec 32) {a : Nat} (ha : Aligned a) :
    IsPresent (setFrame (setAttr e present) a) := by
  rw [isPresent_iff, getLsbD_setFrame _ ha.1 ha.2 (by decide), getLsbD_setAttr_present]
  rfl

structure PteWritten (s t : Vm) (i j : Nat) (v : BitVec 32) : Prop where
  dir : t.currentPD = s.currentPD
  pde : ∀ k < 1024, t.pde k = s.pde k
  pte : ∀ k < 1024, ∀ l < 1024, IsPresent (s.pde k) →
    t.pte k l = if k = i ∧ l = j then v else s.pte k l
  after : After s t

theorem Vm.Tables.writePte {s : Vm} {i j : Nat} (h : s.Tables) (hi : i < 1024) (hj : j < 1024)
    (hp : IsPresent (s.pde i)) (v : BitVec 32) :
    PteWritten s (s.store (entryAddr (pagePhysAddr (s.pde i)) j) v) i j v := by
  have htab := h.tableHeld i hi hp
  generalize ht : s.store (entryAddr (pagePhysAddr (s.pde i)) j) v = t
  have hdir : t.currentPD = s.currentPD := by
    rw [← ht]
    exact store_currentPD _ _ _
  have hpde : ∀ k < 1024, t.pde k = s.pde k := by
    intro k hk
    rw [Vm.pde, hdir, ← ht, load_entry_store _ _ htab.aligned h.dirHeld.aligned hj hk,
      if_neg fun hin => h.table_ne_dir i hi hp hin.1.symm, Vm.pde]
  refine ⟨hdir, hpde, fun k hk l hl hpk => ?_, after_write (ht ▸ sameManager_store s _ _) ?_⟩
  · rw [Vm.pte, hpde k hk, ← ht,
      load_entry_store _ _ htab.aligned (h.tableHeld k hk hpk).aligned hj hl]
    by_cases hin : k = i ∧ l = j
    · rw [if_pos ⟨by rw [hin.1], hin.2⟩, if_pos hin]
    · rw [if_neg fun heq => hin ⟨h.table_inj k hk i hi hpk hp heq.1, heq.2⟩, if_neg hin, Vm.pte]
  · intro w hw
    have hne : w ≠ entryAddr (pagePhysAddr (s.pde i)) j / 4 :=
      fun heq => entry_outside h.map h.max htab hj (heq ▸ hw)
    rw [← ht, store_mem, if_neg hne]

theorem PteWritten.walk {s t : Vm} {virt : Nat} {v : BitVec 32}
    (hw : PteWritten s t (pdIndex virt) (ptIndex virt) v) (hp : IsPresent (s.pde (pdIndex virt))) :
    t.walk virt = if IsPresent v then some (pagePhysAddr v) else none := by
  have hi := pdIndex_lt virt
  have hself : t.pte (pdIndex virt) (ptIndex virt) = v := by
    rw [hw.pte _ hi _ (ptIndex_lt virt) hp, if_pos ⟨rfl, rfl⟩]
  rw [walk_eq, hw.pde _ hi, if_pos hp, hself]

theorem PteWritten.walk_of_ne {s t : Vm} {virt w : Nat} {v : BitVec 32}
    (hw : PteWritten s t (pdIndex virt) (ptIndex virt) v) (hvirt : virt < 0x100000000)
    (hlt : w < 0x100000000) (hne : w / 4096 ≠ virt / 4096) : t.walk w = s.walk w := by
  refine walk_congr (hw.pde _ (pdIndex_lt w)) fun hpk => ?_
  rw [hw.pte _ (pdIndex_lt w) _ (ptIndex_lt w) hpk, if_neg ?_]
  rintro ⟨hik, hjl⟩
  rw [pdIndex_eq, pdIndex_eq] at hik
  rw [ptIndex_eq, ptIndex_eq] at hjl
  omega

/-- What mapping `a` at `virt` does to the entries. -/
structure Mapped (s s' : Vm) (a virt : Nat) : Prop where
  paged : s'.Paged
  walk : s'.walk virt = some a
  holds : ∀ x f, s'.Holds x f → s.Holds x f ∨ (x = .page (pdIndex virt) (ptIndex virt) ∧ f = a)
  dir : s'.currentPD = s.currentPD
  after : After s s'
  others : ∀ v < 0x100000000, virt < 0x100000000 → v / 4096 ≠ virt / 4096 → s'.walk v = s.walk v

theorem Vm.Paged.setPage {s : Vm} {a virt : Nat} (h : s.Paged)
    (hp : IsPresent (s.pde (pdIndex virt))) (ha : s.Held a) (hfresh : ∀ x, ¬s.Holds x a) :
    Mapped s (setPage s (entryAddr s.currentPD (pdIndex virt)) a virt) a virt := by
  rw [setPage_eq]
  have hw := h.tables.writePte (pdIndex_lt virt) (ptIndex_lt virt) hp
    (setFrame (setAttr (s.pte (pdIndex virt) (ptIndex virt)) present) a)
  have hframe : pagePhysAddr (setFrame (setAttr (s.pte (pdIndex virt) (ptIndex virt)) present) a) = a :=
    pagePhysAddr_setFrame _ ha.aligned.1 ha.aligned.2
  have hpres := mapped_isPresent (s.pte (pdIndex virt) (ptIndex virt)) ha.aligned
  generalize setFrame (setAttr (s.pte (pdIndex virt) (ptIndex virt)) present) a = v at *
  generalize s.store (entryAddr (pagePhysAddr (s.pde (pdIndex virt))) (ptIndex virt)) v = t at *
  have hsub : ∀ x f, t.Holds x f →
      s.Holds x f ∨ (x = .page (pdIndex virt) (ptIndex virt) ∧ f = a) := by
    intro x f hx
    cases x with
    | directory => exact Or.inl (hx.trans hw.dir)
    | table k =>
      obtain ⟨hk, hpk, hf⟩ := hx
      rw [hw.pde k hk] at hpk hf
      exact Or.inl ⟨hk, hpk, hf⟩
    | page k l =>
      obtain ⟨hk, hl, hpk, hrest⟩ := hx
      rw [hw.pde k hk] at hpk
      rw [hw.pte k hk l hl hpk] at hrest
      by_cases hin : k = pdIndex virt ∧ l = ptIndex virt
      · rw [if_pos hin] at hrest
        refine Or.inr ⟨by rw [hin.1, hin.2], hrest.2.2.trans hframe⟩
      · rw [if_neg hin] at hrest
        exact Or.inl ⟨hk, hl, hpk, hrest⟩
  refine ⟨⟨h.toReady.after hw.after, h.owns.take hfresh (ha.after hw.after)
    (fun f hf => hf.after hw.after) hsub⟩, ?_, hsub, hw.dir, hw.after,
    fun v' hv' hvirt hne => hw.walk_of_ne hvirt hv' hne⟩
  rw [hw.walk hp, if_pos hpres, hframe]

end SplongleOS
