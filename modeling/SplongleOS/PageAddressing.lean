import SplongleOS.Base.Runs
import SplongleOS.DemandPaging
import SplongleOS.MapPage
set_option autoImplicit false

/-! Whether the directory and the tables can be reached through the mapping they make.
`Page_Manager_Init` maps the first 4 MB to themselves; the blocks `map_page` takes for
tables come from anywhere. -/

namespace SplongleOS
open WordMemory

def Vm.translate (s : Vm) (virt : Nat) : Option Nat := (s.walk virt).map fun f => f + virt % 4096

def Vm.SelfMapped (s : Vm) (address : Nat) : Prop := s.translate address = some address

def pdeAddr (s : Vm) (virt : Nat) : Nat := entryAddr s.currentPD (pdIndex virt)

/-- `map_page` dereferences an address in some state on its way. With a new table these
are the entry it tests, the table it clears, the entry it links, and the table's entry. -/
inductive MapDeref (s : Vm) (virt : Nat) : Vm → Nat → Prop where
  | test : MapDeref s virt s (pdeAddr s virt)
  | clear {k : Nat} : ¬IsPresent (s.load (pdeAddr s virt)) → (s.allocate 1).1 ≠ 0 → k < 4096 →
      MapDeref s virt (s.allocate 1).2 ((s.allocate 1).1 + k)
  | link : ¬IsPresent (s.load (pdeAddr s virt)) → (s.allocate 1).1 ≠ 0 →
      MapDeref s virt ((s.allocate 1).2.clear (s.allocate 1).1 4096) (pdeAddr s virt)
  | newEntry : ¬IsPresent (s.load (pdeAddr s virt)) → (s.allocate 1).1 ≠ 0 →
      MapDeref s virt
        (linkTable ((s.allocate 1).2.clear (s.allocate 1).1 4096) (pdeAddr s virt) (s.allocate 1).1)
        (entryAddr (s.allocate 1).1 (ptIndex virt))
  | entry : IsPresent (s.load (pdeAddr s virt)) → MapDeref s virt s (getPage s virt)

/-- Memory and, as a ghost, the pages that `Page_Manager_Init` or the latest mapping of
them has mapped to themselves. -/
structure Paging where
  vm : Vm
  own : Nat → Bool

inductive PagingCall where
  | mapPage (phys virt : BitVec 32)
  | fault (badAddr ec : BitVec 32)

def faultPage (badAddr : BitVec 32) : Nat := (badAddr &&& ~~~0xFFF#32).toNat

def Paging.noteMapped (own : Nat → Bool) (phys virt : Nat) : Nat → Bool :=
  Function.update own (virt / 4096) (decide (phys / 4096 = virt / 4096))

def Paging.mapped (own : Nat → Bool) (phys virt : Nat) : Bool × Vm → Paging
  | (true, s) => ⟨s, Paging.noteMapped own phys virt⟩
  | (false, s) => ⟨s, own⟩

/-- The processor raises a fault for a missing page only where there is no translation. -/
def Paging.step (p : Paging) : PagingCall → Option Paging
  | .mapPage phys virt =>
    some (Paging.mapped p.own phys.toNat virt.toNat (mapPage p.vm phys.toNat virt.toNat))
  | .fault badAddr ec =>
    if ec &&& 1#32 = 0#32 ∧ p.vm.walk badAddr.toNat ≠ none then none
    else
      match pfHandler p.vm badAddr ec with
      | some s => some ⟨s, Paging.noteMapped p.own (p.vm.allocate 1).1 badAddr.toNat⟩
      | none => none

/-- The processor raises such a fault, and `PFHandler` gets a frame for it. -/
def Paging.Serves (p : Paging) (badAddr ec : BitVec 32) : Prop :=
  ec &&& 1#32 = 0#32 ∧ ec &&& 4#32 = 0#32 ∧ p.vm.walk badAddr.toNat = none ∧
    (p.vm.allocate 1).1 ≠ 0

def Paging.Derefs (p : Paging) : PagingCall → Vm → Nat → Prop
  | .mapPage _ virt, t, x => MapDeref p.vm virt.toNat t x
  | .fault badAddr ec, t, x =>
    p.Serves badAddr ec ∧ MapDeref (p.vm.allocate 1).2 (faultPage badAddr) t x

/-- The block `map_page` takes for a table in `s`, if it takes one, is mapped to itself. -/
def TableAtHome (own : Nat → Bool) (s : Vm) (virt : Nat) : Prop :=
  ¬IsPresent (s.load (pdeAddr s virt)) → (s.allocate 1).1 ≠ 0 → own ((s.allocate 1).1 / 4096) = true

/-- New tables get blocks mapped to themselves, and no page of a structure is given
another frame. -/
def Paging.Sound (p : Paging) : PagingCall → Prop
  | .mapPage phys virt => TableAtHome p.own p.vm virt.toNat ∧
      (phys.toNat / 4096 = virt.toNat / 4096 ∨ p.vm.NoTable (virt.toNat / 4096 * 4096))
  | .fault badAddr ec =>
    p.Serves badAddr ec → TableAtHome p.own (p.vm.allocate 1).2 (faultPage badAddr)

/-- Every entry of the directory and of the tables it names is where it is mapped. -/
structure Vm.Addressable (s : Vm) : Prop where
  dir : ∀ virt, s.SelfMapped (pdeAddr s virt)
  table : ∀ virt, IsPresent (s.load (pdeAddr s virt)) → s.SelfMapped (getPage s virt)

theorem selfMapped_iff {s : Vm} {f x : Nat} (hf : f % 4096 = 0) (hx : x / 4096 = f / 4096) :
    s.SelfMapped x ↔ s.walk f = some f := by
  have hwalk : s.walk x = s.walk f := by
    rw [← walk_page s x, hx, walk_page]
  have hsum : x = f + x % 4096 := by omega
  rw [Vm.SelfMapped, Vm.translate, hwalk]
  cases hw : s.walk f with
  | none => simp
  | some g =>
    simp only [Option.map_some, Option.some.injEq]
    omega

theorem selfMapped_entry {s : Vm} {f j : Nat} (hf : Aligned f) (hj : j < 1024) :
    s.SelfMapped (entryAddr f j) ↔ s.walk f = some f :=
  selfMapped_iff hf.1 (entryAddr_page hf hj)

theorem addressable_iff {s : Vm} (h : s.Tables) : s.Addressable ↔
    s.walk s.currentPD = some s.currentPD ∧ ∀ i < 1024, IsPresent (s.pde i) →
      s.walk (pagePhysAddr (s.pde i)) = some (pagePhysAddr (s.pde i)) := by
  constructor
  · intro ha
    refine ⟨(selfMapped_entry h.dirHeld.aligned (pdIndex_lt 0)).mp (ha.dir 0), fun i hi hp => ?_⟩
    have hindex : pdIndex (i * 0x400000) = i := by
      rw [pdIndex_eq]
      omega
    have hself := ha.table (i * 0x400000)
    rw [getPage_eq, pdeAddr, hindex] at hself
    exact (selfMapped_entry (h.tableHeld i hi hp).aligned (ptIndex_lt _)).mp (hself hp)
  · rintro ⟨hdir, htable⟩
    refine ⟨fun virt => ?_, fun virt hp => ?_⟩
    · exact (selfMapped_entry h.dirHeld.aligned (pdIndex_lt virt)).mpr hdir
    · have hi := pdIndex_lt virt
      exact (selfMapped_entry (h.tableHeld _ hi hp).aligned (ptIndex_lt virt)).mpr (htable _ hi hp)

structure Paging.Inv (p : Paging) : Prop where
  tables : p.vm.Tables
  own : ∀ page < 0x100000, p.own page = true ↔ p.vm.walk (page * 4096) = some (page * 4096)
  addressable : p.vm.Addressable

variable {s t : Vm} {own : Nat → Bool} {virt : Nat}

theorem Paging.Inv.own_iff (h : Paging.Inv ⟨s, own⟩) {f : Nat} (hf : Aligned f) :
    own (f / 4096) = true ↔ s.walk f = some f := by
  obtain ⟨hal, hlt⟩ := hf
  have hiff := h.own (f / 4096) (by omega)
  rwa [Nat.div_mul_cancel (Nat.dvd_of_mod_eq_zero hal)] at hiff

theorem SameEntries.addressable (hsame : SameEntries s t) (hs : s.Tables) (ht : t.Tables)
    (h : s.Addressable) : t.Addressable := by
  obtain ⟨hdir, htable⟩ := (addressable_iff hs).mp h
  refine (addressable_iff ht).mpr ⟨?_, fun i hi hp => ?_⟩
  · rw [hsame.dir, hsame.walk, hdir]
  · rw [hsame.pde i hi] at hp ⊢
    rw [hsame.walk, htable i hi hp]

theorem Paging.Inv.same (h : Paging.Inv ⟨s, own⟩) (hsame : SameEntries s t) (ht : t.Tables) :
    Paging.Inv ⟨t, own⟩ where
  tables := ht
  own page hlt := by
    rw [hsame.walk]
    exact h.own page hlt
  addressable := hsame.addressable h.tables ht h.addressable

theorem noteMapped_self (own : Nat → Bool) (phys virt : Nat) :
    Paging.noteMapped own phys virt (virt / 4096) = decide (phys / 4096 = virt / 4096) :=
  Function.update_self _ _ _

theorem noteMapped_of_ne (own : Nat → Bool) (phys : Nat) {page : Nat} (hne : page ≠ virt / 4096) :
    Paging.noteMapped own phys virt page = own page := Function.update_of_ne hne _ _

theorem MapDone.noted {phys : Nat} (hm : MapDone s t phys virt) (h : Paging.Inv ⟨s, own⟩) :
    ∀ page < 0x100000, Paging.noteMapped own phys virt page = true ↔
      t.walk (page * 4096) = some (page * 4096) := by
  intro page hlt
  by_cases heq : page = virt / 4096
  · rw [heq, noteMapped_self, walk_page, hm.walk, decide_eq_true_eq, Option.some.injEq]
    omega
  · rw [noteMapped_of_ne own phys heq, hm.others _ (by omega) (by omega)]
    exact h.own page hlt

theorem MapDone.keeps {phys f : Nat} (hm : MapDone s t phys virt) (hf : Aligned f)
    (hself : s.walk f = some f) (hpage : phys / 4096 = virt / 4096 ∨ f / 4096 ≠ virt / 4096) :
    t.walk f = some f := by
  obtain ⟨hal, hlt⟩ := hf
  by_cases heq : f / 4096 = virt / 4096
  · have hphys := hpage.resolve_right (fun hne => hne heq)
    rw [← walk_page t f, heq, walk_page, hm.walk, Option.some.injEq]
    omega
  · rw [hm.others f hlt heq, hself]

theorem not_selfMapped_of_absent {f : Nat} (hnot : ¬IsPresent (s.pde (pdIndex virt)))
    (hself : s.walk f = some f) : f / 4096 ≠ virt / 4096 := by
  intro heq
  obtain ⟨hd, _⟩ := index_congr heq
  exact hnot (hd ▸ (walk_eq_some hself).1)

theorem Paging.Inv.mapPage {phys : Nat} (h : Paging.Inv ⟨s, own⟩) (hphys : phys < 0x100000000)
    (hvirt : virt < 0x100000000) (htable : TableAtHome own s virt)
    (hpage : phys / 4096 = virt / 4096 ∨ s.NoTable (virt / 4096 * 4096)) :
    (Paging.mapped own phys virt (mapPage s phys virt)).Inv := by
  have hres := mapPage_result h.tables hphys hvirt
  have hblock := allocate_aligned 1 h.tables.max
  generalize SplongleOS.mapPage s phys virt = r at hres ⊢
  cases hres with
  | outOfMemory _ _ hsame ht => exact h.same hsame ht
  | mapped hm =>
    obtain ⟨hdir, htab⟩ := (addressable_iff h.tables).mp h.addressable
    have hne : ∀ {f}, f % 4096 = 0 → (s.NoTable (virt / 4096 * 4096) → virt / 4096 * 4096 ≠ f) →
        phys / 4096 = virt / 4096 ∨ f / 4096 ≠ virt / 4096 :=
      fun hal hno => hpage.imp_right fun hno' heq => hno hno' (by omega)
    refine ⟨hm.tables, hm.noted h, (addressable_iff hm.tables).mpr ⟨?_, fun i hi hp => ?_⟩⟩
    · have hd := h.tables.dirHeld.aligned
      rw [hm.dir]
      exact hm.keeps hd hdir (hne hd.1 fun hno => hno.ne_dir)
    · rcases hm.pde i hi with heq | ⟨rfl, hnot, _, hframe, hnz⟩
      · rw [heq] at hp ⊢
        have hf := (h.tables.tableHeld i hi hp).aligned
        exact hm.keeps hf (htab i hi hp) (hne hf.1 fun hno heq' => hno.ne_table i hi hp heq'.symm)
      · -- a table put where it is mapped lies under a directory entry that was there
        have hself := (h.own_iff hblock).mp (htable hnot hnz)
        rw [hframe]
        exact hm.keeps hblock hself (Or.inr (not_selfMapped_of_absent hnot hself))

theorem Vm.Tables.clear {b : Nat} (h : s.Tables) (hb : Aligned b) (hno : s.NoTable b) :
    SameEntries s (s.clear b 4096) := by
  have hpde : ∀ i < 1024, (s.clear b 4096).pde i = s.pde i := by
    intro i hi
    exact (clear_load s hb h.dirHeld.aligned hi).trans (if_neg hno.ne_dir.symm)
  refine ⟨rfl, hpde, fun i hi j hj hp => ?_⟩
  rw [Vm.pte, hpde i hi, clear_load s hb (h.tableHeld i hi hp).aligned hj,
    if_neg (hno.ne_table i hi hp), Vm.pte]

theorem SameEntries.noTable {b : Nat} (hsame : SameEntries s t) (h : s.NoTable b) : t.NoTable b where
  ne_dir := hsame.dir ▸ h.ne_dir
  ne_table i hi hp := by
    rw [hsame.pde i hi] at hp ⊢
    exact h.ne_table i hi hp

/-- A new table that is mapped to itself is reached, and so is all the rest: every state
`map_page` goes through before it sets the page translates as `s` does. -/
theorem selfMapped_of_deref {u : Vm} {x : Nat} (h : s.Tables) (haddr : s.Addressable)
    (hhome : ¬IsPresent (s.load (pdeAddr s virt)) → (s.allocate 1).1 ≠ 0 →
      s.walk (s.allocate 1).1 = some (s.allocate 1).1)
    (hx : MapDeref s virt u x) : u.SelfMapped x := by
  have hone := allocate_one h.max
  have hsame := h.sameEntries hone (allocate_currentPD s 1)
  have ht := hsame.tables (after_oneBlock h.toReady hone) h
  have hb : Aligned (s.allocate 1).1 := ⟨hone.aligned, hone.fits⟩
  have hi := pdIndex_lt virt
  have hd := h.dirHeld.aligned
  obtain ⟨hdir, _⟩ := (addressable_iff h).mp haddr
  cases hx with
  | test => exact haddr.dir virt
  | entry hp => exact haddr.table virt hp
  | clear hnot hnz hk =>
    refine (selfMapped_iff hone.aligned (by have hal := hb.1; omega)).mpr ?_
    rw [hsame.walk, hhome hnot hnz]
  | link hnot hnz =>
    have hno := hsame.noTable (h.noTable hone hnz)
    refine (selfMapped_entry hd hi).mpr ?_
    rw [(ht.clear hb hno).walk, hsame.walk, hdir]
  | newEntry hnot hnz =>
    have hheld := h.toReady.held_of_taken hone hnz
    have hno := hsame.noTable (h.noTable hone hnz)
    have hl := ht.addTable hi hheld hno
    have hnot' : ¬IsPresent ((s.allocate 1).2.pde (pdIndex virt)) := by
      rw [hsame.pde _ hi]
      exact hnot
    refine (selfMapped_entry hb (ptIndex_lt virt)).mpr ?_
    have hpd : (s.allocate 1).2.currentPD = s.currentPD := hsame.dir
    rw [Vm.addTable, hpd] at hl
    exact (hl.walk hnot' _).trans ((hsame.walk _).trans (hhome hnot hnz))

theorem home_of_derefs (h : s.Tables)
    (hall : ∀ u x, MapDeref s virt u x → u.SelfMapped x)
    (hnot : ¬IsPresent (s.load (pdeAddr s virt))) (hnz : (s.allocate 1).1 ≠ 0) :
    s.walk (s.allocate 1).1 = some (s.allocate 1).1 := by
  have hone := allocate_one h.max
  have hsame := h.sameEntries hone (allocate_currentPD s 1)
  have hself := hall _ _ (.clear hnot hnz (show 0 < 4096 by decide))
  rw [← hsame.walk]
  exact (selfMapped_iff hone.aligned (by rw [Nat.add_zero])).mp hself

theorem pfResolve_inv {s' : Vm} {vpage : Nat} {r : Nat × Vm} (hok : pfResolve vpage r = some s') :
    r.1 ≠ 0 ∧ mapPage r.2 r.1 vpage = (true, s') := by
  obtain ⟨frame, t⟩ := r
  unfold pfResolve at hok
  by_cases hz : frame = 0
  · rw [if_pos hz] at hok
    contradiction
  · rw [if_neg hz] at hok
    refine ⟨hz, ?_⟩
    dsimp only at hok ⊢
    generalize mapPage t frame vpage = m at hok ⊢
    match m, hok with
    | (true, _), hok => rw [Option.some.inj hok]

theorem pfHandler_inv {s' : Vm} {badAddr ec : BitVec 32} (hok : pfHandler s badAddr ec = some s') :
    ec &&& 1#32 = 0#32 ∧ ec &&& 4#32 = 0#32 ∧ (s.allocate 1).1 ≠ 0 ∧
      mapPage (s.allocate 1).2 (s.allocate 1).1 (faultPage badAddr) = (true, s') := by
  unfold pfHandler at hok
  dsimp only at hok
  by_cases hc : ec &&& 1#32 = 0#32 ∧ ¬ec &&& 4#32 ≠ 0#32
  · rw [if_pos hc] at hok
    exact ⟨hc.1, not_not.mp hc.2, pfResolve_inv hok⟩
  · rw [if_neg hc] at hok
    contradiction

theorem faultPage_page (badAddr : BitVec 32) : faultPage badAddr / 4096 = badAddr.toNat / 4096 := by
  change pagePhysAddr badAddr / 4096 = _
  rw [pagePhysAddr_eq]
  omega

theorem Paging.Inv.allocate (h : Paging.Inv ⟨s, own⟩) : Paging.Inv ⟨(s.allocate 1).2, own⟩ := by
  have hone := allocate_one h.tables.max
  have hsame := h.tables.sameEntries hone (allocate_currentPD s 1)
  exact h.same hsame (hsame.tables (after_oneBlock h.tables.toReady hone) h.tables)

theorem Paging.Inv.noTable_of_missing (h : Paging.Inv ⟨s, own⟩) (hmiss : s.walk virt = none) :
    s.NoTable (virt / 4096 * 4096) := by
  obtain ⟨hdir, htable⟩ := (addressable_iff h.tables).mp h.addressable
  refine ⟨fun heq => ?_, fun i hi hp heq => ?_⟩
  · rw [← heq, walk_page, hmiss] at hdir
    contradiction
  · have hself := htable i hi hp
    rw [heq, walk_page, hmiss] at hself
    contradiction

theorem Paging.Inv.walk_allocate (h : Paging.Inv ⟨s, own⟩) (v : Nat) :
    (s.allocate 1).2.walk v = s.walk v :=
  (h.tables.sameEntries (allocate_one h.tables.max) (allocate_currentPD s 1)).walk v

theorem Paging.Inv.step {p p' : Paging} (c : PagingCall) (h : p.Inv) (hok : p.Sound c)
    (hs : p.step c = some p') : p'.Inv := by
  obtain ⟨s, own⟩ := p
  cases c with
  | mapPage phys virt =>
    obtain rfl := Option.some.inj hs
    exact h.mapPage phys.isLt virt.isLt hok.1 hok.2
  | fault badAddr ec =>
    unfold Paging.step at hs
    dsimp only at hs
    by_cases hmapped : ec &&& 1#32 = 0#32 ∧ s.walk badAddr.toNat ≠ none
    · rw [if_pos hmapped] at hs
      contradiction
    · rw [if_neg hmapped] at hs
      cases hret : pfHandler s badAddr ec with
      | none =>
        simp only [hret] at hs
        contradiction
      | some s' =>
        simp only [hret, Option.some.injEq] at hs
        obtain ⟨hec, huser, hnz, hmap⟩ := pfHandler_inv hret
        have hmiss : s.walk badAddr.toNat = none := by
          by_contra hne
          exact hmapped ⟨hec, hne⟩
        have hpage := faultPage_page badAddr
        have hmiss' : (s.allocate 1).2.walk (faultPage badAddr) = none := by
          rw [h.walk_allocate, ← walk_page, hpage, walk_page, hmiss]
        have hinv := h.allocate.mapPage (allocate_aligned 1 h.tables.max).2 (BitVec.isLt _)
          (hok ⟨hec, huser, hmiss, hnz⟩)
          (Or.inr (h.allocate.noTable_of_missing hmiss'))
        rw [hmap, Paging.mapped, Paging.noteMapped, hpage] at hinv
        exact hs ▸ hinv

theorem Paging.Inv.home (h : Paging.Inv ⟨s, own⟩) : TableAtHome own s virt ↔
    (¬IsPresent (s.load (pdeAddr s virt)) → (s.allocate 1).1 ≠ 0 →
      s.walk (s.allocate 1).1 = some (s.allocate 1).1) := by
  have hown := h.own_iff (allocate_aligned 1 h.tables.max)
  exact ⟨fun htable hnot hnz => hown.mp (htable hnot hnz),
    fun hwalk hnot hnz => hown.mpr (hwalk hnot hnz)⟩

theorem Paging.Inv.derefs {p : Paging} {c : PagingCall} {u : Vm} {x : Nat} (h : p.Inv)
    (hok : p.Sound c) (hx : p.Derefs c u x) : u.SelfMapped x := by
  obtain ⟨s, own⟩ := p
  cases c with
  | mapPage phys virt => exact selfMapped_of_deref h.tables h.addressable (h.home.mp hok.1) hx
  | fault badAddr ec =>
    have ht := h.allocate
    exact selfMapped_of_deref ht.tables ht.addressable (ht.home.mp (hok hx.1)) hx.2

theorem Paging.Inv.lost {phys : Nat} (h : Paging.Inv ⟨s, own⟩) (hphys : phys < 0x100000000)
    (hvirt : virt < 0x100000000) (hne : phys / 4096 ≠ virt / 4096)
    (hstruct : ¬s.NoTable (virt / 4096 * 4096)) :
    ¬(Paging.mapped own phys virt (SplongleOS.mapPage s phys virt)).vm.Addressable := by
  intro haddr
  obtain ⟨hdir, htable⟩ := (addressable_iff h.tables).mp h.addressable
  have hself : s.walk virt = some (virt / 4096 * 4096) := by
    rw [← walk_page]
    by_contra hno
    refine hstruct ⟨fun heq => hno (heq ▸ hdir), fun i hi hp heq => hno (heq ▸ htable i hi hp)⟩
  have hpde : IsPresent (s.pde (pdIndex virt)) := (walk_eq_some hself).1
  have hres := mapPage_result h.tables hphys hvirt
  generalize SplongleOS.mapPage s phys virt = r at hres haddr
  cases hres with
  | outOfMemory hnot => exact hnot hpde
  | @mapped t hm =>
    -- the structure is still there, its page names the frame of `phys`
    obtain ⟨hdir', htable'⟩ := (addressable_iff hm.tables).mp haddr
    have hmoved : t.walk (virt / 4096 * 4096) ≠ some (virt / 4096 * 4096) := by
      rw [walk_page, hm.walk, ne_eq, Option.some.injEq]
      omega
    refine hstruct ⟨fun heq => ?_, fun i hi hp heq => ?_⟩
    · rw [hm.dir] at hdir'
      exact hmoved (heq ▸ hdir')
    · rcases hm.pde i hi with hsame | ⟨_, hnot, _⟩
      · have hself' := htable' i hi (hsame ▸ hp)
        rw [hsame, heq] at hself'
        exact hmoved hself'
      · exact hnot hp

/-- The condition on a call is exact. -/
theorem Paging.Inv.sound_iff {p : Paging} (h : p.Inv) (c : PagingCall) : p.Sound c ↔
    (∀ u x, p.Derefs c u x → u.SelfMapped x) ∧ ∀ p', p.step c = some p' → p'.vm.Addressable := by
  refine ⟨fun hok => ⟨fun u x hx => h.derefs hok hx, fun p' hs => (h.step c hok hs).addressable⟩, ?_⟩
  rintro ⟨hderefs, hstep⟩
  obtain ⟨s, own⟩ := p
  cases c with
  | mapPage phys virt =>
    refine ⟨h.home.mpr fun hnot hnz => home_of_derefs h.tables hderefs hnot hnz, ?_⟩
    by_contra hno
    rw [not_or] at hno
    exact h.lost phys.isLt virt.isLt hno.1 hno.2 (hstep _ rfl)
  | fault badAddr ec =>
    have ht := h.allocate
    exact fun hserves => ht.home.mpr fun hnot hnz =>
      home_of_derefs ht.tables (fun u x hx => hderefs u x ⟨hserves, hx⟩) hnot hnz

def Paging.boot (s : Vm) : Paging := ⟨s, fun page => decide (page < 1024)⟩

def Spare (lo hi b : Nat) : Prop := (lo ≤ b ∧ b ≤ 5) ∨ b = 16 ∨ b = 32 ∨ (hi ≤ b ∧ b < 1056)

instance (lo hi : Nat) : DecidablePred (Spare lo hi) := fun b =>
  inferInstanceAs (Decidable ((lo ≤ b ∧ b ≤ 5) ∨ b = 16 ∨ b = 32 ∨ (hi ≤ b ∧ b < 1056)))

structure LowUsed (s : Pmm) (lo hi : Nat) : Prop where
  maxBlocks : s.maxBlocks = 1056
  map : s.memoryMap = 0x30000
  usedBlocks : s.usedBlocks + 1024 = 1016 + lo + hi
  status : ∀ b < 0x20000, checkBlock s b = false ↔ Spare lo hi b

theorem LowUsed.allocate {s : Pmm} {lo hi num b : Nat} (h : LowUsed s lo hi) (hn : 0 < num)
    (hcount : lo + hi + num ≤ 1064) (hlt : b < 1056) (hb : Spare lo hi b)
    (hprobe : num ≤ Nat.count (fun c => Spare lo hi (probeStart b + c)) (num + 1))
    (hfit : probeStart b + (num + 1) ≤ 0x20000)
    (hmin : ∀ c < b, Spare lo hi c → probeStart c + (num + 1) ≤ 0x20000 ∧
      Nat.count (fun d => Spare lo hi (probeStart c + d)) (num + 1) < num) (lo' hi' : Nat)
    (hnext : ∀ x, Spare lo' hi' x ↔ Spare lo hi x ∧ ¬(b ≤ x ∧ x < b + num))
    (hsum : lo' + hi' = lo + hi + num) :
    (allocateBlocks s num).1 = b * 4096 ∧ LowUsed (allocateBlocks s num).2 lo' hi' := by
  have hmax := h.maxBlocks
  have hused := h.usedBlocks
  have hsettles : Settles s num b := settles_of_status h.status (by decide) (by omega) (by omega)
    (by omega) hb hprobe hfit hmin
  have hfree : num ≤ freeCount s := by
    rw [freeCount, hmax]
    omega
  rw [allocateBlocks_eq (by omega) hfree hn ((settles_iff s hn (by omega) b).mp hsettles)]
  refine ⟨Nat.mod_eq_of_lt (by omega), ?_, ?_, ?_, fun x hx => ?_⟩
  · rw [takeBlocks_maxBlocks, hmax]
  · rw [takeBlocks_memoryMap, h.map]
  · change (s.usedBlocks + num) % 0x100000000 + 1024 = _
    omega
  · rw [← Bool.not_eq_true, checkBlock_takeBlocks s (by omega) (by omega), hnext, ← h.status x hx,
      ← Bool.not_eq_true]
    tauto

theorem LowUsed.write {s t : Vm} {lo hi : Nat} (h : LowUsed s.pmm lo hi) (hsame : SameManager s t)
    (hwords : ∀ w, 0xC000 ≤ w → t.pmm.mem w = s.pmm.mem w) : LowUsed t.pmm lo hi where
  maxBlocks := hsame.maxBlocks.trans h.maxBlocks
  map := hsame.memoryMap.trans h.map
  usedBlocks := hsame.usedBlocks ▸ h.usedBlocks
  status b hb := by
    have hslot : s.pmm.slot (b / 32 : Nat) = 0xC000 + b / 32 := by
      rw [Pmm.slot, h.map]
      omega
    rw [checkBlock_congr (s := s.pmm) hsame.memoryMap (hwords _ (by omega))]
    exact h.status b hb

end SplongleOS
