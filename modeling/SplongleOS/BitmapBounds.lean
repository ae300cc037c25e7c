import SplongleOS.FrameOwnership
set_option autoImplicit false

/-! Whether the block indices stay below `g_maxBlocks`. The bitmap has a bit for every
4 KB of the summed entry lengths, but set_type1 indexes it by entry addresses, and the
search probes from a bit mask on. -/

namespace SplongleOS
open WordMemory

/-- Every index handed to the bit functions so far names a managed block. -/
def Pmm.IndicesInside (s : Pmm) : Prop := ∀ i ∈ s.touched, 0 ≤ i ∧ i < s.maxBlocks

theorem Pmm.IndicesInside.inBitmap {s : Pmm} (h : s.IndicesInside) :
    ∀ i ∈ s.touched, (0 ≤ i ∧ i < s.maxBlocks) ∧ s.InBitmap (s.slot (i.tdiv 32)) := by
  intro i hi
  have hin := h i hi
  refine ⟨hin, i.toNat / 32, by omega, ?_⟩
  rw [Int.tdiv_eq_ediv_of_nonneg hin.1]
  congr 1
  omega

@[simp] theorem indicesInside_usedBlocks (s : Pmm) (u : Nat) :
    Pmm.IndicesInside { s with usedBlocks := u } ↔ s.IndicesInside := Iff.rfl

theorem setBlock_inside_iff (s : Pmm) (i : Int) :
    (setBlock s i).IndicesInside ↔ (0 ≤ i ∧ i < s.maxBlocks) ∧ s.IndicesInside := by
  simp [Pmm.IndicesInside]

theorem forBlocks_inside_iff (body : Pmm → Nat → Pmm) (idx : Nat → Int)
    (htouched : ∀ s b, b < 0x100000000 → (body s b).touched = idx b :: s.touched)
    (hbody : ∀ s b, (body s b).maxBlocks = s.maxBlocks)
    (hidx : ∀ b < 0x80000000, idx b = (b : Int)) (num align : Nat) {s : Pmm}
    (hmax : s.maxBlocks ≤ 0x100000) (halign : align ≤ 0x100000) :
    (forBlocks body num align s).IndicesInside ↔
      (num = 0 ∨ align + num ≤ s.maxBlocks) ∧ s.IndicesInside := by
  have hmem := forBlocks_touched body idx htouched num align s
  unfold Pmm.IndicesInside
  rw [forBlocks_maxBlocks body hbody]
  constructor
  · intro hall
    refine ⟨?_, fun y hy => hall y ((hmem y).mpr (Or.inr hy))⟩
    by_contra hout
    -- the first block of the range that is not managed
    obtain ⟨x, hx⟩ : ∃ x, x = max align s.maxBlocks := ⟨_, rfl⟩
    have hin := hall x ((hmem x).mpr (Or.inl ⟨x - align, by omega, by
      rw [Nat.mod_eq_of_lt (by omega), hidx _ (by omega)]
      omega⟩))
    omega
  · rintro ⟨hfit, hall⟩ y hy
    rcases (hmem y).mp hy with ⟨i, hi, rfl⟩ | hy
    · rw [Nat.mod_eq_of_lt (by omega), hidx _ (by omega)]
      omega
    · exact hall y hy

theorem initializeRegion_inside_iff {s : Pmm} {base : Nat} (size : Nat) (hbase : base < 0x100000000)
    (hmax : s.maxBlocks ≤ 0x100000) :
    (initializeRegion s base size).IndicesInside ↔ 0 < s.maxBlocks ∧
      (regionBlocks base size = 0 ∨ base / 4096 + regionBlocks base size ≤ s.maxBlocks) ∧
        s.IndicesInside := by
  have hloop := forBlocks_inside_iff initializeBlock (fun b => (b : Int)) (fun _ _ _ => rfl)
    (fun _ _ => rfl) (fun _ _ => rfl) (regionBlocks base size) (base / 4096) hmax (by omega)
  unfold initializeRegion
  rw [if_neg (by omega), setBlock_inside_iff, hloop,
    forBlocks_maxBlocks initializeBlock fun _ _ => rfl]
  simp

theorem deinitializeRegion_inside_iff {s : Pmm} {base : Nat} (size : Nat)
    (hbase : base < 0x100000000) (hmax : s.maxBlocks ≤ 0x100000) :
    (deinitializeRegion s base size).IndicesInside ↔
      (regionBlocks base size = 0 ∨ base / 4096 + regionBlocks base size ≤ s.maxBlocks) ∧
        s.IndicesInside := by
  unfold deinitializeRegion
  rw [if_neg (by omega)]
  exact forBlocks_inside_iff deinitializeBlock toInt32 (fun _ _ _ => rfl) (fun _ _ => rfl)
    (fun b hb => toInt32_of_lt hb) _ _ hmax (by omega)

def MmapEntry.Within (e : MmapEntry) (maxBlocks : Nat) : Prop :=
  0x100000000 ≤ e.addr.toNat ∨ e.blocks = 0 ∨ e.align + e.blocks ≤ maxBlocks

instance (e : MmapEntry) (maxBlocks : Nat) : Decidable (e.Within maxBlocks) :=
  inferInstanceAs (Decidable (_ ∨ _ ∨ _))

theorem setType1Entry_inside_iff {s : Pmm} (e : MmapEntry) (hpos : 0 < s.maxBlocks)
    (hmax : s.maxBlocks ≤ 0x100000) :
    (setType1Entry s e).IndicesInside ↔ e.Within s.maxBlocks ∧ s.IndicesInside := by
  unfold setType1Entry MmapEntry.Within
  by_cases hhigh : 0x100000000 ≤ e.addr.toNat
  · simp [hhigh]
  · have hlen := regionBlocks_setType1 e hhigh
    simp only [ge_iff_le, hhigh, ↓reduceIte, false_or]
    split
    · rw [initializeRegion_inside_iff _ (by omega) hmax, hlen]
      exact and_iff_right hpos
    · rw [deinitializeRegion_inside_iff _ (by omega) hmax, hlen]
      rfl

theorem foldl_setType1Entry_inside_iff (es : List MmapEntry) {s : Pmm} (hpos : 0 < s.maxBlocks)
    (hmax : s.maxBlocks ≤ 0x100000) :
    (es.foldl setType1Entry s).IndicesInside ↔
      (∀ e ∈ es, e.Within s.maxBlocks) ∧ s.IndicesInside := by
  induction es generalizing s with
  | nil => simp
  | cons e es ih =>
    have hkeep := setType1Entry_maxBlocks s e
    rw [List.foldl_cons, ih (hkeep ▸ hpos) (hkeep ▸ hmax), hkeep,
      setType1Entry_inside_iff e hpos hmax, List.forall_mem_cons]
    tauto

def MapInside (maxBlocks : Nat) (es : List MmapEntry) : Prop :=
  768 ≤ maxBlocks ∧ ∀ e ∈ es, e.Within maxBlocks

instance (maxBlocks : Nat) (es : List MmapEntry) : Decidable (MapInside maxBlocks es) :=
  inferInstanceAs (Decidable (_ ∧ _))

theorem bitmapBlocks_managed {total : Nat} (ht : total < 0x10000000000000000)
    (h : 768 ≤ managedBlocks total) :
    48 + regionBlocks 0x30000 (total / 4096 / 8) ≤ managedBlocks total := by
  unfold managedBlocks regionBlocks clipSize at *
  split <;> omega

theorem bootState_inside_iff (mem : Mem) {total : Nat} (es : List MmapEntry)
    (ht : total < 0x10000000000000000) :
    (bootState mem total es).IndicesInside ↔ MapInside (managedBlocks total) es := by
  have hmax := managedBlocks_le total
  have hinit : (memoryManagerInit ⟨mem, 0, 0, 0, []⟩ 0x30000 total).IndicesInside := by
    simp [Pmm.IndicesInside, memoryManagerInit]
  have hk : regionBlocks 0x100000 0x200000 = 512 := by decide
  have hset : (es.foldl setType1Entry
      (memoryManagerInit ⟨mem, 0, 0, 0, []⟩ 0x30000 total)).maxBlocks = managedBlocks total := by
    rw [foldl_setType1Entry_maxBlocks, memoryManagerInit_maxBlocks]
  unfold bootState MapInside
  rw [deinitializeRegion_inside_iff _ (by omega) (by simp [hset, hmax]),
    deinitializeRegion_inside_iff _ (by omega) (by simp [hset, hmax]),
    deinitializeRegion_maxBlocks, hset, hk]
  constructor
  · rintro ⟨_, hkernel, hin⟩
    rw [foldl_setType1Entry_inside_iff es (by rw [memoryManagerInit_maxBlocks]; omega)
      (by rw [memoryManagerInit_maxBlocks]; exact hmax), memoryManagerInit_maxBlocks] at hin
    exact ⟨by omega, hin.1⟩
  · rintro ⟨hlow, hes⟩
    have hbitmap := bitmapBlocks_managed ht hlow
    refine ⟨Or.inr (by omega), Or.inr (by omega), ?_⟩
    rw [foldl_setType1Entry_inside_iff es (by rw [memoryManagerInit_maxBlocks]; omega)
      (by rw [memoryManagerInit_maxBlocks]; exact hmax), memoryManagerInit_maxBlocks]
    exact ⟨hes, hinit⟩

def Tries (s : Pmm) (num b : Nat) : Prop :=
  b < 32 * (s.maxBlocks / 32) ∧ checkBlock s b = false ∧ ∀ c < b, ¬Accepts s num c

/-- The probes of every block tried stay below `g_maxBlocks` until they have counted enough. -/
def ProbesInside (s : Pmm) (num : Nat) : Prop :=
  ∀ b, Tries s num b → ∀ k ≤ num, freeProbes s (probeStart b) k < num →
    (probeStart b + k) % 0x100000000 < s.maxBlocks

/-- A request is refused by the count, or it probes managed blocks and takes managed blocks. -/
def SearchInside (s : Pmm) (num : Nat) : Prop :=
  freeCount s < num ∨ num = 0 ∨
    (ProbesInside s num ∧ ∀ b, Settles s num b → b + num ≤ s.maxBlocks)

theorem ProbesInside.not_tries {s : Pmm} {b : Nat} (h : ProbesInside s 0xFFFFFFFF)
    (hmax : s.maxBlocks ≤ 0x100000) : ¬Tries s 0xFFFFFFFF b := by
  intro ht
  have hout : ∀ k < 0xFFFFFFFF, (probeStart b + k) % 0x100000000 < s.maxBlocks := fun k hk =>
    h b ht k (by omega) ((Nat.count_le _).trans_lt hk)
  have hstart := hout 0 (by omega)
  have hmiss := hout (s.maxBlocks - probeStart b % 0x100000000) (by omega)
  omega

theorem ProbesInside.used {s : Pmm} {b : Nat} (h : ProbesInside s 0xFFFFFFFF)
    (hmax : s.maxBlocks ≤ 0x100000) (hb : b < 32 * (s.maxBlocks / 32)) : checkBlock s b = true := by
  by_contra hfree
  obtain ⟨c, hc, hmin⟩ := exists_least (P := fun c => ¬checkBlock s c = true) ⟨b, hfree⟩
  have hle : ¬b < c := fun hlt => hmin b hlt hfree
  exact h.not_tries hmax ⟨by omega, by simpa using hc, fun d hd hacc => hmin d hd (by simp [hacc.1])⟩

theorem ProbesInside.lt {s : Pmm} {num b : Nat} (h : ProbesInside s num)
    (hmax : s.maxBlocks ≤ 0x100000) (hnum : num ≤ 0xFFFFFFFF) (hb : b < 32 * (s.maxBlocks / 32))
    (hfree : checkBlock s b = false) : num < 0xFFFFFFFF := by
  rcases Nat.lt_or_eq_of_le hnum with hlt | rfl
  · exact hlt
  · exact Bool.noConfusion ((h.used hmax hb).symm.trans hfree)

theorem tries_iff {s : Pmm} {num b : Nat} (hn : 0 < num) (hnum : num < 0xFFFFFFFF) :
    Tries s num b ↔ b < 32 * (s.maxBlocks / 32) ∧ Tried s num 0 b := by
  simp [Tries, Tried, accepts_iff s hn hnum]

theorem Tries.tried {s : Pmm} {num b : Nat} (h : Tries s num b) (hn : 0 < num)
    (hnum : num ≤ 0xFFFFFFFF) : Tried s num 0 b := by
  rcases Nat.lt_or_eq_of_le hnum with hlt | rfl
  · exact ((tries_iff hn hlt).mp h).2
  · obtain ⟨_, hfree, hmin⟩ := h
    refine ⟨Nat.zero_le b, hfree, fun c _ hc => ?_⟩
    have hused : checkBlock s c = true := by
      by_contra hno
      exact hmin c hc ⟨by simpa using hno, Or.inl rfl⟩
    simp [candidate, hused]

theorem probed_inside_iff {s : Pmm} {num : Nat} (hn : 0 < num) (hnum : num ≤ 0xFFFFFFFF)
    (hmax : s.maxBlocks ≤ 0x100000) :
    (∀ i ∈ probed s num, 0 ≤ i ∧ i < s.maxBlocks) ↔ ProbesInside s num := by
  have hlist : (∀ i ∈ probed s num, 0 ≤ i ∧ i < s.maxBlocks) ↔
      ∀ x ∈ (findFirstFreeBlock s num).2, x < s.maxBlocks := by
    simp [probed]
  rw [hlist]
  constructor
  · intro hall b hb k hk hlt
    exact hall _ ((mem_findFirstFreeBlock_snd s hn _).mpr
      ⟨b, hb.1, hb.tried hn hnum, mem_probe_of_lt s hnum hk hlt⟩)
  · intro hin x hx
    obtain ⟨b, hb, htried, hxb⟩ := (mem_findFirstFreeBlock_snd s hn x).mp hx
    have hlt := hin.lt hmax hnum hb htried.2.1
    obtain ⟨k, hk, hfew, rfl⟩ := (mem_probe_snd s hn hlt x).mp hxb
    exact hin b ((tries_iff hn hlt).mpr ⟨hb, htried⟩) k hk hfew

theorem probed_touched_inside_iff {s : Pmm} {num : Nat} (hn : 0 < num) (hnum : num ≤ 0xFFFFFFFF)
    (hmax : s.maxBlocks ≤ 0x100000) (h : s.IndicesInside) :
    Pmm.IndicesInside { s with touched := probed s num ++ s.touched } ↔ ProbesInside s num := by
  rw [← probed_inside_iff hn hnum hmax]
  exact List.forall_mem_append.trans (and_iff_left h)

theorem takeBlocks_inside_iff {s : Pmm} {num b : Nat} (hn : 0 < num) (hnum : num ≤ 0xFFFFFFFF)
    (hmax : s.maxBlocks ≤ 0x100000) (hb : b < s.maxBlocks) (h : s.IndicesInside) :
    (takeBlocks s num b).IndicesInside ↔ b + num ≤ s.maxBlocks ∧ ProbesInside s num := by
  have hloop := forBlocks_inside_iff allocateBlock toInt32 (fun _ _ _ => rfl) (fun _ _ => rfl)
    (fun c hc => toInt32_of_lt hc) num b
    (s := { s with touched := probed s num ++ s.touched }) hmax (by omega)
  rw [takeBlocks, indicesInside_usedBlocks, hloop, probed_touched_inside_iff hn hnum hmax h,
    or_iff_right (by omega)]

theorem allocateBlocks_inside_iff {s : Pmm} {num : Nat} (hmax : s.maxBlocks ≤ 0x100000)
    (hnum : num ≤ 0xFFFFFFFF) (h : s.IndicesInside) :
    (allocateBlocks s num).2.IndicesInside ↔ SearchInside s num := by
  have hall := allocateBlocks_cases s num hmax
  generalize allocateBlocks s num = r at hall ⊢
  cases hall with
  | refused hno => exact iff_of_true h (hno.imp_right Or.inl)
  | notFound hcount hno =>
    by_cases hn : num = 0
    · subst hn
      exact iff_of_true (by simpa [probed, findFirstFreeBlock] using h) (Or.inr (Or.inl rfl))
    · have hpos := Nat.pos_of_ne_zero hn
      rw [probed_touched_inside_iff hpos hnum hmax h, SearchInside, or_iff_right (by omega),
        or_iff_right hn]
      refine (and_iff_left_of_imp fun hin b hb => ?_).symm
      have hlt := hin.lt hmax hnum hb.1 hb.2.1.1
      have hcand := ((settles_iff s hpos hlt b).mp hb).2.1
      exact Bool.noConfusion (hcand.symm.trans (hno b hb.1))
  | taken hcount hn hfirst =>
    have hb := hfirst.1
    rw [takeBlocks_inside_iff hn hnum hmax (by omega) h, SearchInside, or_iff_right (by omega),
      or_iff_right (by omega), and_comm]
    refine and_congr_right fun hin => ?_
    have hlt := hin.lt hmax hnum hb hfirst.free
    constructor
    · intro hfit c hc
      rwa [((settles_iff s hn hlt c).mp hc).unique hfirst]
    · exact fun hset => hset _ ((settles_iff s hn hlt _).mpr hfirst)

theorem freeBlocks_inside_iff {s : Pmm} {e : Alloc} (hmax : s.maxBlocks ≤ 0x100000)
    (hfit : e.address / 4096 + e.blocks ≤ s.maxBlocks) :
    (freeBlocks s e.address e.blocks).IndicesInside ↔ s.IndicesInside := by
  have hloop := forBlocks_inside_iff unsetBlock (fun b => (b : Int)) (fun _ _ _ => rfl)
    (fun _ _ => rfl) (fun _ _ => rfl) e.blocks (e.address / 4096) hmax (by omega)
  rw [freeBlocks, indicesInside_usedBlocks, hloop]
  exact and_iff_right (Or.inr hfit)

structure Owned.Contained (o : Owned) : Prop where
  max : o.pmm.maxBlocks ≤ 0x100000
  fits : ∀ e ∈ o.live, e.address / 4096 + e.blocks ≤ o.pmm.maxBlocks
  inside : o.pmm.IndicesInside

def Owned.SearchesInside (o : Owned) : Call → Prop
  | .allocate n => SearchInside o.pmm n.toNat
  | _ => True

theorem searchInside_fits {s : Pmm} {num : Nat} (hmax : s.maxBlocks ≤ 0x100000)
    (hnum : num ≤ 0xFFFFFFFF) (h : SearchInside s num) (ha : (allocateBlocks s num).1 ≠ 0) :
    (allocateBlocks s num).1 / 4096 + num ≤ s.maxBlocks := by
  obtain ⟨hcount, hn, hfirst, _⟩ := allocateBlocks_address hmax ha
  rcases h with hfew | hzero | ⟨hin, hset⟩
  · omega
  · omega
  · exact hset _ ((settles_iff s hn (hin.lt hmax hnum hfirst.1 hfirst.free) _).mpr hfirst)

theorem searchesInside_allocate {s : Pmm} {live : List Alloc} {n : BitVec 32} {num : Nat}
    (hn : n.toNat = num) (h : SearchInside s num) :
    Owned.SearchesInside ⟨s, live⟩ (.allocate n) := by
  subst hn
  exact h

theorem searchesInside_allocate_iff {o : Owned} {n : BitVec 32} {t : Pmm} {live : List Alloc}
    (h : t.IndicesInside ↔ SearchInside o.pmm n.toNat) :
    (Owned.mk t live).pmm.IndicesInside ↔ o.SearchesInside (.allocate n) := h

/-- The condition is exact: it is what keeps the indices inside. -/
theorem Owned.Contained.inside_iff {o o' : Owned} {c : Call} (h : o.Contained)
    (hs : o.step c = some o') : o'.pmm.IndicesInside ↔ o.SearchesInside c := by
  cases c with
  | allocate n =>
    simp only [Owned.step, Option.some.injEq] at hs
    subst hs
    exact searchesInside_allocate_iff (allocateBlocks_inside_iff h.max (by omega) h.inside)
  | free e =>
    by_cases he : e ∈ o.live
    · simp only [Owned.step, he, ↓reduceIte, Option.some.injEq] at hs
      subst hs
      exact iff_of_true ((freeBlocks_inside_iff h.max (h.fits e he)).mpr h.inside) trivial
    · simp [Owned.step, he] at hs
  | write w v =>
    by_cases hw : o.pmm.InBitmap w
    · simp [Owned.step, hw] at hs
    · simp only [Owned.step, hw, ↓reduceIte, Option.some.injEq] at hs
      subst hs
      exact iff_of_true h.inside trivial

theorem Owned.Contained.returned {o : Owned} {t : Pmm} {a num : Nat} (h : o.Contained)
    (hfits : a ≠ 0 → a / 4096 + num ≤ o.pmm.maxBlocks) (hmax : t.maxBlocks = o.pmm.maxBlocks)
    (hinside : t.IndicesInside) :
    Owned.Contained { pmm := t, live := if a = 0 then o.live else ⟨a, num⟩ :: o.live } := by
  refine ⟨hmax.trans_le h.max, ?_, hinside⟩
  rw [hmax]
  by_cases ha : a = 0
  · rw [if_pos ha]
    exact h.fits
  · rw [if_neg ha]
    exact List.forall_mem_cons.mpr ⟨hfits ha, h.fits⟩

theorem Owned.Contained.allocate {o o' : Owned} {n : BitVec 32} (h : o.Contained)
    (hok : SearchInside o.pmm n.toNat) (hs : o.step (.allocate n) = some o') : o'.Contained := by
  simp only [Owned.step, Option.some.injEq] at hs
  subst hs
  exact h.returned (searchInside_fits h.max (by omega) hok) (allocateBlocks_maxBlocks n.toNat h.max)
    ((allocateBlocks_inside_iff h.max (by omega) h.inside).mpr hok)

theorem Owned.Contained.step {o o' : Owned} (c : Call) (h : o.Contained)
    (hok : o.SearchesInside c) (hs : o.step c = some o') : o'.Contained := by
  have hinside := (h.inside_iff hs).mpr hok
  cases c with
  | allocate n => exact h.allocate hok hs
  | free e =>
    by_cases he : e ∈ o.live
    · simp only [Owned.step, he, ↓reduceIte, Option.some.injEq] at hs
      subst hs
      have hmax := freeBlocks_maxBlocks o.pmm e.address e.blocks
      exact ⟨hmax.trans_le h.max,
        fun e' he' => hmax ▸ h.fits e' (List.mem_of_mem_erase he'), hinside⟩
    · simp [Owned.step, he] at hs
  | write w v =>
    by_cases hw : o.pmm.InBitmap w
    · simp [Owned.step, hw] at hs
    · simp only [Owned.step, hw, ↓reduceIte, Option.some.injEq] at hs
      subst hs
      exact ⟨h.max, h.fits, hinside⟩

/-- Every run whose requests search and take managed blocks touches only bits of the
bitmap, exactly when the memory map stays inside the managed range. -/
theorem bitmap_bounds {buf : Nat → BitVec 8} {mbinfo : MultibootInfo} {mem : Mem} {s0 : Pmm}
    {es : List MmapEntry} (hes : mmapEntries buf mbinfo = some es)
    (hboot : bootPmm buf mbinfo mem = some s0) :
    (∀ o, Owned.Run Owned.SearchesInside s0 o → ∀ i ∈ o.pmm.touched,
        (0 ≤ i ∧ i < o.pmm.maxBlocks) ∧ o.pmm.InBitmap (o.pmm.slot (i.tdiv 32))) ↔
      MapInside s0.maxBlocks es := by
  obtain ⟨_, hes', rfl⟩ := bootPmm_eq_some.mp hboot
  obtain rfl : es = _ := Option.some.inj (hes.symm.trans hes')
  have ht := bootTotal_lt mbinfo es
  have hmax := managedBlocks_le (bootTotal mbinfo es)
  rw [bootState_maxBlocks, ← bootState_inside_iff mem es ht]
  constructor
  · exact fun hall i hi => (hall _ (.start rfl) i hi).1
  · intro hinside o h
    have hinv : o.Contained := by
      refine Runs.Reach.invariant (I := Owned.Contained) ?_
        (fun _ c _ hi hok hs => hi.step c hok hs) h
      rintro _ rfl
      exact ⟨by rwa [bootState_maxBlocks], by simp, hinside⟩
    exact hinv.inside.inBitmap

def flatMap : List MmapEntry := [⟨20#32, 0#64, 0x400000#64, 1#32⟩]

def flatState : Pmm := bootState (fun _ => 0#32) 0x400000 flatMap

theorem flatState_maxBlocks : flatState.maxBlocks = 1024 := bootState_maxBlocks _ _ _

theorem checkBlock_flatState {b : Nat} (hb : b < 1024) :
    checkBlock flatState b = false ↔ (1 ≤ b ∧ b < 256) ∨ (768 ≤ b ∧ b < 1024) := by
  have hk : regionBlocks 0x30000 (0x400000 / 4096 / 8) = 0 := by decide
  rw [flatState, checkBlock_bootState_eq_false _ flatMap (by decide) (by omega), leftFree_iff,
    statusAfter_eq_interval (by decide), KernelBlock, hk]
  simp only [flatMap, List.foldl_cons, List.foldl_nil, MmapEntry.interval, MmapEntry.Available,
    MmapEntry.align, MmapEntry.blocks, regionBlocks, clipSize, BitVec.toNat_ofNat]
  simp
  grind

theorem searchInside_flatState : SearchInside flatState 1 := by
  have hfree1 := (checkBlock_flatState (b := 1) (by omega)).mpr (by omega)
  have hfree2 := (checkBlock_flatState (b := 2) (by omega)).mpr (by omega)
  have hused : checkBlock flatState 0 = true := by
    by_contra hno
    have hin := (checkBlock_flatState (b := 0) (by omega)).mp (by simpa using hno)
    omega
  have hstart : probeStart 1 = 2 := by decide
  have haccepts : Accepts flatState 1 1 := by
    refine ⟨hfree1, Or.inr ?_⟩
    have hone : freeProbes flatState (probeStart 1) (0 + 1) = 1 := by
      rw [freeProbes_succ, hstart]
      simp [freeProbes, hfree2]
    exact hone.ge.trans (freeProbes_mono _ _ (by omega))
  refine Or.inr (Or.inr ⟨?_, ?_⟩)
  · rintro b ⟨_, hfree, hmin⟩ k hk _
    have hb1 : ¬1 < b := fun hlt => hmin 1 hlt haccepts
    have hb0 : b ≠ 0 := by
      rintro rfl
      exact Bool.noConfusion (hused.symm.trans hfree)
    obtain rfl : b = 1 := by omega
    rw [flatState_maxBlocks, hstart]
    omega
  · rintro b ⟨hlt, _⟩
    omega

theorem bootPmm_flatState :
    bootPmm (encodeMap flatMap) (mapInfo flatMap) (fun _ => 0#32) = some flatState :=
  bootPmm_encodeMap (by decide) (by decide) _

theorem mapInside_flatState : MapInside flatState.maxBlocks flatMap := by
  rw [flatState_maxBlocks]
  decide

theorem bitmap_bounds_flat : ∃ o, Owned.step ⟨flatState, []⟩ (.allocate 1#32) = some o ∧
    ∀ i ∈ o.pmm.touched,
      (0 ≤ i ∧ i < o.pmm.maxBlocks) ∧ o.pmm.InBitmap (o.pmm.slot (i.tdiv 32)) := by
  have hall := (bitmap_bounds (mmapEntries_encodeMap (by decide) (by decide))
    bootPmm_flatState).mpr mapInside_flatState
  have hone : (1#32).toNat = 1 := rfl
  have hok : Owned.SearchesInside ⟨flatState, []⟩ (.allocate 1#32) :=
    searchesInside_allocate hone searchInside_flatState
  obtain ⟨o, hs⟩ : ∃ o, Owned.step ⟨flatState, []⟩ (.allocate 1#32) = some o := ⟨_, rfl⟩
  have hstart : Owned.Run Owned.SearchesInside flatState ⟨flatState, []⟩ := .start rfl
  have hrun : Owned.Run Owned.SearchesInside flatState o := hstart.next _ hok hs
  exact ⟨o, hs, hall o hrun⟩

/-- On the 512 MB machine the reserved pages below 4 GB are blocks 0xFFFC0 to 0xFFFFF of
a bitmap for 131056. -/
theorem bitmap_bounds_qemu :
    ¬∀ (buf : Nat → BitVec 8) (mbinfo : MultibootInfo) (mem : Mem) (s0 : Pmm) (o : Owned),
      bootPmm buf mbinfo mem = some s0 → Owned.Run (fun _ _ => True) s0 o →
        ∀ i ∈ o.pmm.touched, 0 ≤ i ∧ i < o.pmm.maxBlocks := by
  intro hall
  have hinside : qemuState.IndicesInside :=
    hall _ _ _ _ ⟨qemuState, []⟩ bootPmm_qemuState (.start rfl)
  rw [qemuState, bootState_inside_iff _ qemuMap (by decide)] at hinside
  exact absurd hinside (by decide)

end SplongleOS
