import SplongleOS.Base.LittleEndian
import SplongleOS.PhysicalManager
set_option autoImplicit false

/-! The multiboot memory map, memmap.c and multiboot.h, and the part of kernel_main
that builds the free map from it. The buffer GRUB leaves is a byte per address and
is not written while it is read. -/

namespace SplongleOS
open LittleEndian

structure MmapEntry where
  size : BitVec 32
  addr : BitVec 64
  len : BitVec 64
  type : BitVec 32
  deriving DecidableEq, Repr

structure MultibootInfo where
  flags : BitVec 32
  mmapLength : BitVec 32
  mmapAddr : BitVec 32
  deriving DecidableEq, Repr

def entryAt (buf : Nat → BitVec 8) (a : Nat) : MmapEntry :=
  let b := fun i => buf ((a + i) % 0x100000000)
  { size := BitVec.ofNat 32 (readLE b 0 4)
    addr := BitVec.ofNat 64 (readLE b 4 8)
    len := BitVec.ofNat 64 (readLE b 12 8)
    type := BitVec.ofNat 32 (readLE b 20 4) }

/-- The `while (offset < mmap_len)` loop that the functions of memmap.c share, with
`body` for what each does with an entry. `none` is a loop that has not ended. -/
def mmapLoop {σ : Type} (buf : Nat → BitVec 8) (mbinfo : MultibootInfo)
    (body : σ → MmapEntry → σ) : Nat → Nat → σ → Option σ
  | 0, _, _ => none
  | fuel + 1, offset, s =>
    if offset < mbinfo.mmapLength.toNat then
      let entry := entryAt buf (mbinfo.mmapAddr.toNat + offset)
      mmapLoop buf mbinfo body fuel ((offset + entry.size.toNat + 4) % 0x100000000) (body s entry)
    else some s

/-- One iteration for each value of a 32-bit offset, and the test that ends the loop. -/
def mmapFuel : Nat := 0x100000001

def getTotalMem (buf : Nat → BitVec 8) (mbinfo : MultibootInfo) : Option Nat :=
  if mbinfo.flags &&& 0x40#32 = 0#32 then some 0
  else mmapLoop buf mbinfo
    (fun total e => (total + e.len.toNat) % 0x10000000000000000) mmapFuel 0 0

def setType1Entry (s : Pmm) (e : MmapEntry) : Pmm :=
  let base := e.addr.toNat
  let length := e.len.toNat
  let last := (base + length) % 0x10000000000000000
  if base ≥ 0x100000000 then s
  else
    let length := if last > 0x100000000 then 0x100000000 - base else length
    if e.type = 1#32 then initializeRegion s base length
    else deinitializeRegion s base length

/-- Unlike `get_total_mem`, this does not test the MEM_MAP flag. -/
def setType1 (buf : Nat → BitVec 8) (mbinfo : MultibootInfo) (s : Pmm) : Option Pmm :=
  mmapLoop buf mbinfo setType1Entry mmapFuel 0 s

/-- kernel_main from `get_total_mem` to the second `deinitialize_region`. The statics
of the manager are zero before it, the memory is what the machine starts with. -/
def bootPmm (buf : Nat → BitVec 8) (mbinfo : MultibootInfo) (mem : WordMemory.Mem) :
    Option Pmm := do
  let total ← getTotalMem buf mbinfo
  let s := memoryManagerInit ⟨mem, 0, 0, 0, []⟩ 0x30000 total
  let s ← setType1 buf mbinfo s
  let s := deinitializeRegion s 0x100000 0x200000
  pure (deinitializeRegion s 0x30000 (total / 4096 / 8))

def mmapEntries (buf : Nat → BitVec 8) (mbinfo : MultibootInfo) : Option (List MmapEntry) :=
  mmapLoop buf mbinfo (fun es e => es ++ [e]) mmapFuel 0 []

theorem mmapLoop_collect {σ : Type} (buf : Nat → BitVec 8) (mbinfo : MultibootInfo)
    (body : σ → MmapEntry → σ) (fuel offset : Nat) (es : List MmapEntry) (s : σ) :
    mmapLoop buf mbinfo body fuel offset (es.foldl body s) =
      (mmapLoop buf mbinfo (fun es e => es ++ [e]) fuel offset es).map (List.foldl body s) := by
  induction fuel generalizing offset es with
  | zero => rfl
  | succ fuel ih =>
    rw [mmapLoop, mmapLoop]
    by_cases h : offset < mbinfo.mmapLength.toNat
    · have hstep := ih
        ((offset + (entryAt buf (mbinfo.mmapAddr.toNat + offset)).size.toNat + 4) % 0x100000000)
        (es ++ [entryAt buf (mbinfo.mmapAddr.toNat + offset)])
      rw [List.foldl_append] at hstep
      simpa [h] using hstep
    · simp [h]

theorem mmapLoop_eq {σ : Type} (buf : Nat → BitVec 8) (mbinfo : MultibootInfo)
    (body : σ → MmapEntry → σ) (s : σ) :
    mmapLoop buf mbinfo body mmapFuel 0 s = (mmapEntries buf mbinfo).map (List.foldl body s) :=
  mmapLoop_collect buf mbinfo body mmapFuel 0 [] s

def totalOf (es : List MmapEntry) : Nat :=
  es.foldl (fun total e => (total + e.len.toNat) % 0x10000000000000000) 0

def bootTotal (mbinfo : MultibootInfo) (es : List MmapEntry) : Nat :=
  if mbinfo.flags &&& 0x40#32 = 0#32 then 0 else totalOf es

def bootState (mem : WordMemory.Mem) (total : Nat) (es : List MmapEntry) : Pmm :=
  let s := memoryManagerInit ⟨mem, 0, 0, 0, []⟩ 0x30000 total
  let s := es.foldl setType1Entry s
  deinitializeRegion (deinitializeRegion s 0x100000 0x200000) 0x30000 (total / 4096 / 8)

theorem bootPmm_eq_some {buf : Nat → BitVec 8} {mbinfo : MultibootInfo} {mem : WordMemory.Mem}
    {s : Pmm} : bootPmm buf mbinfo mem = some s ↔
      ∃ es, mmapEntries buf mbinfo = some es ∧ s = bootState mem (bootTotal mbinfo es) es := by
  unfold bootPmm getTotalMem setType1
  rw [mmapLoop_eq]
  by_cases hf : mbinfo.flags &&& 0x40#32 = 0#32
  · cases he : mmapEntries buf mbinfo with
    | none => simp [hf, mmapLoop_eq, he]
    | some es => simp [hf, mmapLoop_eq, he, bootState, bootTotal, eq_comm]
  · cases he : mmapEntries buf mbinfo with
    | none => simp [hf]
    | some es => simp [hf, mmapLoop_eq, he, bootState, bootTotal, totalOf, eq_comm]

def entryByte (e : MmapEntry) (i : Nat) : BitVec 8 :=
  if i < 4 then byteAt e.size.toNat i
  else if i < 12 then byteAt e.addr.toNat (i - 4)
  else if i < 20 then byteAt e.len.toNat (i - 12)
  else byteAt e.type.toNat (i - 20)

/-- The records of `es` one after the other from address 0x10000. -/
def encodeMap (es : List MmapEntry) (a : Nat) : BitVec 8 :=
  ((es[(a - 0x10000) / 24]?).map fun e => entryByte e ((a - 0x10000) % 24)).getD 0#8

theorem entryAt_encodeMap {es : List MmapEntry} {k : Nat} (hk : k < es.length)
    (hlen : 24 * es.length < 0x10000000) : entryAt (encodeMap es) (0x10000 + 24 * k) = es[k] := by
  have hbyte : ∀ i < 24, encodeMap es ((0x10000 + 24 * k + i) % 0x100000000) = entryByte es[k] i := by
    intro i hi
    have hm : (0x10000 + 24 * k + i) % 0x100000000 = 0x10000 + 24 * k + i :=
      Nat.mod_eq_of_lt (by omega)
    have hd : (0x10000 + 24 * k + i - 0x10000) / 24 = k := by omega
    have hr : (0x10000 + 24 * k + i - 0x10000) % 24 = i := by omega
    simp [encodeMap, hm, hd, hr, hk]
  unfold entryAt
  have h1 : readLE (fun i => encodeMap es ((0x10000 + 24 * k + i) % 0x100000000)) 0 4 = es[k].size.toNat := by
    refine readLE_of_lt _ _ _ es[k].size.isLt fun i hi => ?_
    rw [hbyte (0 + i) (by omega), entryByte, if_pos (by omega), Nat.zero_add]
  have h2 : readLE (fun i => encodeMap es ((0x10000 + 24 * k + i) % 0x100000000)) 4 8 = es[k].addr.toNat := by
    refine readLE_of_lt _ _ _ es[k].addr.isLt fun i hi => ?_
    rw [hbyte (4 + i) (by omega), entryByte, if_neg (by omega), if_pos (by omega),
      Nat.add_sub_cancel_left]
  have h3 : readLE (fun i => encodeMap es ((0x10000 + 24 * k + i) % 0x100000000)) 12 8 = es[k].len.toNat := by
    refine readLE_of_lt _ _ _ es[k].len.isLt fun i hi => ?_
    rw [hbyte (12 + i) (by omega), entryByte, if_neg (by omega), if_neg (by omega),
      if_pos (by omega), Nat.add_sub_cancel_left]
  have h4 : readLE (fun i => encodeMap es ((0x10000 + 24 * k + i) % 0x100000000)) 20 4 = es[k].type.toNat := by
    refine readLE_of_lt _ _ _ es[k].type.isLt fun i hi => ?_
    rw [hbyte (20 + i) (by omega), entryByte, if_neg (by omega), if_neg (by omega),
      if_neg (by omega), Nat.add_sub_cancel_left]
  simp [h1, h2, h3, h4]

def mapInfo (es : List MmapEntry) : MultibootInfo :=
  { flags := 0x40#32, mmapLength := BitVec.ofNat 32 (24 * es.length), mmapAddr := 0x10000#32 }

theorem mmapLoop_encodeMap {σ : Type} (body : σ → MmapEntry → σ) {es : List MmapEntry}
    (hsize : ∀ e ∈ es, e.size = 20#32) (hlen : 24 * es.length < 0x10000000)
    (fuel k : Nat) (hk : k ≤ es.length) (hf : es.length < fuel + k) (s : σ) :
    mmapLoop (encodeMap es) (mapInfo es) body fuel (24 * k) s =
      some ((es.drop k).foldl body s) := by
  have hml : (mapInfo es).mmapLength.toNat = 24 * es.length := by
    simp only [mapInfo, BitVec.toNat_ofNat]
    exact Nat.mod_eq_of_lt (by omega)
  induction fuel generalizing k s with
  | zero => omega
  | succ fuel ih =>
    rw [mmapLoop, hml]
    by_cases hlt : k < es.length
    · have he := entryAt_encodeMap hlt hlen
      have h20 : es[k].size.toNat = 20 := by rw [hsize _ (List.getElem_mem hlt)]; rfl
      have hma : (mapInfo es).mmapAddr.toNat = 0x10000 := rfl
      have hnext : (24 * k + 20 + 4) % 0x100000000 = 24 * (k + 1) := by omega
      rw [if_pos (by omega), hma, he]
      simp only [h20, hnext]
      rw [ih (k + 1) (by omega) (by omega), List.drop_eq_getElem_cons hlt, List.foldl_cons]
    · have hend : k = es.length := by omega
      subst hend
      simp

theorem mmapEntries_encodeMap {es : List MmapEntry} (hsize : ∀ e ∈ es, e.size = 20#32)
    (hlen : 24 * es.length < 0x10000000) : mmapEntries (encodeMap es) (mapInfo es) = some es := by
  have h := mmapLoop_encodeMap (fun es e => es ++ [e]) hsize hlen mmapFuel 0 (by omega)
    (by unfold mmapFuel; omega) []
  have hcollect : ∀ l acc : List MmapEntry, l.foldl (fun es e => es ++ [e]) acc = acc ++ l := by
    intro l
    induction l with
    | nil => simp
    | cons e l ih => simp [ih]
  rw [hcollect] at h
  exact h

theorem bootPmm_encodeMap {es : List MmapEntry} (hsize : ∀ e ∈ es, e.size = 20#32)
    (hlen : 24 * es.length < 0x10000000) (mem : WordMemory.Mem) :
    bootPmm (encodeMap es) (mapInfo es) mem = some (bootState mem (totalOf es) es) := by
  have htotal : bootTotal (mapInfo es) es = totalOf es := if_neg (by simp [mapInfo])
  refine bootPmm_eq_some.mpr ⟨es, mmapEntries_encodeMap hsize hlen, ?_⟩
  rw [htotal]

end SplongleOS
