import SplongleOS.Base.Walk
import SplongleOS.Memmap
import SplongleOS.Printk
set_option autoImplicit false

/-! Whether the loops of memmap.c end and stay inside the buffer. The next offset is read
from the buffer and added in 32 bits, and nothing compares an entry with the end. -/

namespace SplongleOS
open Stdio (Arg ch)

variable (buf : Nat → BitVec 8) (mbinfo : MultibootInfo)

def printed (format : String) (args : List Arg) : List (BitVec 8) :=
  (Stdio.printk (fun i => (args.flatMap Arg.words).getD i 0#32) (fun _ => [])
    (format.toList.map ch)).out

def unsignedArg (v : BitVec 32) : Arg := .number .none false v
def longLongArg (v : BitVec 64) : Arg := .number .ll false v

/-- The 64-bit counter is returned as a uint32_t. -/
def getNumEntries : Option Nat :=
  if mbinfo.flags &&& 0x40#32 = 0#32 then some 0
  else
    (mmapLoop buf mbinfo (fun numEntries _ => (numEntries + 1) % 0x10000000000000000) mmapFuel 0 0).map
      (· % 0x100000000)

structure MemmapSummary where
  freeMem : BitVec 64
  totalMem : BitVec 64
  out : List (BitVec 8)

def MemmapSummary.entry (s : MemmapSummary) (e : MmapEntry) : MemmapSummary :=
  { totalMem := s.totalMem + e.len
    freeMem := if e.type = 1#32 then s.freeMem + e.len else s.freeMem
    out := s.out ++ printed "mmap: base=0x%llx len=0x%llx type=%u\n"
      [longLongArg e.addr, longLongArg e.len, unsignedArg e.type] }

def MemmapSummary.finish (s : MemmapSummary) : List (BitVec 8) :=
  s.out ++ printed
    "Total blocks: %llu\nTotal used blocks: %llu\nTotal free blocks: %llu\n"
    [longLongArg (s.totalMem / 4096#64), longLongArg ((s.totalMem - s.freeMem) / 4096#64),
      longLongArg (s.freeMem / 4096#64)]

def parseMultibootMemmap (memLower memUpper : BitVec 32) : Option (List (BitVec 8)) :=
  if mbinfo.flags &&& 0x40#32 = 0#32 then
    some (printed "No multiboot memory map; mem_lower=%u mem_upper=%u\n"
      [unsignedArg memLower, unsignedArg memUpper])
  else (mmapLoop buf mbinfo MemmapSummary.entry mmapFuel 0 ⟨0#64, 0#64, []⟩).map MemmapSummary.finish

/-- `offset += entry->size + sizeof(entry->size)`. -/
def nextOffset (offset : Nat) : Nat :=
  (offset + (entryAt buf (mbinfo.mmapAddr.toNat + offset)).size.toNat + 4) % 0x100000000

def mmapOffsets : Option (List Nat) :=
  Walk.walk (nextOffset buf mbinfo) (· < mbinfo.mmapLength.toNat) mmapFuel 0

def entriesAt (offsets : List Nat) : List MmapEntry :=
  offsets.map fun offset => entryAt buf (mbinfo.mmapAddr.toNat + offset)

theorem mmapLoop_walk {σ : Type} (body : σ → MmapEntry → σ) (fuel offset : Nat) (s : σ) :
    mmapLoop buf mbinfo body fuel offset s =
      (Walk.walk (nextOffset buf mbinfo) (· < mbinfo.mmapLength.toNat) fuel offset).map
        fun offsets => (entriesAt buf mbinfo offsets).foldl body s := by
  induction fuel generalizing offset s with
  | zero => rfl
  | succ fuel ih =>
    rw [mmapLoop, Walk.walk]
    by_cases h : offset < mbinfo.mmapLength.toNat
    · have hstep := ih (nextOffset buf mbinfo offset)
        (body s (entryAt buf (mbinfo.mmapAddr.toNat + offset)))
      rw [nextOffset] at hstep
      simp only [h, ↓reduceIte, hstep, Option.map_map]
      rfl
    · simp [h, entriesAt]

inductive MemmapCall where
  | getTotalMem
  | getNumEntries
  | parseMultibootMemmap
  | setType1
  deriving DecidableEq, Repr

/-- The offsets a call visits, `none` while it has not ended. -/
def MemmapCall.visited : MemmapCall → Option (List Nat)
  | .setType1 => mmapOffsets buf mbinfo
  | _ => if mbinfo.flags &&& 0x40#32 = 0#32 then some [] else mmapOffsets buf mbinfo

theorem getTotalMem_visited : getTotalMem buf mbinfo =
    (MemmapCall.getTotalMem.visited buf mbinfo).map fun offsets =>
      totalOf (entriesAt buf mbinfo offsets) := by
  unfold getTotalMem MemmapCall.visited
  split
  · rfl
  · exact mmapLoop_walk ..

theorem getNumEntries_visited : getNumEntries buf mbinfo =
    (MemmapCall.getNumEntries.visited buf mbinfo).map fun offsets =>
      (entriesAt buf mbinfo offsets).foldl
        (fun numEntries _ => (numEntries + 1) % 0x10000000000000000) 0 % 0x100000000 := by
  unfold getNumEntries MemmapCall.visited
  split
  · rfl
  · rw [mmapLoop_walk, Option.map_map]
    rfl

theorem parseMultibootMemmap_visited (memLower memUpper : BitVec 32) :
    parseMultibootMemmap buf mbinfo memLower memUpper =
      (MemmapCall.parseMultibootMemmap.visited buf mbinfo).map fun offsets =>
        if mbinfo.flags &&& 0x40#32 = 0#32 then
          printed "No multiboot memory map; mem_lower=%u mem_upper=%u\n"
            [unsignedArg memLower, unsignedArg memUpper]
        else ((entriesAt buf mbinfo offsets).foldl MemmapSummary.entry ⟨0#64, 0#64, []⟩).finish := by
  unfold parseMultibootMemmap MemmapCall.visited
  by_cases h : mbinfo.flags &&& 0x40#32 = 0#32
  · simp only [h, ↓reduceIte, Option.map_some]
  · simp only [h, ↓reduceIte, mmapLoop_walk, Option.map_map]
    rfl

theorem setType1_visited (s : Pmm) : setType1 buf mbinfo s =
    (MemmapCall.setType1.visited buf mbinfo).map fun offsets =>
      (entriesAt buf mbinfo offsets).foldl setType1Entry s :=
  mmapLoop_walk ..

/-- The 24 bytes of the entry at the offset lie in the buffer. -/
def EntryInside (offset : Nat) : Prop :=
  offset + 24 ≤ mbinfo.mmapLength.toNat ∧ mbinfo.mmapAddr.toNat + offset + 24 ≤ 0x100000000

/-- From offset 0 each entry is complete and its size field leads to the next one, until
an offset is past the end. -/
def CompleteMap : Prop :=
  Walk.Ends (nextOffset buf mbinfo) (· < mbinfo.mmapLength.toNat) (EntryInside mbinfo) 0

/-- The four calls end, read inside the buffer, visit the same entries, and none without
the MEM_MAP flag. What a call returns is made of the entries it visits. -/
structure WalksSafe (memLower memUpper : BitVec 32) (s : Pmm) : Prop where
  total_ends : getTotalMem buf mbinfo ≠ none
  entries_ends : getNumEntries buf mbinfo ≠ none
  parse_ends : parseMultibootMemmap buf mbinfo memLower memUpper ≠ none
  setType1_ends : setType1 buf mbinfo s ≠ none
  total_visited : getTotalMem buf mbinfo =
    (MemmapCall.getTotalMem.visited buf mbinfo).map fun offsets =>
      totalOf (entriesAt buf mbinfo offsets)
  entries_visited : getNumEntries buf mbinfo =
    (MemmapCall.getNumEntries.visited buf mbinfo).map fun offsets =>
      (entriesAt buf mbinfo offsets).foldl
        (fun numEntries _ => (numEntries + 1) % 0x10000000000000000) 0 % 0x100000000
  parse_visited : parseMultibootMemmap buf mbinfo memLower memUpper =
    (MemmapCall.parseMultibootMemmap.visited buf mbinfo).map fun offsets =>
      if mbinfo.flags &&& 0x40#32 = 0#32 then
        printed "No multiboot memory map; mem_lower=%u mem_upper=%u\n"
          [unsignedArg memLower, unsignedArg memUpper]
      else ((entriesAt buf mbinfo offsets).foldl MemmapSummary.entry ⟨0#64, 0#64, []⟩).finish
  setType1_visited : setType1 buf mbinfo s =
    (MemmapCall.setType1.visited buf mbinfo).map fun offsets =>
      (entriesAt buf mbinfo offsets).foldl setType1Entry s
  inside : ∀ (c : MemmapCall) (offsets : List Nat), c.visited buf mbinfo = some offsets →
    ∀ offset ∈ offsets, ∀ i < 24,
      mbinfo.mmapAddr.toNat ≤ (mbinfo.mmapAddr.toNat + offset + i) % 0x100000000 ∧
      (mbinfo.mmapAddr.toNat + offset + i) % 0x100000000 <
        mbinfo.mmapAddr.toNat + mbinfo.mmapLength.toNat
  same : ∀ c d : MemmapCall, c.visited buf mbinfo = d.visited buf mbinfo
  unflagged : mbinfo.flags &&& 0x40#32 = 0#32 →
    ∀ c : MemmapCall, c.visited buf mbinfo = some []

variable {buf mbinfo}

/-- Bytes read past the end, or past 4 GiB, are never in the buffer: the first of them is
at its end. -/
theorem entryInside_iff {offset : Nat} (hlt : offset < mbinfo.mmapLength.toNat) :
    EntryInside mbinfo offset ↔ ∀ i < 24,
      mbinfo.mmapAddr.toNat ≤ (mbinfo.mmapAddr.toNat + offset + i) % 0x100000000 ∧
      (mbinfo.mmapAddr.toNat + offset + i) % 0x100000000 <
        mbinfo.mmapAddr.toNat + mbinfo.mmapLength.toNat := by
  have haddr := mbinfo.mmapAddr.isLt
  have hlen := mbinfo.mmapLength.isLt
  unfold EntryInside
  generalize mbinfo.mmapAddr.toNat = addr at *
  generalize mbinfo.mmapLength.toNat = len at *
  constructor
  · rintro ⟨hin, htop⟩ i hi
    rw [Nat.mod_eq_of_lt (by omega)]
    omega
  · intro h
    have hin : offset + 24 ≤ len := by
      by_contra hpast
      have hend := h (len - offset) (by omega)
      rw [show addr + offset + (len - offset) = addr + len by omega] at hend
      omega
    have hlast := h 23 (by omega)
    omega

theorem mmapOffsets_of_completeMap (h : CompleteMap buf mbinfo) :
    ∃ offsets, mmapOffsets buf mbinfo = some offsets ∧
      ∀ offset ∈ offsets, EntryInside mbinfo offset := by
  obtain ⟨n, offsets, hwalk, hall⟩ := Walk.ends_iff.mp h
  have hlen := mbinfo.mmapLength.isLt
  have hfuel : Walk.walk (nextOffset buf mbinfo) (· < mbinfo.mmapLength.toNat) (0x100000000 + 1) 0 =
      some offsets := Walk.walk_bounded hwalk (by omega)
  exact ⟨offsets, hfuel, hall⟩

theorem offset_lt {offset : Nat} {offsets : List Nat} (h : mmapOffsets buf mbinfo = some offsets)
    (hmem : offset ∈ offsets) : offset < mbinfo.mmapLength.toNat := by
  rw [mmapOffsets] at h
  have hmore := Walk.walk_more h hmem
  exact hmore

theorem visited_of_flag (h : ¬mbinfo.flags &&& 0x40#32 = 0#32) (c : MemmapCall) :
    c.visited buf mbinfo = mmapOffsets buf mbinfo := by
  cases c <;> simp [MemmapCall.visited, h]

theorem visited_of_empty (h : mbinfo.mmapLength = 0#32) (c : MemmapCall) :
    c.visited buf mbinfo = some [] := by
  have hempty : mmapOffsets buf mbinfo = some [] := by
    rw [mmapOffsets, mmapFuel, Walk.walk, if_neg (by simp [h])]
  cases c <;> simp [MemmapCall.visited, hempty]

theorem walksSafe_of_visited {offsets : List Nat} {memLower memUpper : BitVec 32} {s : Pmm}
    (h : ∀ c : MemmapCall, c.visited buf mbinfo = some offsets)
    (hin : ∀ offset ∈ offsets, offset < mbinfo.mmapLength.toNat ∧ EntryInside mbinfo offset)
    (hflag : mbinfo.flags &&& 0x40#32 = 0#32 → offsets = []) :
    WalksSafe buf mbinfo memLower memUpper s where
  total_ends := by simp [getTotalMem_visited, h]
  entries_ends := by simp [getNumEntries_visited, h]
  parse_ends := by simp [parseMultibootMemmap_visited, h]
  setType1_ends := by simp [setType1_visited, h]
  total_visited := getTotalMem_visited ..
  entries_visited := getNumEntries_visited ..
  parse_visited := parseMultibootMemmap_visited ..
  setType1_visited := SplongleOS.setType1_visited ..
  inside := by
    intro c os hos offset hmem
    rw [h] at hos
    cases hos
    obtain ⟨hlt, hinside⟩ := hin offset hmem
    exact (entryInside_iff hlt).mp hinside
  same := by simp [h]
  unflagged := by
    intro hclear c
    rw [h, hflag hclear]

theorem completeMap_of_walksSafe {memLower memUpper : BitVec 32} {s : Pmm}
    (h : WalksSafe buf mbinfo memLower memUpper s) : CompleteMap buf mbinfo := by
  have hends := h.setType1_ends
  rw [setType1_visited] at hends
  cases hv : MemmapCall.setType1.visited buf mbinfo with
  | none => simp [hv] at hends
  | some offsets =>
    refine Walk.ends_iff.mpr ⟨mmapFuel, offsets, hv, fun offset hmem => ?_⟩
    exact (entryInside_iff (offset_lt hv hmem)).mpr (h.inside _ _ hv offset hmem)

theorem walksSafe_of_completeMap (hmap : CompleteMap buf mbinfo)
    (hempty : mbinfo.flags &&& 0x40#32 = 0#32 → mbinfo.mmapLength = 0#32)
    (memLower memUpper : BitVec 32) (s : Pmm) : WalksSafe buf mbinfo memLower memUpper s := by
  by_cases hflag : mbinfo.flags &&& 0x40#32 = 0#32
  · exact walksSafe_of_visited (visited_of_empty (hempty hflag)) (by simp) fun _ => rfl
  · obtain ⟨offsets, hoffsets, hall⟩ := mmapOffsets_of_completeMap hmap
    refine walksSafe_of_visited (fun c => (visited_of_flag hflag c).trans hoffsets) ?_
      fun hclear => absurd hclear hflag
    exact fun offset hmem => ⟨offset_lt hoffsets hmem, hall offset hmem⟩

/-- The loops are safe for exactly the complete maps, and without the flag, which
`set_type1` does not test, only for the empty one. -/
theorem memmap_walks_safe_iff (buf : Nat → BitVec 8) (mbinfo : MultibootInfo)
    (memLower memUpper : BitVec 32) (s : Pmm) :
    WalksSafe buf mbinfo memLower memUpper s ↔
      CompleteMap buf mbinfo ∧
        (mbinfo.flags &&& 0x40#32 = 0#32 → mbinfo.mmapLength = 0#32) := by
  constructor
  · intro h
    refine ⟨completeMap_of_walksSafe h, fun hclear => ?_⟩
    have hnil : mmapOffsets buf mbinfo = some [] := h.unflagged hclear .setType1
    have hempty := Walk.not_more_of_walk_nil hnil
    apply BitVec.eq_of_toNat_eq
    simp
    omega
  · rintro ⟨hmap, hempty⟩
    exact walksSafe_of_completeMap hmap hempty memLower memUpper s

def stalledMap : List MmapEntry := [⟨0xFFFFFFFC#32, 0#64, 0x100000#64, 1#32⟩]

theorem memmap_walk_stalls :
    ¬WalksSafe (encodeMap stalledMap) (mapInfo stalledMap) 0#32 0#32 ⟨fun _ => 0, 0, 0, 0, []⟩ := by
  intro h
  have hentry : entryAt (encodeMap stalledMap) (0x10000 + 24 * 0) = stalledMap[0] :=
    entryAt_encodeMap (by simp [stalledMap]) (by simp [stalledMap])
  have hnext : nextOffset (encodeMap stalledMap) (mapInfo stalledMap) 0 = 0 := by
    have haddr : (mapInfo stalledMap).mmapAddr.toNat + 0 = 0x10000 + 24 * 0 := rfl
    rw [nextOffset, haddr, hentry]
    rfl
  have hstall : mmapOffsets (encodeMap stalledMap) (mapInfo stalledMap) = none :=
    Walk.walk_stalled hnext (by decide)
  apply h.setType1_ends
  rw [setType1_visited, MemmapCall.visited, hstall, Option.map_none]

theorem walksSafe_encodeMap {es : List MmapEntry} (hsize : ∀ e ∈ es, e.size = 20#32)
    (hlen : 24 * es.length < 0x10000000) (memLower memUpper : BitVec 32) (s : Pmm) :
    WalksSafe (encodeMap es) (mapInfo es) memLower memUpper s := by
  have hml : (mapInfo es).mmapLength.toNat = 24 * es.length := by
    simp only [mapInfo, BitVec.toNat_ofNat]
    exact Nat.mod_eq_of_lt (by omega)
  have hma : (mapInfo es).mmapAddr.toNat = 0x10000 := rfl
  have hends : ∀ n k, k + n = es.length → Walk.Ends (nextOffset (encodeMap es) (mapInfo es))
      (· < (mapInfo es).mmapLength.toNat) (EntryInside (mapInfo es)) (24 * k) := by
    intro n
    induction n with
    | zero =>
      intro k hk
      exact .done (by omega)
    | succ n ih =>
      intro k hk
      have hnext : nextOffset (encodeMap es) (mapInfo es) (24 * k) = 24 * (k + 1) := by
        have hsize' : es[k].size.toNat = 20 := by rw [hsize _ (List.getElem_mem _)]; rfl
        rw [nextOffset, hma, entryAt_encodeMap (by omega) hlen, hsize']
        omega
      refine .step (by omega) ⟨by omega, by omega⟩ ?_
      rw [hnext]
      exact ih (k + 1) (by omega)
  refine walksSafe_of_completeMap (hends es.length 0 (by omega)) (fun hclear => ?_) memLower memUpper s
  exact absurd hclear (by simp [mapInfo])

end SplongleOS
