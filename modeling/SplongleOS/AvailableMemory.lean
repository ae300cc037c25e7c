import SplongleOS.BlockStatus
set_option autoImplicit false

/-! Whether the blocks set_type1 leaves free are available memory. Three things can go
wrong: the base of an available entry is rounded down, an available entry wins over a
reserved one it overlaps, and `memset` skips the last bits of the bitmap. -/

namespace SplongleOS
open WordMemory

def MmapEntry.Contains (e : MmapEntry) (x : Nat) : Prop :=
  e.addr.toNat ≤ x ∧ x < e.addr.toNat + e.len.toNat

/-- Every byte of the block lies in an available entry and in no other one. -/
def GenuineBlock (es : List MmapEntry) (b : Nat) : Prop :=
  ∀ x, 4096 * b ≤ x → x < 4096 * b + 4096 →
    (∃ e ∈ es, e.Available ∧ e.Contains x) ∧ ∀ e ∈ es, e.Contains x → e.Available

/-- `e` is an available entry and the last to reach `b`. -/
def Frees (es : List MmapEntry) (e : MmapEntry) (b : Nat) : Prop :=
  Decides es e b ∧ e.effect b = some false

/-- Rounding a base down takes in only bytes that other available entries hold. -/
def BasesRound (es : List MmapEntry) (maxBlocks : Nat) : Prop :=
  ∀ b < maxBlocks, ∀ e, Frees es e b → ∀ x, 4096 * b ≤ x → x < 4096 * b + 4096 →
    x < e.addr.toNat → ∃ e' ∈ es, e'.Available ∧ e'.Contains x

def ReservedWins (es : List MmapEntry) (maxBlocks : Nat) : Prop :=
  ∀ b < maxBlocks, ∀ r ∈ es, ¬r.Available → ∀ x, 4096 * b ≤ x → x < 4096 * b + 4096 →
    r.Contains x → ∀ e, ¬Frees es e b

def StorageSet (mem : Mem) (total : Nat) (es : List MmapEntry) (maxBlocks : Nat) : Prop :=
  ∀ b < maxBlocks, Unreached es b → initialStatus mem total b = false → GenuineBlock es b

theorem available_of_frees {e : MmapEntry} {b : Nat} (h : e.effect b = some false) :
    e.Available ∧ e.addr.toNat < 0x100000000 ∧
      ∃ i < e.blocks, b = (e.align + i) % 0x100000000 := by
  unfold MmapEntry.effect at h
  by_cases hhigh : 0x100000000 ≤ e.addr.toNat
  · simp [hhigh] at h
  · by_cases hav : e.Available
    · by_cases hzero : b = 0
      · simp [hhigh, hav, hzero] at h
      · by_cases hin : ∃ i < e.blocks, b = (e.align + i) % 0x100000000
        · exact ⟨hav, by omega, hin⟩
        · simp [hhigh, hav, hzero, hin] at h
    · simp only [hhigh, ↓reduceIte, hav] at h
      split at h <;> simp at h

/-- Only bytes below the base of the entry that frees a block lie outside that entry:
its size is rounded down too. -/
theorem contains_of_frees {e : MmapEntry} {b x : Nat} (h : e.effect b = some false)
    (hb : b < 0x100000) (hx : x < 4096 * b + 4096) (hbase : e.addr.toNat ≤ x) : e.Contains x := by
  obtain ⟨_, haddr, i, hi, hbi⟩ := available_of_frees h
  have hlen := e.len.isLt
  refine ⟨hbase, ?_⟩
  unfold MmapEntry.blocks regionBlocks clipSize at hi
  unfold MmapEntry.align at hbi
  split at hi <;> omega

/-- The free map set_type1 leaves is confined to available memory exactly when none of
the three defects shows on this map. -/
theorem free_available_iff {buf : Nat → BitVec 8} {mbinfo : MultibootInfo} {p s : Pmm}
    {total : Nat} {es : List MmapEntry} (hes : mmapEntries buf mbinfo = some es)
    (hs : setType1 buf mbinfo (memoryManagerInit p 0x30000 total) = some s) :
    (∀ b < s.maxBlocks, checkBlock s b = false → GenuineBlock es b) ↔
      BasesRound es s.maxBlocks ∧ ReservedWins es s.maxBlocks ∧
        StorageSet p.mem total es s.maxBlocks := by
  have hstate : s = es.foldl setType1Entry (memoryManagerInit p 0x30000 total) := by
    rw [setType1, mmapLoop_eq, hes] at hs
    exact (Option.some.inj hs).symm
  have hmax : s.maxBlocks ≤ 0x100000 := by
    rw [hstate, foldl_setType1Entry_maxBlocks, memoryManagerInit_maxBlocks]
    exact managedBlocks_le total
  have hfree : ∀ b < s.maxBlocks, checkBlock s b = false ↔ LeftFree p.mem total es b := by
    intro b hb
    rw [leftFree_iff, hstate, checkBlock_foldl_setType1Entry _ _ (by omega),
      checkBlock_memoryManagerInit _ (by omega) (by omega) (by omega), memoryManagerInit_maxBlocks]
    rfl
  constructor
  · intro hall
    refine ⟨?_, ?_, ?_⟩
    · intro b hb e he x hlo hhi _
      exact (hall b hb ((hfree b hb).mpr (Or.inl ⟨e, he⟩)) x hlo hhi).1
    · intro b hb r hr hnav x hlo hhi hrx e he
      exact hnav ((hall b hb ((hfree b hb).mpr (Or.inl ⟨e, he⟩)) x hlo hhi).2 r hr hrx)
    · intro b hb hun hinit
      exact hall b hb ((hfree b hb).mpr (Or.inr ⟨hun, hinit⟩))
  · rintro ⟨hround, hres, hstorage⟩ b hb hchk
    rcases (hfree b hb).mp hchk with ⟨e, he⟩ | ⟨hun, hinit⟩
    · intro x hlo hhi
      constructor
      · by_cases hbase : x < e.addr.toNat
        · exact hround b hb e he x hlo hhi hbase
        · have hmem : e ∈ es := by
            obtain ⟨⟨front, back, hsplit, _⟩, _⟩ := he
            simp [hsplit]
          exact ⟨e, hmem, (available_of_frees he.2).1,
            contains_of_frees he.2 (by omega) hhi (by omega)⟩
      · intro r hr hrx
        by_contra hnav
        exact hres b hb r hr hnav x hlo hhi hrx e he
    · exact hstorage b hb hun hinit

def unalignedMap : List MmapEntry := [⟨20#32, 0x1800#64, 0x3FE800#64, 1#32⟩]

def unalignedState : Pmm :=
  unalignedMap.foldl setType1Entry (memoryManagerInit ⟨fun _ => 0#32, 0, 0, 0, []⟩ 0x30000 0x3FE800)

theorem mmapEntries_unalignedMap :
    mmapEntries (encodeMap unalignedMap) (mapInfo unalignedMap) = some unalignedMap :=
  mmapEntries_encodeMap (by decide) (by decide)

theorem getTotalMem_unalignedMap :
    getTotalMem (encodeMap unalignedMap) (mapInfo unalignedMap) = some 0x3FE800 := by
  rw [getTotalMem, mmapLoop_eq, mmapEntries_unalignedMap]
  rfl

theorem setType1_unalignedMap :
    setType1 (encodeMap unalignedMap) (mapInfo unalignedMap)
        (memoryManagerInit ⟨fun _ => 0#32, 0, 0, 0, []⟩ 0x30000 0x3FE800) =
      some unalignedState := by
  rw [setType1, mmapLoop_eq, mmapEntries_unalignedMap]
  rfl

theorem unalignedState_maxBlocks : unalignedState.maxBlocks = 1022 := by
  rw [unalignedState, foldl_setType1Entry_maxBlocks, memoryManagerInit_maxBlocks]
  rfl

theorem free_available_iff_unaligned :
    (∀ b < unalignedState.maxBlocks, checkBlock unalignedState b = false →
        GenuineBlock unalignedMap b) ↔
      BasesRound unalignedMap unalignedState.maxBlocks ∧
        ReservedWins unalignedMap unalignedState.maxBlocks ∧
          StorageSet (fun _ => 0#32) 0x3FE800 unalignedMap unalignedState.maxBlocks :=
  free_available_iff mmapEntries_unalignedMap setType1_unalignedMap

/-- Block 1 is freed, and its first half is in no entry. -/
theorem free_not_available_unaligned :
    ¬∀ (buf : Nat → BitVec 8) (mbinfo : MultibootInfo) (p s : Pmm) (total : Nat)
      (es : List MmapEntry), mmapEntries buf mbinfo = some es → getTotalMem buf mbinfo = some total →
        setType1 buf mbinfo (memoryManagerInit p 0x30000 total) = some s →
        ∀ b < s.maxBlocks, checkBlock s b = false → GenuineBlock es b := by
  intro hall
  have hfree : checkBlock unalignedState 1 = false := by
    rw [unalignedState, checkBlock_setType1 _ _ _ (by omega),
      statusAfter_eq_interval (by decide)]
    decide
  have hgen := hall _ _ _ _ _ _ mmapEntries_unalignedMap getTotalMem_unalignedMap
    setType1_unalignedMap 1 (by rw [unalignedState_maxBlocks]; omega) hfree
  obtain ⟨⟨e, he, _, hlo, _⟩, _⟩ := hgen 0x1000 (by omega) (by omega)
  rw [unalignedMap, List.mem_singleton] at he
  subst he
  exact absurd hlo (by decide)

end SplongleOS
