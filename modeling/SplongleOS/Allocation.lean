import SplongleOS.FirstFree
set_option autoImplicit false

/-! What `allocate_blocks` and `free_blocks` do to the free map. -/

namespace SplongleOS
open WordMemory

structure Alloc where
  address : Nat
  blocks : Nat
  deriving DecidableEq, Repr

def Alloc.Holds (e : Alloc) (b : Nat) : Prop :=
  e.address / 4096 ≤ b ∧ b < e.address / 4096 + e.blocks

def freeCount (s : Pmm) : Nat := (s.maxBlocks + 0x100000000 - s.usedBlocks) % 0x100000000

/-- Indices `allocate_blocks` hands to `check_block`. -/
def probed (s : Pmm) (num : Nat) : List Int :=
  (findFirstFreeBlock s num).2.reverse.map Int.ofNat

def takeBlocks (s : Pmm) (num b : Nat) : Pmm :=
  { forBlocks allocateBlock num b { s with touched := probed s num ++ s.touched } with
    usedBlocks := (s.usedBlocks + num) % 0x100000000 }

theorem takeBlocks_usedBlocks (s : Pmm) (num b : Nat) :
    (takeBlocks s num b).usedBlocks = (s.usedBlocks + num) % 0x100000000 := rfl

theorem allocateBlock_usedBlocks (s : Pmm) (block : Nat) :
    (allocateBlock s block).usedBlocks = s.usedBlocks := rfl

theorem forBlocks_allocateBlock (num align : Nat) (s : Pmm) :
    (forBlocks allocateBlock num align s).usedBlocks = s.usedBlocks :=
  forBlocks_invariant (P := fun t => t.usedBlocks = s.usedBlocks)
    (fun t b _ h => (allocateBlock_usedBlocks t b).trans h) num align rfl

/-- Everything a call can do: fail before the search, fail after it, or take the blocks
from the lowest candidate on. -/
inductive Allocated (s : Pmm) (num : Nat) : Nat × Pmm → Prop where
  | refused : freeCount s < num ∨ num = 0 → Allocated s num (0, s)
  | notFound : num ≤ freeCount s → (∀ b < 32 * (s.maxBlocks / 32), candidate s num b = false) →
      Allocated s num (0, { s with touched := probed s num ++ s.touched })
  | taken {b : Nat} : num ≤ freeCount s → 0 < num → FirstCandidate s num b →
      Allocated s num (b * 4096 % 0x100000000, takeBlocks s num b)

theorem allocateBlocks_cases (s : Pmm) (num : Nat) (hmax : s.maxBlocks ≤ 0x100000) :
    Allocated s num (allocateBlocks s num) := by
  unfold allocateBlocks
  change Allocated s num (if freeCount s < num then _ else _)
  by_cases hcount : freeCount s < num
  · rw [if_pos hcount]
    exact .refused (Or.inl hcount)
  · rw [if_neg hcount]
    dsimp only
    by_cases hn : num = 0
    · subst hn
      exact .refused (Or.inr rfl)
    · rcases findFirstFreeBlock_cases s (Nat.pos_of_ne_zero hn) with ⟨hnone, hno⟩ | hfirst
      · rw [if_pos hnone]
        exact .notFound (by omega) hno
      · have hlt := hfirst.1
        rw [if_neg (by omega)]
        simp only [forBlocks_allocateBlock]
        exact .taken (by omega) (Nat.pos_of_ne_zero hn) hfirst

@[simp] theorem takeBlocks_maxBlocks (s : Pmm) (num b : Nat) :
    (takeBlocks s num b).maxBlocks = s.maxBlocks := by
  simp only [takeBlocks, forBlocks_maxBlocks allocateBlock fun _ _ => rfl]

@[simp] theorem takeBlocks_memoryMap (s : Pmm) (num b : Nat) :
    (takeBlocks s num b).memoryMap = s.memoryMap := by
  simp only [takeBlocks, forBlocks_memoryMap allocateBlock fun _ _ => rfl]

theorem checkBlock_allocateBlock (s : Pmm) (k : Nat) {x : Nat} (hx : x < 0x100000000) :
    checkBlock (allocateBlock s k) x =
      (decide ((x : Int) = bitAddr (toInt32 k)) || checkBlock s x) :=
  checkBlock_setBlock s (toInt32_range k) hx

theorem checkBlock_takeBlocks_of_used (s : Pmm) (num b : Nat) {x : Nat} (hx : x < 0x100000000)
    (hused : checkBlock s x = true) : checkBlock (takeBlocks s num b) x = true := by
  rw [takeBlocks, checkBlock_usedBlocks,
    forBlocks_set allocateBlock _ (fun t k _ => checkBlock_allocateBlock t k hx), checkBlock_touched]
  exact Or.inr hused

theorem checkBlock_takeBlocks (s : Pmm) {num b x : Nat} (hfit : b + num ≤ 0x80000000)
    (hx : x < 0x100000000) :
    checkBlock (takeBlocks s num b) x = true ↔ (b ≤ x ∧ x < b + num) ∨ checkBlock s x = true := by
  rw [takeBlocks, checkBlock_usedBlocks,
    forBlocks_set allocateBlock _ (fun t k _ => checkBlock_allocateBlock t k hx),
    exists_setBlock_iff hfit, checkBlock_touched]

theorem allocateBlocks_maxBlocks {s : Pmm} (num : Nat) (hmax : s.maxBlocks ≤ 0x100000) :
    (allocateBlocks s num).2.maxBlocks = s.maxBlocks := by
  have hall := allocateBlocks_cases s num hmax
  generalize allocateBlocks s num = r at hall ⊢
  cases hall with
  | refused _ => rfl
  | notFound _ _ => rfl
  | taken _ _ _ => exact takeBlocks_maxBlocks _ _ _

theorem allocateBlocks_memoryMap {s : Pmm} (num : Nat) (hmax : s.maxBlocks ≤ 0x100000) :
    (allocateBlocks s num).2.memoryMap = s.memoryMap := by
  have hall := allocateBlocks_cases s num hmax
  generalize allocateBlocks s num = r at hall ⊢
  cases hall with
  | refused _ => rfl
  | notFound _ _ => rfl
  | taken _ _ _ => exact takeBlocks_memoryMap _ _ _

theorem checkBlock_allocateBlocks_of_used {s : Pmm} (num : Nat) (hmax : s.maxBlocks ≤ 0x100000)
    {x : Nat} (hx : x < 0x100000000) (hused : checkBlock s x = true) :
    checkBlock (allocateBlocks s num).2 x = true := by
  have hall := allocateBlocks_cases s num hmax
  generalize allocateBlocks s num = r at hall ⊢
  cases hall with
  | refused _ => exact hused
  | notFound _ _ => exact hused
  | taken _ _ _ => exact checkBlock_takeBlocks_of_used s num _ hx hused

theorem checkBlock_freeBlocks (s : Pmm) {address num x : Nat}
    (hfit : address / 4096 + num ≤ 0x80000000) (hx : x < 0x100000000) :
    checkBlock (freeBlocks s address num) x = true ↔
      ¬(address / 4096 ≤ x ∧ x < address / 4096 + num) ∧ checkBlock s x = true := by
  rw [freeBlocks, checkBlock_usedBlocks,
    forBlocks_clear unsetBlock (fun k => x = k) (fun t k hk => checkBlock_unsetBlock t hk hx),
    exists_block_iff hfit]

theorem takeBlocks_mem {s : Pmm} {num b w : Nat} (hmax : s.maxBlocks ≤ 0x100000)
    (hfit : b + num ≤ s.maxBlocks) (hw : ¬s.InBitmap w) : (takeBlocks s num b).mem w = s.mem w := by
  have hloop : (forBlocks allocateBlock num b { s with touched := probed s num ++ s.touched }).mem w =
        s.mem w ∧ (forBlocks allocateBlock num b
          { s with touched := probed s num ++ s.touched }).memoryMap = s.memoryMap := by
    refine forBlocks_range (P := fun t => t.mem w = s.mem w ∧ t.memoryMap = s.memoryMap) num b
      (fun t i hi h => ?_) ⟨rfl, rfl⟩
    obtain ⟨hmem, hmap⟩ := h
    have hidx : toInt32 ((b + i) % 0x100000000) = ((b + i : Nat) : Int) := by
      rw [Nat.mod_eq_of_lt (by omega), toInt32_of_lt (by omega)]
    have hdiv : ((b + i : Nat) : Int).tdiv 32 = ((b + i) / 32 : Nat) := by
      rw [Int.tdiv_eq_ediv_of_nonneg (by omega)]
      omega
    have hne : w ≠ t.slot ((b + i) / 32 : Nat) := by
      intro heq
      refine hw ⟨(b + i) / 32, by omega, ?_⟩
      rw [heq, Pmm.slot, Pmm.slot, hmap]
    rw [allocateBlock, setBlock_mem, hidx, hdiv, if_neg hne, setBlock_memoryMap]
    exact ⟨hmem, hmap⟩
  exact hloop.1

theorem freeBlocks_mem {s : Pmm} {address num w : Nat} (hmax : s.maxBlocks ≤ 0x100000)
    (hfit : address / 4096 + num ≤ s.maxBlocks) (hw : ¬s.InBitmap w) :
    (freeBlocks s address num).mem w = s.mem w := by
  have hloop : (forBlocks unsetBlock num (address / 4096) s).mem w = s.mem w ∧
      (forBlocks unsetBlock num (address / 4096) s).memoryMap = s.memoryMap := by
    refine forBlocks_range (P := fun t => t.mem w = s.mem w ∧ t.memoryMap = s.memoryMap) num _
      (fun t i hi h => ?_) ⟨rfl, rfl⟩
    obtain ⟨hmem, hmap⟩ := h
    rw [Nat.mod_eq_of_lt (by omega)]
    have hne : w ≠ t.slot ((address / 4096 + i) / 32 : Nat) := by
      intro heq
      refine hw ⟨(address / 4096 + i) / 32, by omega, ?_⟩
      rw [heq, Pmm.slot, Pmm.slot, hmap]
    rw [unsetBlock_mem, if_neg hne, unsetBlock_memoryMap]
    exact ⟨hmem, hmap⟩
  exact hloop.1

/-- A block the search accepts: it is free, and enough of the blocks probed for it are.
At the largest request the probe does not end before it has counted enough. -/
def Accepts (s : Pmm) (num b : Nat) : Prop :=
  checkBlock s b = false ∧ (num = 0xFFFFFFFF ∨ num ≤ freeProbes s (probeStart b) (num + 1))

def FreeRun (s : Pmm) (b num : Nat) : Prop :=
  ∀ k < num, b + k < s.maxBlocks ∧ checkBlock s (b + k) = false

def Settles (s : Pmm) (num b : Nat) : Prop :=
  b < 32 * (s.maxBlocks / 32) ∧ Accepts s num b ∧ ∀ c < b, ¬Accepts s num c

def ScanFindsRun (s : Pmm) (num : Nat) : Prop := ∀ b, Settles s num b → FreeRun s b num

theorem accepts_iff (s : Pmm) {num : Nat} (hn : 0 < num) (hnum : num < 0xFFFFFFFF) (b : Nat) :
    Accepts s num b ↔ candidate s num b = true := by
  rw [candidate_iff s hn hnum, Accepts, or_iff_right (by omega)]

theorem settles_iff (s : Pmm) {num : Nat} (hn : 0 < num) (hnum : num < 0xFFFFFFFF) (b : Nat) :
    Settles s num b ↔ FirstCandidate s num b := by
  simp only [Settles, FirstCandidate, accepts_iff s hn hnum, Bool.not_eq_true]

theorem settles_of_status {s : Pmm} {num b bound : Nat} {free : Nat → Prop} [DecidablePred free]
    (hstatus : ∀ x < bound, checkBlock s x = false ↔ free x) (hbound : bound ≤ 0x100000000)
    (hlt : b < 32 * (s.maxBlocks / 32)) (hnum : num < 0xFFFFFFFF) (hb : b < bound) (hfree : free b)
    (hprobe : num ≤ Nat.count (fun c => free (probeStart b + c)) (num + 1))
    (hfit : probeStart b + (num + 1) ≤ bound)
    (hmin : ∀ c < b, free c → probeStart c + (num + 1) ≤ bound ∧
      Nat.count (fun d => free (probeStart c + d)) (num + 1) < num) : Settles s num b := by
  have hprobes : ∀ x, probeStart x + (num + 1) ≤ bound → freeProbes s (probeStart x) (num + 1) =
      Nat.count (fun c => free (probeStart x + c)) (num + 1) := by
    intro x hx
    refine freeProbes_eq_count fun c hc => ?_
    rw [Nat.mod_eq_of_lt (by omega)]
    exact hstatus _ (by omega)
  refine ⟨hlt, ⟨(hstatus b hb).mpr hfree, Or.inr ((hprobes b hfit).symm ▸ hprobe)⟩,
    fun c hc hacc => ?_⟩
  obtain ⟨hcfit, hfew⟩ := hmin c hc ((hstatus c (by omega)).mp hacc.1)
  rcases hacc.2 with hall | hmany
  · omega
  · rw [hprobes c hcfit] at hmany
    omega

theorem FirstCandidate.free {s : Pmm} {num b : Nat} (h : FirstCandidate s num b) :
    checkBlock s b = false := by
  obtain ⟨_, hcand, _⟩ := h
  simp only [candidate, Bool.and_eq_true, Bool.not_eq_true'] at hcand
  exact hcand.1

theorem FirstCandidate.unique {s : Pmm} {num b c : Nat} (hb : FirstCandidate s num b)
    (hc : FirstCandidate s num c) : b = c := by
  obtain ⟨_, hcandb, hminb⟩ := hb
  obtain ⟨_, hcandc, hminc⟩ := hc
  rcases Nat.lt_trichotomy b c with hlt | heq | hlt
  · exact Bool.noConfusion (hcandb.symm.trans (hminc b hlt))
  · exact heq
  · exact Bool.noConfusion (hcandc.symm.trans (hminb c hlt))

theorem allocateBlocks_eq {s : Pmm} {num b : Nat} (hmax : s.maxBlocks ≤ 0x100000)
    (hcount : num ≤ freeCount s) (hn : 0 < num) (h : FirstCandidate s num b) :
    allocateBlocks s num = (b * 4096 % 0x100000000, takeBlocks s num b) := by
  have hall := allocateBlocks_cases s num hmax
  generalize allocateBlocks s num = r at hall ⊢
  cases hall with
  | refused hno => omega
  | notFound _ hno =>
    obtain ⟨hlt, hcand, _⟩ := h
    exact Bool.noConfusion (hcand.symm.trans (hno b hlt))
  | taken _ _ hc => rw [hc.unique h]

theorem exists_least {P : Nat → Prop} (h : ∃ c, P c) : ∃ c, P c ∧ ∀ d < c, ¬P d := by
  classical
  exact ⟨Nat.find h, Nat.find_spec h, fun _ hd => Nat.find_min h hd⟩

theorem freeRun_of_firstCandidate {s : Pmm} {num b : Nat} (hmax : s.maxBlocks ≤ 0x100000)
    (hn : 0 < num) (hnum : num ≤ 0xFFFFFFFF) (hscan : ScanFindsRun s num)
    (h : FirstCandidate s num b) : FreeRun s b num := by
  by_cases hlast : num = 0xFFFFFFFF
  · -- the lowest free block is accepted, and no run of that length exists
    have hex : ∃ c, Accepts s num c := ⟨b, h.free, Or.inl hlast⟩
    obtain ⟨c, hacc, hmin⟩ := exists_least hex
    have hle : ¬b < c := fun hlt => hmin b hlt ⟨h.free, Or.inl hlast⟩
    have hlt := h.1
    have hrun := hscan c ⟨by omega, hacc, hmin⟩
    have hend := (hrun (num - 1) (by omega)).1
    omega
  · exact hscan b ((settles_iff s hn (by omega) b).mpr h)

theorem FreeRun.fits {s : Pmm} {b num : Nat} (h : FreeRun s b num) (hn : 0 < num) :
    b + num ≤ s.maxBlocks := by
  have hend := (h (num - 1) (by omega)).1
  omega

/-- `allocate_blocks` either refuses by its count or settles on a block that starts a run. -/
def SearchSound (s : Pmm) (num : Nat) : Prop := freeCount s < num ∨ ScanFindsRun s num

theorem scanFindsRun_one (s : Pmm) : ScanFindsRun s 1 := by
  rintro b ⟨hlt, hacc, _⟩ k hk
  have hb : b + k = b := by omega
  rw [hb]
  exact ⟨by omega, hacc.1⟩

theorem allocateBlocks_address {s : Pmm} {num : Nat} (hmax : s.maxBlocks ≤ 0x100000)
    (ha : (allocateBlocks s num).1 ≠ 0) :
    num ≤ freeCount s ∧ 0 < num ∧ FirstCandidate s num ((allocateBlocks s num).1 / 4096) ∧
      (allocateBlocks s num).2 = takeBlocks s num ((allocateBlocks s num).1 / 4096) := by
  have hall := allocateBlocks_cases s num hmax
  generalize allocateBlocks s num = r at hall ha ⊢
  cases hall with
  | refused _ => exact absurd rfl ha
  | notFound _ _ => exact absurd rfl ha
  | taken hcount hn hb =>
    have hlt := hb.1
    have hdiv : ∀ b, b < 32 * (s.maxBlocks / 32) → b * 4096 % 0x100000000 / 4096 = b := by
      intro b h
      omega
    rw [hdiv _ hlt]
    exact ⟨hcount, hn, hb, rfl⟩

theorem allocateBlocks_aligned {s : Pmm} (num : Nat) (hmax : s.maxBlocks ≤ 0x100000) :
    (allocateBlocks s num).1 % 4096 = 0 ∧ (allocateBlocks s num).1 < 0x100000000 := by
  have hall := allocateBlocks_cases s num hmax
  generalize allocateBlocks s num = r at hall ⊢
  cases hall with
  | refused _ => exact ⟨rfl, by dsimp only; omega⟩
  | notFound _ _ => exact ⟨rfl, by dsimp only; omega⟩
  | taken _ _ _ => exact ⟨by dsimp only; omega, Nat.mod_lt _ (by decide)⟩

theorem allocateBlocks_freeRun {s : Pmm} {num : Nat} (hmax : s.maxBlocks ≤ 0x100000)
    (hsound : SearchSound s num) (hnum : num ≤ 0xFFFFFFFF) (ha : (allocateBlocks s num).1 ≠ 0) :
    0 < num ∧ FreeRun s ((allocateBlocks s num).1 / 4096) num ∧
      (allocateBlocks s num).2 = takeBlocks s num ((allocateBlocks s num).1 / 4096) := by
  obtain ⟨hcount, hn, hfirst, hstate⟩ := allocateBlocks_address hmax ha
  refine ⟨hn, ?_, hstate⟩
  rcases hsound with hno | hscan
  · omega
  · exact freeRun_of_firstCandidate hmax hn hnum hscan hfirst

structure OneBlock (s : Pmm) (a : Nat) (t : Pmm) : Prop where
  aligned : a % 4096 = 0
  fits : a < 0x100000000
  maxBlocks : t.maxBlocks = s.maxBlocks
  memoryMap : t.memoryMap = s.memoryMap
  mem : ∀ w, ¬s.InBitmap w → t.mem w = s.mem w
  keep : ∀ x < 0x100000000, checkBlock s x = true → checkBlock t x = true
  managed : a ≠ 0 → a / 4096 < s.maxBlocks
  free : a ≠ 0 → checkBlock s (a / 4096) = false
  taken : a ≠ 0 → checkBlock t (a / 4096) = true

theorem oneBlock_taken {s : Pmm} {b : Nat} (hmax : s.maxBlocks ≤ 0x100000)
    (hlt : b < s.maxBlocks) (hfree : checkBlock s b = false) :
    OneBlock s (b * 4096 % 0x100000000) (takeBlocks s 1 b) := by
  have hdiv : b * 4096 % 0x100000000 / 4096 = b := by omega
  refine ⟨by omega, by omega, takeBlocks_maxBlocks _ _ _, takeBlocks_memoryMap _ _ _,
    fun w hw => takeBlocks_mem hmax (by omega) hw,
    fun x hx => checkBlock_takeBlocks_of_used s 1 b hx, ?_, ?_, ?_⟩
  · rw [hdiv]
    exact fun _ => hlt
  · rw [hdiv]
    exact fun _ => hfree
  · rw [hdiv, checkBlock_takeBlocks s (by omega) (by omega)]
    exact fun _ => Or.inl ⟨le_rfl, by omega⟩

theorem allocateBlocks_one {s : Pmm} (hmax : s.maxBlocks ≤ 0x100000) :
    OneBlock s (allocateBlocks s 1).1 (allocateBlocks s 1).2 := by
  have hall := allocateBlocks_cases s 1 hmax
  generalize allocateBlocks s 1 = r at hall ⊢
  cases hall with
  | refused _ =>
    exact ⟨rfl, by dsimp only; omega, rfl, rfl, fun _ _ => rfl, fun _ _ h => h,
      fun h => absurd rfl h, fun h => absurd rfl h, fun h => absurd rfl h⟩
  | notFound _ _ =>
    exact ⟨rfl, by dsimp only; omega, rfl, rfl, fun _ _ => rfl, fun _ _ h => h,
      fun h => absurd rfl h, fun h => absurd rfl h, fun h => absurd rfl h⟩
  | taken _ _ hb =>
    have hlt := hb.1
    exact oneBlock_taken hmax (by omega) hb.free

end SplongleOS
