import SplongleOS.Allocation
set_option autoImplicit false

/-! When `find_first_free_block` is first fit. -/

namespace SplongleOS
open WordMemory

theorem freeProbes_period (s : Pmm) {b : Nat} (hb : checkBlock s b = false) (hlt : b < 0x100000000)
    (start m : Nat) : m ≤ freeProbes s start (m * 0x100000000) := by
  induction m with
  | zero => exact Nat.zero_le _
  | succ m ih =>
    -- where the probe meets block `b` in this round
    have hmeet : ∃ k, m * 0x100000000 ≤ k ∧ k < (m + 1) * 0x100000000 ∧
        (start + k) % 0x100000000 = b := by
      refine ⟨m * 0x100000000 + (b + 0x100000000 - start % 0x100000000) % 0x100000000, ?_, ?_, ?_⟩
      · omega
      · omega
      · omega
    obtain ⟨k, hlo, hhi, hk⟩ := hmeet
    have hbefore := freeProbes_mono s start hlo
    have hafter := freeProbes_mono s start (show k + 1 ≤ (m + 1) * 0x100000000 by omega)
    have hstep := freeProbes_succ s start k
    rw [hk, if_pos hb] at hstep
    omega

theorem probeLoop_largest (s : Pmm) (start fuel c : Nat)
    (hlt : freeProbes s start c < 0xFFFFFFFF) (hend : 0xFFFFFFFF ≤ freeProbes s start (c + fuel)) :
    (probeLoop s 0xFFFFFFFF start fuel (c % 0x100000000) (freeProbes s start c)).1 = true := by
  induction fuel generalizing c with
  | zero =>
    rw [Nat.add_zero] at hend
    omega
  | succ fuel ih =>
    have hwrap : (start + c % 0x100000000) % 0x100000000 = (start + c) % 0x100000000 := by omega
    have hnext : (c % 0x100000000 + 1) % 0x100000000 = (c + 1) % 0x100000000 := by omega
    have hle : c % 0x100000000 ≤ 0xFFFFFFFF := by omega
    have hsum : c + (fuel + 1) = c + 1 + fuel := by omega
    rw [hsum] at hend
    rw [probeLoop]
    simp only [hle, if_true, hwrap, hnext, freeProbes_step s le_rfl hlt]
    by_cases heq : freeProbes s start (c + 1) = 0xFFFFFFFF
    · simp [heq]
    · have hlt' := freeProbes_succ_lt hlt heq
      simp only [heq, if_false]
      exact ih (c + 1) hlt' hend

theorem probe_largest (s : Pmm) {b : Nat} (hb : checkBlock s b = false) (hlt : b < 0x100000000) :
    (probe s 0xFFFFFFFF b).1 = true := by
  have hperiod := freeProbes_period s hb hlt (probeStart b) 0x100000000
  have hfuel : 0x100000000 * 0x100000000 = 0 + probeFuel := by decide
  rw [hfuel] at hperiod
  have hloop := probeLoop_largest s (probeStart b) probeFuel 0 (by simp [freeProbes]) (by omega)
  simpa [probe, freeProbes] using hloop

theorem candidate_iff_accepts (s : Pmm) {num b : Nat} (hn : 0 < num) (hnum : num ≤ 0xFFFFFFFF)
    (hb : b < 0x100000000) : candidate s num b = true ↔ Accepts s num b := by
  by_cases hlast : num = 0xFFFFFFFF
  · subst hlast
    constructor
    · intro h
      simp only [candidate, Bool.and_eq_true, Bool.not_eq_true'] at h
      exact ⟨h.1, Or.inl rfl⟩
    · intro h
      simp [candidate, h.1, probe_largest s h.1 hb]
  · exact (accepts_iff s hn (by omega) b).symm

def FirstRun (s : Pmm) (num b : Nat) : Prop := FreeRun s b num ∧ ∀ c < b, ¬FreeRun s c num

structure FirstFit (s : Pmm) (num : Nat) : Prop where
  found : ∀ b, FirstRun s num b → (findFirstFreeBlock s num).1 = b
  sentinel : (findFirstFreeBlock s num).1 = 0x100000000 ↔ ∀ b, ¬FreeRun s b num

/-- A scanned block passes the test of its probe only at or past the first run, and the
first run starts at a scanned block that passes it. -/
structure ProbesFindRuns (s : Pmm) (num : Nat) : Prop where
  notBefore : ∀ b < 32 * (s.maxBlocks / 32), Accepts s num b → ∃ c ≤ b, FreeRun s c num
  atFirst : ∀ b, FirstRun s num b → b < 32 * (s.maxBlocks / 32) ∧ Accepts s num b

theorem exists_firstRun {s : Pmm} {num b : Nat} (h : FreeRun s b num) : ∃ c ≤ b, FirstRun s num c := by
  have hex : ∃ c, FreeRun s c num := ⟨b, h⟩
  obtain ⟨c, hc, hmin⟩ := exists_least hex
  exact ⟨c, Nat.le_of_not_lt fun hlt => hmin b hlt h, hc, hmin⟩

/-- The two ways the search ends, in terms of what the probes count. -/
theorem findFirstFreeBlock_accepts (s : Pmm) {num : Nat} (hn : 0 < num) (hnum : num ≤ 0xFFFFFFFF)
    (hmax : s.maxBlocks ≤ 0xFFFFFFFF) :
    ((findFirstFreeBlock s num).1 = 0x100000000 ∧
      ∀ b < 32 * (s.maxBlocks / 32), ¬Accepts s num b) ∨
    Settles s num (findFirstFreeBlock s num).1 := by
  have hiff : ∀ b < 32 * (s.maxBlocks / 32), candidate s num b = true ↔ Accepts s num b :=
    fun b hb => candidate_iff_accepts s hn hnum (by omega)
  rcases findFirstFreeBlock_cases s hn with ⟨hnone, hno⟩ | ⟨hlt, hcand, hmin⟩
  · refine Or.inl ⟨hnone, fun b hb hacc => ?_⟩
    rw [← hiff b hb, hno b hb] at hacc
    cases hacc
  · refine Or.inr ⟨hlt, (hiff _ hlt).mp hcand, fun c hc hacc => ?_⟩
    rw [← hiff c (by omega), hmin c hc] at hacc
    cases hacc

/-- Every bitmap, every size and every request: the search is first fit exactly when the
probes, which start at a power of two past the word and skip used blocks, agree with the
runs. -/
theorem firstFit_iff {s : Pmm} {num : Nat} (hn : 0 < num) (hnum : num ≤ 0xFFFFFFFF)
    (hmax : s.maxBlocks ≤ 0xFFFFFFFF) : FirstFit s num ↔ ProbesFindRuns s num := by
  have hsearch := findFirstFreeBlock_accepts s hn hnum hmax
  constructor
  · intro h
    constructor
    · intro b hb hacc
      rcases hsearch with ⟨_, hno⟩ | ⟨hlt, _, hmin⟩
      · exact absurd hacc (hno b hb)
      · have hne : (findFirstFreeBlock s num).1 ≠ 0x100000000 := by omega
        have hrun : ∃ c, FreeRun s c num := by
          by_contra hnone
          exact hne (h.sentinel.mpr fun c hc => hnone ⟨c, hc⟩)
        obtain ⟨c, hc⟩ := hrun
        obtain ⟨c, _, hfirst⟩ := exists_firstRun hc
        have hle : c ≤ b := by
          rw [← h.found c hfirst]
          exact Nat.le_of_not_lt fun hbc => hmin b hbc hacc
        exact ⟨c, hle, hfirst.1⟩
    · intro b hb
      have hfound := h.found b hb
      rcases hsearch with ⟨hnone, _⟩ | hsettles
      · exact absurd hb.1 (h.sentinel.mp hnone b)
      · rw [hfound] at hsettles
        exact ⟨hsettles.1, hsettles.2.1⟩
  · intro h
    rcases hsearch with ⟨hnone, hno⟩ | ⟨hlt, hacc, hmin⟩
    · have hnorun : ∀ b, ¬FreeRun s b num := by
        intro b hb
        obtain ⟨c, _, hfirst⟩ := exists_firstRun hb
        obtain ⟨hscanned, haccepted⟩ := h.atFirst c hfirst
        exact hno c hscanned haccepted
      exact ⟨fun b hb => absurd hb.1 (hnorun b), iff_of_true hnone hnorun⟩
    · obtain ⟨c, hle, hrun⟩ := h.notBefore _ hlt hacc
      obtain ⟨d, hdc, hfirst⟩ := exists_firstRun hrun
      have hne : (findFirstFreeBlock s num).1 ≠ 0x100000000 := by omega
      refine ⟨fun b hb => ?_, iff_of_false hne fun hnone => hnone c hrun⟩
      have hbc : b ≤ c := Nat.le_of_not_lt fun hcb => hb.2 c hcb hrun
      have hge : ¬b < (findFirstFreeBlock s num).1 := fun hbf => hmin b hbf (h.atFirst b hb).2
      omega

def gapState : Pmm := ⟨fun w => if w = 0xC000 then 2#32 else 0#32, 0x30000, 32, 1, []⟩

theorem checkBlock_gapState {b : Nat} (hb : b < 32) : checkBlock gapState b = decide (b = 1) := by
  revert b
  decide

theorem firstFit_iff_gapState : FirstFit gapState 2 ↔ ProbesFindRuns gapState 2 :=
  firstFit_iff (by decide) (by decide) (by decide)

/-- Two blocks are asked for; block 0 is returned, and block 1 is used. -/
theorem not_firstFit_gapState : ¬∀ (s : Pmm) (num : Nat), 0 < num → num ≤ 0xFFFFFFFF →
    s.maxBlocks ≤ 0xFFFFFFFF → FirstFit s num := by
  intro hall
  have hfit := hall gapState 2 (by decide) (by decide) (by decide)
  have hcand : candidate gapState 2 0 = true :=
    (candidate_iff gapState (by decide) (by decide)).mpr (by decide)
  have hzero : (findFirstFreeBlock gapState 2).1 = 0 :=
    findFirstFreeBlock_eq gapState (by decide) ⟨by decide, hcand, fun c hc => absurd hc (by omega)⟩
  have hmax : gapState.maxBlocks = 32 := rfl
  have hrun : FirstRun gapState 2 2 := by
    constructor
    · intro k hk
      rw [hmax, checkBlock_gapState (by omega)]
      simp
      omega
    · intro c hc hrun
      have h0 := (hrun 0 (by decide)).2
      have h1 := (hrun 1 (by decide)).2
      rw [checkBlock_gapState (by omega)] at h0 h1
      simp only [decide_eq_false_iff_not] at h0 h1
      omega
  have htwo := hfit.found 2 hrun
  rw [hzero] at htwo
  cases htwo

end SplongleOS
