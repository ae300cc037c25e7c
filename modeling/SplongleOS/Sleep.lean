import Mathlib.Data.BitVec
import SplongleOS.Base.Runs
set_option autoImplicit false

/-! `sleep` and the tick counter, i8254.c. -/

namespace SplongleOS

/-- Where `sleep` stands, with its `start` and `wait_ticks`. -/
inductive SleepPc where
  | called
  | enabled
  | testing (start wait : BitVec 32)
  | waiting (start wait : BitVec 32)
  | halted (start wait : BitVec 32)
  | returned

/-- `elapsed` is ghost: the increments of `ticks` since the call. -/
structure Sleep where
  ticks : BitVec 32
  pc : SleepPc
  elapsed : Nat

inductive SleepEvent where
  | timer
  | interrupt
  | proceed

def SleepPc.interrupted : SleepPc → SleepPc
  | .halted start wait => .testing start wait
  | pc => pc

def pitHandler (ticks : BitVec 32) : BitVec 32 := ticks + 1#32

def waitTicks (ms : BitVec 32) : BitVec 32 :=
  let wait := ms * 100#32 / 1000#32
  if wait = 0#32 then 1#32 else wait

def Sleep.step (ms : BitVec 32) (s : Sleep) : SleepEvent → Option Sleep
  | .timer =>
    some { s with
      ticks := pitHandler s.ticks
      pc := s.pc.interrupted
      elapsed := s.elapsed + 1 }
  | .interrupt => some { s with pc := s.pc.interrupted }
  | .proceed =>
    match s.pc with
    | .called => some { s with pc := .enabled }
    | .enabled => some { s with pc := .testing s.ticks (waitTicks ms) }
    | .testing start wait =>
      some { s with pc := if s.ticks - start < wait then .waiting start wait else .returned }
    | .waiting start wait => some { s with pc := .halted start wait }
    | .halted _ _ => none
    | .returned => none

def Sleep.Run (ms ticks : BitVec 32) : Sleep → Prop :=
  Runs.Reach (Sleep.step ms) (fun _ _ => True) fun s => s = ⟨ticks, .called, 0⟩

def NeverEarly (ms ticks : BitVec 32) : Prop :=
  ∀ s, Sleep.Run ms ticks s → s.pc = .returned → max 1 (ms.toNat / 10) ≤ s.elapsed

theorem step_testing (ms ticks start wait : BitVec 32) (elapsed : Nat) :
    Sleep.step ms ⟨ticks, .testing start wait, elapsed⟩ .proceed =
      some ⟨ticks, if ticks - start < wait then .waiting start wait else .returned, elapsed⟩ := rfl

/-- Since `start` was read, `ticks` was incremented as often as the difference says, up to
multiples of 2^32. -/
def Sleep.Counts (s : Sleep) (start : BitVec 32) : Prop :=
  ∃ n, n ≤ s.elapsed ∧ s.ticks = start + BitVec.ofNat 32 n

def Sleep.Waits (ms : BitVec 32) (s : Sleep) : Prop :=
  match s.pc with
  | .called | .enabled => True
  | .testing start wait | .waiting start wait | .halted start wait =>
    wait = waitTicks ms ∧ s.Counts start
  | .returned => (waitTicks ms).toNat ≤ s.elapsed

variable {ms ticks start wait : BitVec 32} {s s' : Sleep}

theorem Sleep.Counts.timer {pc : SleepPc} (h : s.Counts start) :
    Sleep.Counts ⟨pitHandler s.ticks, pc, s.elapsed + 1⟩ start := by
  obtain ⟨n, hn, hticks⟩ := h
  refine ⟨n + 1, Nat.succ_le_succ hn, ?_⟩
  change s.ticks + 1#32 = start + BitVec.ofNat 32 (n + 1)
  rw [hticks, BitVec.ofNat_add, BitVec.add_assoc]

theorem Sleep.Counts.le (h : s.Counts start) (htest : ¬s.ticks - start < wait) :
    wait.toNat ≤ s.elapsed := by
  obtain ⟨n, hn, hticks⟩ := h
  have hdiff : s.ticks - start = BitVec.ofNat 32 n := by
    rw [hticks, BitVec.add_comm, BitVec.add_sub_cancel]
  rw [hdiff, BitVec.lt_def, BitVec.toNat_ofNat] at htest
  have hmod := Nat.mod_le n (2 ^ 32)
  omega

theorem Sleep.Waits.interrupted (h : s.Waits ms) : Sleep.Waits ms { s with pc := s.pc.interrupted } := by
  obtain ⟨ticks, pc, elapsed⟩ := s
  cases pc <;> exact h

theorem Sleep.Waits.timer (h : s.Waits ms) :
    Sleep.Waits ms ⟨pitHandler s.ticks, s.pc.interrupted, s.elapsed + 1⟩ := by
  obtain ⟨ticks, pc, elapsed⟩ := s
  cases pc with
  | called => exact trivial
  | enabled => exact trivial
  | testing start wait => exact ⟨h.1, h.2.timer⟩
  | waiting start wait => exact ⟨h.1, h.2.timer⟩
  | halted start wait => exact ⟨h.1, h.2.timer⟩
  | returned => exact Nat.le_succ_of_le h

theorem Sleep.Waits.step (h : s.Waits ms) (e : SleepEvent) (hstep : s.step ms e = some s') :
    s'.Waits ms := by
  cases e with
  | timer =>
    obtain rfl := Option.some.inj hstep
    exact h.timer
  | interrupt =>
    obtain rfl := Option.some.inj hstep
    exact h.interrupted
  | proceed =>
    obtain ⟨ticks, pc, elapsed⟩ := s
    cases pc with
    | called =>
      obtain rfl := Option.some.inj hstep
      exact trivial
    | enabled =>
      obtain rfl := Option.some.inj hstep
      exact ⟨rfl, 0, Nat.zero_le _, (BitVec.add_zero ticks).symm⟩
    | testing start wait =>
      obtain rfl := Option.some.inj hstep
      obtain ⟨hwait, hcounts⟩ := h
      by_cases htest : ticks - start < wait
      · simp only [htest, if_true]
        exact ⟨hwait, hcounts⟩
      · simp only [htest, if_false]
        rw [hwait] at htest
        exact hcounts.le htest
    | waiting start wait =>
      obtain rfl := Option.some.inj hstep
      exact h
    | halted start wait => exact absurd hstep (by simp [Sleep.step])
    | returned => exact absurd hstep (by simp [Sleep.step])

theorem waitTicks_le_of_returned (h : Sleep.Run ms ticks s) (hpc : s.pc = .returned) :
    (waitTicks ms).toNat ≤ s.elapsed := by
  have hwaits : s.Waits ms := by
    refine Runs.Reach.invariant (I := Sleep.Waits ms) (fun s hs => ?_)
      (fun s e s' hi _ hstep => hi.step e hstep) h
    rw [hs]
    exact trivial
  rwa [Sleep.Waits, hpc] at hwaits

theorem run_testing (ms ticks : BitVec 32) {k : Nat} (hk : k ≤ (waitTicks ms).toNat) :
    Sleep.Run ms ticks
      ⟨ticks + BitVec.ofNat 32 k, .testing ticks (waitTicks ms), k⟩ := by
  induction k with
  | zero =>
    rw [BitVec.add_zero]
    exact .next .proceed (.next .proceed (.start rfl) trivial rfl) trivial rfl
  | succ k ih =>
    have hwait := (waitTicks ms).isLt
    have htest : ticks + BitVec.ofNat 32 k - ticks < waitTicks ms := by
      rw [BitVec.add_comm, BitVec.add_sub_cancel, BitVec.lt_def, BitVec.toNat_ofNat,
        Nat.mod_eq_of_lt (by omega)]
      exact hk
    have hloop : Sleep.Run ms ticks
        ⟨ticks + BitVec.ofNat 32 k, .waiting ticks (waitTicks ms), k⟩ :=
      .next .proceed (ih (Nat.le_of_succ_le hk)) trivial (by rw [step_testing, if_pos htest])
    have hnext : pitHandler (ticks + BitVec.ofNat 32 k) = ticks + BitVec.ofNat 32 (k + 1) := by
      rw [pitHandler, BitVec.ofNat_add, BitVec.add_assoc]
    exact .next .timer (.next .proceed hloop trivial rfl) trivial (by rw [← hnext]; rfl)

theorem run_returned (ms ticks : BitVec 32) :
    Sleep.Run ms ticks
      ⟨ticks + waitTicks ms, .returned, (waitTicks ms).toNat⟩ := by
  have htesting := run_testing ms ticks (Nat.le_refl (waitTicks ms).toNat)
  rw [BitVec.ofNat_toNat, BitVec.setWidth_eq] at htesting
  have htest : ¬ticks + waitTicks ms - ticks < waitTicks ms := by
    rw [BitVec.add_comm, BitVec.add_sub_cancel]
    exact BitVec.lt_irrefl _
  exact .next .proceed htesting trivial (by rw [step_testing, if_neg htest])

theorem neverEarly_iff_le (ms ticks : BitVec 32) :
    NeverEarly ms ticks ↔ max 1 (ms.toNat / 10) ≤ (waitTicks ms).toNat := by
  constructor
  · intro h
    exact h _ (run_returned ms ticks) rfl
  · intro h s hs hpc
    exact h.trans (waitTicks_le_of_returned hs hpc)

theorem waitTicks_toNat (ms : BitVec 32) :
    (waitTicks ms).toNat = max 1 (ms.toNat * 100 % 0x100000000 / 1000) := by
  have hdiv : (ms * 100#32 / 1000#32).toNat = ms.toNat * 100 % 0x100000000 / 1000 := by
    rw [BitVec.toNat_udiv, BitVec.toNat_mul]
    rfl
  rw [waitTicks]
  by_cases hzero : ms * 100#32 / 1000#32 = 0#32
  · rw [hzero] at hdiv
    simp only [hzero, if_true, ← hdiv]
    rfl
  · have hne : (ms * 100#32 / 1000#32).toNat ≠ 0 := fun h => hzero (BitVec.eq_of_toNat_eq h)
    simp only [hzero, if_false]
    omega

/-- `sleep` never returns early exactly when `ms * 100` does not wrap; the difference of the
ticks may. -/
theorem neverEarly_iff (ms ticks : BitVec 32) :
    NeverEarly ms ticks ↔ ms.toNat * 100 < 0x100000000 := by
  have hms := ms.isLt
  rw [neverEarly_iff_le, waitTicks_toNat]
  constructor
  · intro h
    by_contra hwrap
    have hlost : ms.toNat * 100 % 0x100000000 + 0x100000000 ≤ ms.toNat * 100 := by
      have hquot : 1 ≤ ms.toNat * 100 / 0x100000000 := Nat.div_pos (Nat.not_lt.mp hwrap) (by decide)
      have hsplit := Nat.div_add_mod (ms.toNat * 100) 0x100000000
      omega
    generalize ms.toNat * 100 % 0x100000000 = left at h hlost
    omega
  · intro h
    rw [Nat.mod_eq_of_lt h]
    omega

/-- Almost twelve hours end with the next tick. -/
theorem not_neverEarly_long : Sleep.Run 42949673#32 0#32 ⟨1#32, .returned, 1⟩ ∧
    ¬NeverEarly 42949673#32 0#32 := by
  have hrun : Sleep.Run 42949673#32 0#32 ⟨1#32, .returned, 1⟩ := run_returned 42949673#32 0#32
  refine ⟨hrun, fun h => ?_⟩
  exact absurd (h _ hrun rfl) (by decide)

end SplongleOS
