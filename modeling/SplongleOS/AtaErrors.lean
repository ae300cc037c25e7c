import SplongleOS.AtaCompletion
import Mathlib.Order.Basic
set_option autoImplicit false

/-! The five polls of a read and of a write on a drive that ends up reporting an error
for good. In four of them `polls_ignored` is tested for being negative, which an unsigned
counter never is. -/

namespace SplongleOS
open FuelProg

def afterReads {δ : Type} (hw : Hardware δ) (ata : Ata) (d : δ) : Nat → δ
  | 0 => d
  | k + 1 => (hw.inb ata.commandPort (afterReads hw ata d k)).2

def statusAt {δ : Type} (hw : Hardware δ) (ata : Ata) (d : δ) (k : Nat) : BitVec 8 :=
  (hw.inb ata.commandPort (afterReads hw ata d k)).1

def ErrorStatus (status : BitVec 8) : Prop :=
  status &&& 0x80#8 = 0#8 ∧ status &&& 0x08#8 = 0#8 ∧ status &&& 0x01#8 ≠ 0#8

/-- From read `k` on the error is permanent, and a poll that starts with these reads is
still polling then: it has not found DRQ once BSY was clear. -/
structure SeesError (status : Nat → BitVec 8) (k : Nat) : Prop where
  error : ∀ m, k ≤ m → ErrorStatus (status m)
  waiting : ∀ j m, status j &&& 0x80#8 = 0#8 → j ≤ m → status m &&& 0x08#8 = 0#8

variable {δ : Type}

inductive Stage where
  | readRequest
  | readDone
  | writeRequest
  | writeDone
  | flushDone
  deriving DecidableEq, Repr

def Stage.tail (hw : Hardware δ) (fuel : Nat) (data : Nat → BitVec 8) (count : BitVec 32) (ata : Ata) :
    Stage → Io δ Unit
  | .readRequest => readTransfer hw fuel count ata
  | .readDone => do
    let status ← inb hw ata.commandPort
    let status ← pollBsy hw ata fuel status
    let _ ← pollDrq hw ata "Error during ATA read\n" fuel status
  | .writeRequest => do
    let status ← inb hw ata.commandPort
    let status ← pollBsy hw ata fuel status
    let ready ← pollDrqIgnoring hw ata fuel 4#8 status
    if ready then do
      writeSector hw ata data count ata.words 0#16
      writeFinish hw fuel ata
    else pure ()
  | .writeDone => do
    let status ← inb hw ata.commandPort
    let status ← pollBsy hw ata fuel status
    let ready ← pollDrqIgnoring hw ata fuel 4#8 status
    if ready then writeFlush hw fuel ata else pure ()
  | .flushDone => do
    let status ← inb hw ata.commandPort
    let status ← pollBsy hw ata fuel status
    let _ ← pollDrqIgnoring hw ata fuel 4#8 status

section
variable (hw : Hardware δ) (fuel : Nat) (data : Nat → BitVec 8) (count : BitVec 32) (ata : Ata)

theorem readFinish_tail : readFinish hw fuel ata =
    (do ata420nsDelay hw ata.controlPort; Stage.readDone.tail hw fuel data count ata) := rfl

theorem writeTransfer_tail : writeTransfer hw fuel data count ata =
    (do ata420nsDelay hw ata.controlPort; Stage.writeRequest.tail hw fuel data count ata) := rfl

theorem writeFinish_tail : writeFinish hw fuel ata =
    (do ata420nsDelay hw ata.controlPort; Stage.writeDone.tail hw fuel data count ata) := rfl

theorem writeFlush_tail : writeFlush hw fuel ata =
    (do outb hw ata.commandPort 0xE7#8; Stage.flushDone.tail hw fuel data count ata) := rfl

/-- The function returns having read the status at most `n` times and done nothing else
to the drive: no word moved, no byte sent to a port. -/
def Stage.GivesUp (stage : Stage) (n : Nat) (s : Machine δ) : Prop :=
  ∃ fuel t m, stage.tail hw fuel data count ata s = (some (), t) ∧ m ≤ n ∧
    t.device = afterReads hw ata s.device m ∧ t.ports = s.ports ∧ t.sent = s.sent

end

section
variable {hw : Hardware δ} {ata : Ata}

def Machine.polled (hw : Hardware δ) (ata : Ata) (s : Machine δ) (k : Nat) : Machine δ :=
  { s with device := afterReads hw ata s.device k }

section
variable (s : Machine δ) {fuel j : Nat}

theorem pollBsy_busy (h : statusAt hw ata s.device j &&& 0x80#8 ≠ 0#8) :
    pollBsy hw ata (fuel + 1) (statusAt hw ata s.device j) (s.polled hw ata (j + 1)) =
      pollBsy hw ata fuel (statusAt hw ata s.device (j + 1)) (s.polled hw ata (j + 1 + 1)) := by
  rw [pollBsy, if_pos h]
  rfl

theorem pollBsy_clear (h : statusAt hw ata s.device j &&& 0x80#8 = 0#8) :
    pollBsy hw ata (fuel + 1) (statusAt hw ata s.device j) (s.polled hw ata (j + 1)) =
      (some (statusAt hw ata s.device j), s.polled hw ata (j + 1)) := by
  rw [pollBsy, if_neg (not_not.mpr h)]
  rfl

theorem pollBsy_run {status' : BitVec 8} {t : Machine δ}
    (h : pollBsy hw ata fuel (statusAt hw ata s.device j) (s.polled hw ata (j + 1)) = (some status', t)) :
    ∃ k, status' = statusAt hw ata s.device k ∧ t = s.polled hw ata (k + 1) ∧
      status' &&& 0x80#8 = 0#8 := by
  induction fuel generalizing j with
  | zero => exact absurd (congrArg Prod.fst h) (Option.some_ne_none _).symm
  | succ fuel ih =>
    by_cases hbusy : statusAt hw ata s.device j &&& 0x80#8 = 0#8
    · rw [pollBsy_clear s hbusy] at h
      obtain ⟨hstatus, rfl⟩ := Prod.mk.inj h
      obtain rfl := Option.some.inj hstatus
      exact ⟨j, rfl, rfl, hbusy⟩
    · rw [pollBsy_busy s hbusy] at h
      exact ih h

theorem pollBsy_ends {n : Nat} (hfuel : n < fuel)
    (hclear : statusAt hw ata s.device (j + n) &&& 0x80#8 = 0#8) :
    ∃ k ≤ j + n, pollBsy hw ata fuel (statusAt hw ata s.device j) (s.polled hw ata (j + 1)) =
        (some (statusAt hw ata s.device k), s.polled hw ata (k + 1)) ∧
      statusAt hw ata s.device k &&& 0x80#8 = 0#8 := by
  induction n generalizing fuel j with
  | zero =>
    obtain ⟨fuel, rfl⟩ : ∃ f, fuel = f + 1 := ⟨fuel - 1, by omega⟩
    exact ⟨j, Nat.le_refl j, pollBsy_clear s hclear, hclear⟩
  | succ n ih =>
    obtain ⟨fuel, rfl⟩ : ∃ f, fuel = f + 1 := ⟨fuel - 1, by omega⟩
    by_cases hbusy : statusAt hw ata s.device j &&& 0x80#8 = 0#8
    · exact ⟨j, by omega, pollBsy_clear s hbusy, hbusy⟩
    · rw [pollBsy_busy s hbusy]
      obtain ⟨k, hk, hrun⟩ := ih (show n < fuel by omega)
        (show statusAt hw ata s.device (j + 1 + n) &&& 0x80#8 = 0#8 by rwa [Nat.add_right_comm])
      exact ⟨k, by omega, hrun⟩

theorem pollDrq_error (error : String) {n : Nat} (hfuel : n < fuel)
    (hdrq : ∀ m, j ≤ m → statusAt hw ata s.device m &&& 0x08#8 = 0#8)
    (herr : statusAt hw ata s.device (j + n) &&& 0x01#8 ≠ 0#8) :
    ∃ k ≤ j + n, pollDrq hw ata error fuel (statusAt hw ata s.device j) (s.polled hw ata (j + 1)) =
      (some false, { s.polled hw ata (k + 1) with console := (error, []) :: s.console }) := by
  have hstop : ∀ {f i : Nat}, statusAt hw ata s.device i &&& 0x08#8 = 0#8 →
      statusAt hw ata s.device i &&& 0x01#8 ≠ 0#8 →
      pollDrq hw ata error (f + 1) (statusAt hw ata s.device i) (s.polled hw ata (i + 1)) =
        (some false, { s.polled hw ata (i + 1) with console := (error, []) :: s.console }) := by
    intro f i hd he
    rw [pollDrq, if_pos hd, if_pos he]
    rfl
  induction n generalizing fuel j with
  | zero =>
    obtain ⟨fuel, rfl⟩ : ∃ f, fuel = f + 1 := ⟨fuel - 1, by omega⟩
    exact ⟨j, Nat.le_refl j, hstop (hdrq j (Nat.le_refl j)) herr⟩
  | succ n ih =>
    obtain ⟨fuel, rfl⟩ : ∃ f, fuel = f + 1 := ⟨fuel - 1, by omega⟩
    by_cases hnow : statusAt hw ata s.device j &&& 0x01#8 ≠ 0#8
    · exact ⟨j, by omega, hstop (hdrq j (Nat.le_refl j)) hnow⟩
    · obtain ⟨k, hk, hrun⟩ := ih (show n < fuel by omega) (fun m hm => hdrq m (by omega))
        (show statusAt hw ata s.device (j + 1 + n) &&& 0x01#8 ≠ 0#8 by rwa [Nat.add_right_comm])
      refine ⟨k, by omega, ?_⟩
      rw [← hrun, pollDrq, if_pos (hdrq j (Nat.le_refl j)), if_neg hnow]
      rfl

/-- Without DRQ the loops that test `polls_ignored < 0` do not end. -/
theorem pollDrqIgnoring_never (fuel : Nat) (ignored : BitVec 8)
    (hdrq : ∀ m, j ≤ m → statusAt hw ata s.device m &&& 0x08#8 = 0#8) :
    (pollDrqIgnoring hw ata fuel ignored (statusAt hw ata s.device j) (s.polled hw ata (j + 1))).1 =
      none := by
  induction fuel generalizing j ignored with
  | zero => rfl
  | succ fuel ih =>
    rw [pollDrqIgnoring, if_pos (hdrq j (Nat.le_refl j)), if_neg fun h => absurd h.2 (by omega)]
    exact ih (ignored - 1) fun m hm => hdrq m (by omega)

end

variable {s : Machine δ} {k : Nat}

theorem ignoring_never (h : SeesError (statusAt hw ata s.device) k) (fuel : Nat)
    (rest : Bool → Io δ Unit) :
    ((do
      let status ← inb hw ata.commandPort
      let status ← pollBsy hw ata fuel status
      let ready ← pollDrqIgnoring hw ata fuel 4#8 status
      rest ready : Io δ Unit) s).1 = none := by
  rw [bind_run (show inb hw ata.commandPort s =
    (some (statusAt hw ata s.device 0), s.polled hw ata (0 + 1)) from rfl)]
  cases hr : pollBsy hw ata fuel (statusAt hw ata s.device 0) (s.polled hw ata (0 + 1)) with
  | mk r t =>
    cases r with
    | none => exact bind_cut (congrArg Prod.fst hr)
    | some status =>
      obtain ⟨j, rfl, rfl, hclear⟩ := pollBsy_run s hr
      rw [bind_run hr]
      exact bind_cut (pollDrqIgnoring_never s fuel 4#8 fun m hm => h.waiting j m hclear hm)

theorem readDone_ends (data : Nat → BitVec 8) (count : BitVec 32)
    (h : SeesError (statusAt hw ata s.device) k) :
    Stage.readDone.GivesUp hw data count ata (k + 1) s := by
  obtain ⟨hbsy, _, herr⟩ := h.error k (Nat.le_refl k)
  obtain ⟨j, hj, hwait, hclear⟩ := pollBsy_ends s (show k < k + 1 by omega)
    (show statusAt hw ata s.device (0 + k) &&& 0x80#8 = 0#8 by rwa [Nat.zero_add])
  obtain ⟨m, hm, hpoll⟩ := pollDrq_error s "Error during ATA read\n" (show k - j < k + 1 by omega)
    (fun m hm => h.waiting j m hclear hm)
    (show statusAt hw ata s.device (j + (k - j)) &&& 0x01#8 ≠ 0#8 by
      rwa [show j + (k - j) = k by omega])
  refine ⟨k + 1, { s.polled hw ata (m + 1) with
    console := ("Error during ATA read\n", []) :: s.console }, m + 1, ?_, by omega, rfl, rfl, rfl⟩
  rw [Stage.tail, bind_run (show inb hw ata.commandPort s =
    (some (statusAt hw ata s.device 0), s.polled hw ata (0 + 1)) from rfl), bind_run hwait,
    bind_run hpoll]
  rfl

theorem tail_never {stage : Stage} (data : Nat → BitVec 8) (count : BitVec 32)
    (hstage : stage ≠ .readDone) (h : SeesError (statusAt hw ata s.device) k) (fuel : Nat) :
    (stage.tail hw fuel data count ata s).1 = none := by
  cases stage with
  | readRequest => exact ignoring_never h fuel _
  | readDone => exact absurd rfl hstage
  | writeRequest => exact ignoring_never h fuel _
  | writeDone => exact ignoring_never h fuel _
  | flushDone => exact ignoring_never h fuel _

end

/-- Of the five polls the last one of a read is the only one that a permanent error ends:
after at most one read of the status past its start, whatever bound is allowed. -/
theorem device_error_ends_iff {hw : Hardware δ} {ata : Ata} {s : Machine δ} {k : Nat} (stage : Stage)
    (data : Nat → BitVec 8) (count : BitVec 32) (ignored : Nat)
    (h : SeesError (statusAt hw ata s.device) k) :
    stage.GivesUp hw data count ata (k + 1 + ignored) s ↔ stage = .readDone := by
  constructor
  · rintro ⟨fuel, t, _, hret, _⟩
    by_contra hstage
    have hnone := tail_never data count hstage h fuel
    rw [hret] at hnone
    exact Option.some_ne_none _ hnone
  · rintro rfl
    obtain ⟨fuel, t, m, hret, hm, hrest⟩ := readDone_ends data count h
    exact ⟨fuel, t, m, hret, by omega, hrest⟩

def brokenDrive : Hardware Unit where
  inb _ d := (0x01#8, d)
  inw _ d := (0#16, d)
  outb _ _ d := d
  outw _ _ d := d

def idleMachine : Machine Unit := ⟨(), 0#8, fun _ => 0#8, [], none, []⟩

theorem seesError_brokenDrive (d : Unit) : SeesError (statusAt brokenDrive (ataInit 0x1F0#16) d) 0 where
  error m _ := by
    change ErrorStatus 0x01#8
    exact ⟨by decide, by decide, by decide⟩
  waiting j m _ _ := by
    change 0x01#8 &&& 0x08#8 = 0#8
    decide

theorem device_error_ends_broken :
    Stage.readDone.GivesUp brokenDrive (fun _ => 0#8) 512#32 (ataInit 0x1F0#16) (0 + 1 + 4) idleMachine ↔
      Stage.readDone = .readDone :=
  device_error_ends_iff .readDone (fun _ => 0#8) 512#32 4 (seesError_brokenDrive ())

theorem device_error_hangs :
    SeesError (statusAt brokenDrive (ataInit 0x1F0#16) idleMachine.device) 0 ∧
      ∀ n, ¬Stage.readRequest.GivesUp brokenDrive (fun _ => 0#8) 512#32 (ataInit 0x1F0#16) n
        idleMachine := by
  refine ⟨seesError_brokenDrive (), fun n => ?_⟩
  rintro ⟨fuel, t, _, hret, _⟩
  have hnone := tail_never (fun _ => 0#8) 512#32 (show Stage.readRequest ≠ .readDone by decide)
    (seesError_brokenDrive idleMachine.device) fuel
  rw [hret] at hnone
  exact Option.some_ne_none _ hnone

end SplongleOS
