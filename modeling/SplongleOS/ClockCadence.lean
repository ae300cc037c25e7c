import SplongleOS.ClockHandler
set_option autoImplicit false

/-! Runs of the clock chip and its handler: the interrupts go on, and every 1024th is a second. -/

namespace SplongleOS
open WordMemory Stdio

/-- `latched` is the request of line 8 at the interrupt controller; `interrupts` and `stored` are the
handler's calls and what they have put into `*g_datetime`. -/
structure ClockSystem where
  driver : ClockDriver
  latched : Bool
  interrupts : Nat
  stored : List Datetime

/-- In `interrupt`, `late` says whether the periodic flag goes up while the handler runs, before it
reads register C. -/
inductive ClockSystemEvent where
  | period
  | interrupt (fuel : Nat) (late : Bool)
  | enableInts
  | disableInts
  | setShowDatetime
  | print (console : Console)

def Cmos.periodIf (late : Bool) (s : Cmos) : Bool × Cmos := if late then s.period else (false, s)

def ClockSystem.step (c : Clock) (s : ClockSystem) : ClockSystemEvent → Option ClockSystem
  | .period =>
    let (edge, cmos) := s.driver.cmos.period
    some { s with driver := { s.driver with cmos := cmos }, latched := s.latched || edge }
  | .interrupt fuel late =>
    if s.latched ∧ s.driver.interruptFlag then do
      let driver ← rtcSecond c fuel s.driver
      let chip := driver.cmos.periodIf late
      let driver := rtcRearm c { driver with cmos := chip.2 }
      some
        { driver := driver
          latched := chip.1
          interrupts := s.interrupts + 1
          stored := if s.driver.Due then s.stored ++ [recordAt driver.kernel.vm.pmm.mem]
            else s.stored }
    else none
  | .enableInts => some { s with driver := { s.driver with interruptFlag := true } }
  | .disableInts => some { s with driver := { s.driver with interruptFlag := false } }
  | .setShowDatetime => some { s with driver := setShowDatetime s.driver }
  | .print console => some { s with driver := { s.driver with console := console } }

/-- HAL_Init has called `enable_RTC`, whatever the chip was like, and no interrupt has come yet. -/
def ClockSystem.Boot (c : Clock) (s : ClockSystem) : Prop :=
  (∃ cmos, s.driver.cmos = enableRTC c cmos) ∧ s.driver.kernel.ticks = 0#16 ∧ s.interrupts = 0 ∧
    s.stored = []

def ClockSystem.Run (c : Clock) (s : ClockSystem) : Prop :=
  Runs.Reach (ClockSystem.step c) (fun _ _ => True) (ClockSystem.Boot c) s

/-- A reading of the clock on which two passes agreed, decoded. -/
def Genuine (c : Clock) (t : Datetime) : Prop :=
  ∃ fuel start r starts regB, c.readTime fuel start = some (r, starts) ∧ t = decodeTime r regB

structure ClockSystem.Keeps (c : Clock) (s : ClockSystem) : Prop where
  periodic : s.driver.cmos.regB.getLsbD 6 = true
  seen : s.driver.cmos.line = true → s.latched = true
  ticks : s.driver.kernel.ticks.toNat = s.interrupts % 1024
  seconds : s.stored.length = s.interrupts / 1024
  genuine : ∀ t ∈ s.stored, Genuine c t

variable {c : Clock} {s s' : ClockSystem}

theorem enableRTC_spec (c : Clock) (s : Cmos) :
    (enableRTC c s).regB = s.regB ||| 0x40#8 ∧ (enableRTC c s).regC = 0#8 := by
  unfold enableRTC
  rw [getRTCRegister_B]
  dsimp only
  rw [getRTCRegister_C]
  refine ⟨?_, rfl⟩
  simp [Cmos.outAddress, Cmos.outData]

theorem Cmos.line_down {s : Cmos} (h : s.regC = 0#8) : s.line = false := by
  rw [Cmos.line, h]
  decide

theorem Cmos.period_spec (s : Cmos) : s.period.2.regB = s.regB ∧
    (s.regB.getLsbD 6 = true → s.period.2.line = true) ∧
    s.period.1 = (!s.line && s.period.2.line) := by
  refine ⟨rfl, fun h => ?_, rfl⟩
  simp [Cmos.period, Cmos.line, h]

theorem ClockSystem.Keeps.boot (h : s.Boot c) : s.Keeps c := by
  obtain ⟨⟨cmos, hcmos⟩, hticks, hinterrupts, hstored⟩ := h
  obtain ⟨hregB, hregC⟩ := enableRTC_spec c cmos
  refine ⟨?_, fun hline => ?_, ?_, ?_, ?_⟩
  · rw [hcmos, hregB]
    simp
  · rw [hcmos, Cmos.line_down hregC] at hline
    cases hline
  · rw [hticks, hinterrupts]
    rfl
  · rw [hstored, hinterrupts]
    rfl
  · rw [hstored]
    exact fun t ht => nomatch ht

theorem ClockSystem.Keeps.period (h : s.Keeps c) (hs : s.step c .period = some s') :
    s'.Keeps c ∧ s'.latched = true := by
  obtain ⟨hregB, hline, hedge⟩ := s.driver.cmos.period_spec
  cases hs
  have hlatched : (s.latched || s.driver.cmos.period.1) = true := by
    rw [hedge, hline h.periodic]
    cases hup : s.driver.cmos.line
    · simp
    · simp [h.seen hup]
  exact ⟨⟨hregB ▸ h.periodic, fun _ => hlatched, h.ticks, h.seconds, h.genuine⟩, hlatched⟩

theorem updated_spec (d : ClockDriver) (r : RtcRegs) (access : Nat) :
    (d.updated r access).cmos = { d.cmos with select := 0x0D#8, access := access } ∧
      (d.updated r access).kernel.ticks = 0#16 ∧
      recordAt (d.updated r access).kernel.vm.pmm.mem = decodeTime r d.cmos.regB := by
  unfold ClockDriver.updated
  dsimp only
  obtain ⟨hkernel, hcmos, -⟩ := ClockDriver.display_spec ((ClockDriver.setTicks { d with
    cmos := { d.cmos with select := 0x0D#8, access := access }
    interruptFlag := false } 0#16).store (decodeTime r d.cmos.regB))
  rw [hkernel, hcmos]
  exact ⟨rfl, rfl, recordAt_storeBytes ..⟩

theorem due_iff (d : ClockDriver) {n : Nat} (h : d.kernel.ticks.toNat = n % 1024) :
    d.Due ↔ (n + 1) % 1024 = 0 := by
  rw [ClockDriver.Due, ← BitVec.toNat_inj, BitVec.toNat_umod, BitVec.toNat_add, h]
  simp only [BitVec.toNat_ofNat, Nat.reducePow, Nat.reduceMod]
  omega

/-- The handler takes the line down, whenever the chip has put it up again meanwhile. -/
theorem ClockSystem.Keeps.interrupt (h : s.Keeps c) {fuel : Nat} {late : Bool}
    (hs : s.step c (.interrupt fuel late) = some s') : s'.Keeps c := by
  rw [ClockSystem.step] at hs
  split at hs
  · obtain ⟨d, hsecond, hs⟩ := Option.bind_eq_some_iff.mp hs
    cases hs
    have hlate : (d.cmos.periodIf late).2.regB = d.cmos.regB := by cases late <;> rfl
    have hdown : (rtcRearm c { d with cmos := (d.cmos.periodIf late).2 }).cmos.line = false := by
      refine Cmos.line_down ?_
      rw [rtcRearm, getRTCRegister_C]
    have hdue := due_iff s.driver h.ticks
    by_cases hnow : s.driver.Due
    · rw [rtcSecond_due hnow] at hsecond
      obtain ⟨x, hread, rfl⟩ := Option.map_eq_some_iff.mp hsecond
      obtain ⟨hcmos, hticks, hrecord⟩ := updated_spec s.driver x.1 (x.2.getLastD 0 + 7)
      have hsecond := hdue.mp hnow
      refine ⟨?_, fun h => absurd (h.symm.trans hdown) (by decide), ?_, ?_, ?_⟩
      · rw [rtcRearm, getRTCRegister_C]
        dsimp only
        rw [hlate, hcmos]
        exact h.periodic
      · refine (congrArg BitVec.toNat hticks).trans ?_
        exact hsecond.symm
      · dsimp only
        rw [if_pos hnow, List.length_append, h.seconds, List.length_singleton]
        omega
      · dsimp only
        rw [if_pos hnow]
        intro t ht
        rcases List.mem_append.mp ht with ht | ht
        · exact h.genuine t ht
        · obtain rfl := List.mem_singleton.mp ht
          exact ⟨fuel, _, x.1, x.2, s.driver.cmos.regB, hread, hrecord⟩
    · rw [rtcSecond_not_due hnow] at hsecond
      cases hsecond
      have hmid := mt hdue.mpr hnow
      have hticks := h.ticks
      refine ⟨?_, fun h => absurd (h.symm.trans hdown) (by decide), ?_, ?_, ?_⟩
      · rw [rtcRearm, getRTCRegister_C]
        dsimp only
        rw [hlate]
        exact h.periodic
      · change (s.driver.kernel.ticks + 1#16).toNat = _
        rw [BitVec.toNat_add, hticks]
        simp only [BitVec.toNat_ofNat, Nat.reducePow, Nat.reduceMod]
        omega
      · dsimp only
        rw [if_neg hnow, h.seconds]
        omega
      · dsimp only
        rw [if_neg hnow]
        exact h.genuine
  · cases hs

theorem ClockSystem.Keeps.step (h : s.Keeps c) (e : ClockSystemEvent) (hs : s.step c e = some s') :
    s'.Keeps c := by
  cases e with
  | period => exact (h.period hs).1
  | interrupt fuel late => exact h.interrupt hs
  | enableInts => cases hs; exact ⟨h.periodic, h.seen, h.ticks, h.seconds, h.genuine⟩
  | disableInts => cases hs; exact ⟨h.periodic, h.seen, h.ticks, h.seconds, h.genuine⟩
  | setShowDatetime => cases hs; exact ⟨h.periodic, h.seen, h.ticks, h.seconds, h.genuine⟩
  | print console => cases hs; exact ⟨h.periodic, h.seen, h.ticks, h.seconds, h.genuine⟩

theorem ClockSystem.Run.keeps (h : s.Run c) : s.Keeps c :=
  Runs.Reach.invariant (fun _ hboot => .boot hboot) (fun _ e _ hi _ hstep => hi.step e hstep) h

/-- The clock never stops: in every state that is reached the next period leaves an interrupt
waiting, and of the interrupts every 1024th, and no other, has stored a reading of the clock. -/
theorem clock_goes_on (h : s.Run c) :
    (∃ s', s.step c .period = some s' ∧ s'.latched = true) ∧
      s.stored.length = s.interrupts / 1024 ∧
      s.driver.kernel.ticks.toNat = s.interrupts % 1024 ∧ ∀ t ∈ s.stored, Genuine c t :=
  ⟨⟨_, rfl, (h.keeps.period rfl).2⟩, h.keeps.seconds, h.keeps.ticks, h.keeps.genuine⟩

def firstSecond : ClockSystem :=
  ⟨⟨enableRTC midnightClock ⟨0x0D#8, 0x42#8, 0xC0#8, 0⟩, { clockKernel with ticks := 0#16 },
    ⟨fun _ => 0#8, 0, 0, 7#8, 0#8, 0#8, []⟩, false, true⟩, true, 0, []⟩

theorem clock_goes_on_firstSecond : ∃ s,
    Runs.run (ClockSystem.step midnightClock) firstSecond [.period, .interrupt 1 false] = some s ∧
      s.interrupts = 1 ∧
      (∃ s', s.step midnightClock .period = some s' ∧ s'.latched = true) ∧
      s.stored.length = s.interrupts / 1024 ∧
      s.driver.kernel.ticks.toNat = s.interrupts % 1024 ∧ ∀ t ∈ s.stored, Genuine midnightClock t := by
  have hboot : ClockSystem.Run midnightClock firstSecond :=
    .start ⟨⟨⟨0x0D#8, 0x42#8, 0xC0#8, 0⟩, rfl⟩, rfl, rfl, rfl⟩
  have hstep : ∃ s, Runs.run (ClockSystem.step midnightClock) firstSecond
      [.period, .interrupt 1 false] = some s ∧ s.interrupts = 1 := ⟨_, rfl, rfl⟩
  obtain ⟨s, hrun, hone⟩ := hstep
  exact ⟨s, hrun, hone, clock_goes_on (hboot.of_run hrun)⟩

theorem disableRTC_quiet (c : Clock) (s : Cmos) : (disableRTC c s).period.1 = false := by
  have hregB : (disableRTC c s).regB = s.regB &&& 0xBF#8 := by
    unfold disableRTC
    rw [getRTCRegister_B]
    simp [Cmos.outAddress, Cmos.outData]
  have hoff : (s.regB &&& 0xBF#8).getLsbD 6 = false := by simp
  simp only [Cmos.period, Cmos.line, hregB, hoff]
  generalize (disableRTC c s).regC = v
  simp

end SplongleOS
