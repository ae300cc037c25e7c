import SplongleOS.Cmos
set_option autoImplicit false

/-! RTC_Handler at the ports, with its polls and register reads, refines the handler on readings of
the clock. -/

namespace SplongleOS
open WordMemory Stdio

variable (c : Clock)

theorem cmosUpdateInProgress_eq (s : Cmos) : cmosUpdateInProgress c s =
    (c.busy s.access, { s with select := 0x0D#8, access := s.access + 1 }) := by
  cases hbusy : c.busy s.access <;>
    simp [cmosUpdateInProgress, Cmos.inData, Cmos.value, Cmos.outAddress, hbusy]

theorem readRegisters_eq (s : Cmos) : readRegisters c s =
    (c.pass s.access, { s with select := 0x0D#8, access := s.access + 6 }) := by
  simp [readRegisters, getRTCRegister, Cmos.inData, Cmos.value, Cmos.outAddress, Clock.pass]

theorem getRTCRegister_B (s : Cmos) : getRTCRegister c 0x0B#8 s =
    (s.regB, { s with select := 0x0D#8, access := s.access + 1 }) := by
  simp [getRTCRegister, Cmos.inData, Cmos.value, Cmos.outAddress]

theorem getRTCRegister_C (s : Cmos) : getRTCRegister c 0x0C#8 s =
    (s.regC, { s with select := 0x0D#8, regC := 0#8, access := s.access + 1 }) := by
  simp [getRTCRegister, Cmos.inData, Cmos.value, Cmos.outAddress]

theorem waitUpdate_eq (fuel : Nat) (s : Cmos) : waitUpdate c fuel s =
    (c.spin fuel s.access).map fun u => { s with select := 0x0D#8, access := u } := by
  induction fuel generalizing s with
  | zero => rfl
  | succ fuel ih =>
    rw [waitUpdate, Clock.spin, cmosUpdateInProgress_eq]
    dsimp only
    cases c.busy s.access
    · rfl
    · exact ih _

theorem readAgain_eq (fuel : Nat) (s : Cmos) (t : Nat) :
    readAgain c fuel (c.pass t) { s with select := 0x0D#8, access := t + 6 } =
      (c.settle fuel t).map fun x =>
        (x.1, { s with select := 0x0D#8, access := x.2.getLastD t + 6 }) := by
  induction fuel generalizing t with
  | zero => rfl
  | succ fuel ih =>
    rw [readAgain, Clock.settle, waitUpdate_eq]
    dsimp only
    cases c.spin fuel (t + 6) with
    | none => rfl
    | some u =>
      dsimp only [Option.map_some, Option.bind_eq_bind, Option.bind_some]
      rw [readRegisters_eq]
      dsimp only
      by_cases hsame : c.pass t = c.pass u
      · rw [if_pos hsame, if_pos hsame]
        rfl
      · rw [if_neg hsame, if_neg hsame, ih u]
        cases c.settle fuel u with
        | none => rfl
        | some x =>
          dsimp only [Option.map_some, Option.bind_some]
          rw [Option.pure_def, Option.map_some, List.getLastD_cons]

/-- What the handler leaves at the end of a second, when its two last passes have read `r`. -/
def ClockDriver.updated (s : ClockDriver) (r : RtcRegs) (access : Nat) : ClockDriver :=
  let s' := { s with
    cmos := { s.cmos with select := 0x0D#8, access := access }
    interruptFlag := false }
  ((s'.setTicks 0#16).store (decodeTime r s.cmos.regB)).display

def ClockDriver.Due (s : ClockDriver) : Prop := (s.kernel.ticks + 1#16) % 1024#16 = 0#16

instance (s : ClockDriver) : Decidable s.Due := by
  delta ClockDriver.Due
  exact inferInstance

variable {c} {s s' : ClockDriver} {fuel : Nat}

theorem rtcSecond_due (h : s.Due) : rtcSecond c fuel s =
    (c.readTime fuel s.cmos.access).map fun x => s.updated x.1 (x.2.getLastD 0 + 7) := by
  unfold rtcSecond
  dsimp only
  have hticks : ((ClockDriver.setTicks { s with interruptFlag := false }
      (s.kernel.ticks + 1#16)).kernel.ticks % 1024#16 = 0#16) := h
  rw [if_pos hticks, waitUpdate_eq, Clock.readTime]
  dsimp only [ClockDriver.setTicks]
  cases c.spin fuel s.cmos.access with
  | none => rfl
  | some t =>
    dsimp only [Option.map_some, Option.bind_eq_bind, Option.bind_some]
    rw [readRegisters_eq]
    dsimp only
    have hagain := readAgain_eq c fuel { s.cmos with access := t } t
    dsimp only at hagain
    rw [hagain]
    cases c.settle fuel t with
    | none => rfl
    | some x =>
      dsimp only [Option.map_some, Option.bind_some]
      rw [getRTCRegister_B, Option.pure_def, Option.pure_def, Option.map_some, List.getLastD_cons]
      rfl

theorem rtcSecond_not_due (h : ¬s.Due) : rtcSecond c fuel s =
    some (ClockDriver.setTicks { s with interruptFlag := false } (s.kernel.ticks + 1#16)) := if_neg h

theorem settleTime_of_readTime {start : Nat} {r : RtcRegs} {starts : List Nat}
    (h : c.readTime fuel start = some (r, starts)) :
    ∃ t us, starts = t :: us ∧ settleTime (c.pass t) (us.map c.pass) = some r := by
  rw [Clock.readTime, Option.bind_eq_bind, Option.bind_eq_some_iff] at h
  obtain ⟨t, -, h⟩ := h
  obtain ⟨⟨r', us⟩, hloop, h⟩ := Option.bind_eq_some_iff.mp h
  cases h
  exact ⟨t, us, rfl, Clock.settle_settleTime hloop⟩

theorem ClockDriver.display_spec (s : ClockDriver) : s.display.kernel = s.kernel ∧
    s.display.cmos = s.cmos ∧ s.display.interruptFlag = s.interruptFlag ∧
    s.display.showDatetime = s.showDatetime ∧ s.display.console =
      if s.showDatetime then printDatetime s.console (recordAt s.kernel.vm.pmm.mem)
      else blankDatetime s.console := by
  cases hshow : s.showDatetime <;> simp [ClockDriver.display, hshow]

/-- What one call does, seen from the readings that the clock lets it have. -/
structure Handled (c : Clock) (fuel : Nat) (s s' : ClockDriver) : Prop where
  kernel : ∃ first reads, rtcHandler s.kernel first reads s.cmos.regB = some s'.kernel ∧
    (s.Due → ∃ r starts, c.readTime fuel s.cmos.access = some (r, starts) ∧
      first :: reads = starts.map c.pass)
  console : s'.console =
    if s.Due then
      if s.showDatetime then printDatetime s.console (recordAt s'.kernel.vm.pmm.mem)
      else blankDatetime s.console
    else s.console
  rearmed : s'.cmos.regC = 0#8
  kept : s'.cmos.regB = s.cmos.regB ∧ s'.showDatetime = s.showDatetime
  enabled : s'.interruptFlag = true

theorem handled_due {r : RtcRegs} {starts : List Nat} (hdue : s.Due)
    (hread : c.readTime fuel s.cmos.access = some (r, starts)) :
    Handled c fuel s (rtcRearm c (s.updated r (starts.getLastD 0 + 7))) := by
  obtain ⟨t, us, rfl, hsettle⟩ := settleTime_of_readTime hread
  let u := ((ClockDriver.setTicks { s with
    cmos := { s.cmos with select := 0x0D#8, access := (t :: us).getLastD 0 + 7 }
    interruptFlag := false } 0#16).store (decodeTime r s.cmos.regB))
  obtain ⟨hkernel, hcmos, -, hshow, hconsole⟩ := ClockDriver.display_spec u
  have hupdated : s.updated r ((t :: us).getLastD 0 + 7) = u.display := rfl
  have hhandler : rtcHandler s.kernel (c.pass t) (us.map c.pass) s.cmos.regB = some u.kernel := by
    have hticks : (s.kernel.ticks + 1#16) % 1024#16 = 0#16 := hdue
    unfold rtcHandler
    dsimp only
    rw [if_pos hticks, hsettle]
    rfl
  rw [hupdated, rtcRearm, getRTCRegister_C]
  refine ⟨⟨c.pass t, us.map c.pass, ?_, fun _ => ⟨r, t :: us, hread, rfl⟩⟩, ?_, rfl, ⟨?_, hshow⟩, rfl⟩
  · rw [hhandler, hkernel]
  · rw [if_pos hdue, hkernel]
    exact hconsole
  · rw [hcmos]
    rfl

theorem handled_not_due (hdue : ¬s.Due) : Handled c fuel s
    (rtcRearm c (ClockDriver.setTicks { s with interruptFlag := false } (s.kernel.ticks + 1#16))) := by
  rw [rtcRearm, getRTCRegister_C]
  refine ⟨⟨⟨0#8, 0#8, 0#8, 0#8, 0#8, 0#8⟩, [], if_neg hdue, fun h => absurd h hdue⟩, (if_neg hdue).symm,
    rfl, ⟨rfl, rfl⟩, rfl⟩

/-- At the ports, the handler is the abstract one on the passes that the clock gives it. It hangs
only where no two passes in a row agree, and takes the interrupt line down whenever it returns. -/
theorem rtcInterrupt_refines (c : Clock) (fuel : Nat) (s : ClockDriver) :
    (rtcInterrupt c fuel s = none ↔ s.Due ∧ c.readTime fuel s.cmos.access = none) ∧
      ∀ s', rtcInterrupt c fuel s = some s' → Handled c fuel s s' := by
  rw [rtcInterrupt]
  by_cases hdue : s.Due
  · rw [rtcSecond_due hdue]
    cases hread : c.readTime fuel s.cmos.access with
    | none => exact ⟨⟨fun _ => ⟨hdue, rfl⟩, fun _ => rfl⟩, fun s' h => (nomatch h)⟩
    | some x =>
      refine ⟨⟨fun h => (nomatch h), fun h => (nomatch h.2)⟩, fun s' h => ?_⟩
      cases h
      exact handled_due hdue hread
  · rw [rtcSecond_not_due hdue]
    refine ⟨⟨fun h => (nomatch h), fun h => absurd h.1 hdue⟩, fun s' h => ?_⟩
    cases h
    exact handled_not_due hdue

end SplongleOS
