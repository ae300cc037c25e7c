import SplongleOS.Sleep
set_option autoImplicit false

/-! The 8254 timer with the speaker gate behind it, and what i8254.c and pc_speaker.c write
to their ports. -/

namespace SplongleOS

/-- `second` is whether the high byte comes next, `low` the byte that waits for it. -/
structure PitCounter where
  mode : BitVec 3
  bcd : Bool
  access : BitVec 2
  second : Bool
  low : BitVec 8
  divisor : BitVec 16
  loaded : Bool

/-- A control word with access 0 latches the count for reading and programs nothing. -/
def PitCounter.control (c : PitCounter) (v : BitVec 8) : PitCounter :=
  if v.extractLsb' 4 2 = 0#2 then c
  else
    { c with
      mode := v.extractLsb' 1 3
      bcd := v.getLsbD 0
      access := v.extractLsb' 4 2
      second := false
      loaded := false }

def PitCounter.data (c : PitCounter) (v : BitVec 8) : PitCounter :=
  if c.access = 1#2 then { c with divisor := 0#8 ++ v, loaded := true }
  else if c.access = 2#2 then { c with divisor := v ++ 0#8, loaded := true }
  else if c.second then { c with divisor := v ++ c.low, second := false, loaded := true }
  else { c with low := v, second := true }

structure PitCounter.Programmed (c : PitCounter) (mode : BitVec 3) (divisor : BitVec 16) : Prop where
  mode : c.mode = mode
  binary : c.bcd = false
  access : c.access = 3#2
  aligned : c.second = false
  divisor : c.divisor = divisor
  loaded : c.loaded = true

/-- The counters are 0, 1 and 2; number 3 in a control word is the read-back command, which
only latches. `gate` is bits 0 to 3 of port 0x61, `status` what its other bits read. -/
structure PitBoard where
  counter : BitVec 2 → PitCounter
  gate : BitVec 4
  status : BitVec 4
  interrupts : Bool

namespace PitBoard

def outb (b : PitBoard) (port : BitVec 16) (v : BitVec 8) : PitBoard :=
  if port = 0x43#16 then
    let c := v.extractLsb' 6 2
    if c = 3#2 then b
    else { b with counter := Function.update b.counter c ((b.counter c).control v) }
  else if port = 0x61#16 then { b with gate := v.extractLsb' 0 4 }
  else if 0x40#16 ≤ port ∧ port ≤ 0x42#16 then
    let c := (port - 0x40#16).setWidth 2
    { b with counter := Function.update b.counter c ((b.counter c).data v) }
  else b

def inb (b : PitBoard) (port : BitVec 16) : BitVec 8 :=
  if port = 0x61#16 then b.status ++ b.gate else 0xFF#8

def Sounds (b : PitBoard) : Prop := b.gate.extractLsb' 0 2 = 3#2

def Silent (b : PitBoard) : Prop := b.gate.extractLsb' 0 2 = 0#2

end PitBoard

def setPitChannelModeFrequency (b : PitBoard) (channel mode : BitVec 8) (freq : BitVec 16) :
    PitBoard :=
  if 2#8 < channel ∨ 7#8 < mode then b
  else
    let b := { b with interrupts := false }
    let b := b.outb 0x43#16 (channel <<< 6 ||| 0x03#8 <<< 4 ||| mode <<< 1)
    let b := b.outb (0x40#16 + channel.setWidth 16) ((freq &&& 0xFF#16).setWidth 8)
    let b := b.outb (0x40#16 + channel.setWidth 16) ((freq >>> 8 &&& 0xFF#16).setWidth 8)
    { b with interrupts := true }

theorem setWidth_low_byte (w : BitVec 16) : (w &&& 0xFF#16).setWidth 8 = w.setWidth 8 := by
  rw [BitVec.setWidth_and]
  exact BitVec.and_allOnes

theorem append_bytes (w : BitVec 16) :
    (w >>> 8 &&& 0xFF#16).setWidth 8 ++ (w &&& 0xFF#16).setWidth 8 = w := by
  rw [setWidth_low_byte, setWidth_low_byte]
  refine BitVec.eq_of_getLsbD_eq fun i hi => ?_
  rw [BitVec.getLsbD_append]
  by_cases hlow : i < 8
  · simp [hlow]
  · rw [if_neg hlow, BitVec.getLsbD_setWidth, BitVec.getLsbD_ushiftRight]
    have hsum : 8 + (i - 8) = i := by omega
    have hlt : i - 8 < 8 := by omega
    simp [hsum, hlt]

def PitCounter.program (mode : BitVec 3) (freq : BitVec 16) : PitCounter :=
  ⟨mode, false, 3#2, false, (freq &&& 0xFF#16).setWidth 8, freq, true⟩

theorem PitCounter.programmed_program (mode : BitVec 3) (freq : BitVec 16) :
    (PitCounter.program mode freq).Programmed mode freq :=
  ⟨rfl, rfl, rfl, rfl, rfl, rfl⟩

def controlWord (channel : BitVec 2) (mode : BitVec 3) : BitVec 8 :=
  channel.setWidth 8 <<< 6 ||| 0x03#8 <<< 4 ||| mode.setWidth 8 <<< 1

theorem controlWord_fields (channel : BitVec 2) (mode : BitVec 3) :
    (controlWord channel mode).extractLsb' 6 2 = channel ∧
      (controlWord channel mode).extractLsb' 4 2 = 3#2 ∧
        (controlWord channel mode).extractLsb' 1 3 = mode ∧
          (controlWord channel mode).getLsbD 0 = false := by
  revert channel mode
  decide

theorem PitCounter.data_data_control (c : PitCounter) (channel : BitVec 2) (mode : BitVec 3)
    (freq : BitVec 16) :
    ((c.control (controlWord channel mode)).data ((freq &&& 0xFF#16).setWidth 8)).data
      ((freq >>> 8 &&& 0xFF#16).setWidth 8) = .program mode freq := by
  obtain ⟨_, haccess, hmode, hbcd⟩ := controlWord_fields channel mode
  have hcontrol : c.control (controlWord channel mode) =
      ⟨mode, false, 3#2, false, c.low, c.divisor, false⟩ := by
    rw [PitCounter.control, haccess, if_neg (by decide), hmode, hbcd]
  have hbytes : ∀ lo hi : BitVec 8,
      ((PitCounter.mk mode false 3#2 false c.low c.divisor false).data lo).data hi =
        ⟨mode, false, 3#2, false, lo, hi ++ lo, true⟩ := fun _ _ => rfl
  rw [hcontrol, hbytes, append_bytes, PitCounter.program]

theorem PitBoard.outb_control (b : PitBoard) {channel : BitVec 2} (hc : channel ≠ 3#2)
    (mode : BitVec 3) :
    b.outb 0x43#16 (controlWord channel mode) =
      { b with
        counter := Function.update b.counter channel
          ((b.counter channel).control (controlWord channel mode)) } := by
  obtain ⟨hsel, _⟩ := controlWord_fields channel mode
  simp only [PitBoard.outb, ↓reduceIte, hsel, hc]

theorem PitBoard.outb_data (b : PitBoard) {channel : BitVec 2} (hc : channel ≠ 3#2) (v : BitVec 8) :
    b.outb (0x40#16 + channel.setWidth 16) v =
      { b with
        counter := Function.update b.counter channel ((b.counter channel).data v) } := by
  have hport : ∀ c : BitVec 2, c ≠ 3#2 → 0x40#16 + c.setWidth 16 ≠ 0x43#16 ∧
      0x40#16 + c.setWidth 16 ≠ 0x61#16 ∧
        (0x40#16 ≤ 0x40#16 + c.setWidth 16 ∧ 0x40#16 + c.setWidth 16 ≤ 0x42#16) ∧
          (0x40#16 + c.setWidth 16 - 0x40#16).setWidth 2 = c := by decide
  obtain ⟨hcontrol, hgate, hrange, hindex⟩ := hport channel hc
  rw [PitBoard.outb, if_neg hcontrol, if_neg hgate, if_pos hrange]
  simp only [hindex]

theorem setPitChannelModeFrequency_eq (b : PitBoard) (channel mode : BitVec 8) (freq : BitVec 16) :
    setPitChannelModeFrequency b channel mode freq =
      if 2#8 < channel ∨ 7#8 < mode then b
      else
        { b with
          counter := Function.update b.counter (channel.setWidth 2) (.program (mode.setWidth 3) freq)
          interrupts := true } := by
  by_cases hbad : 2#8 < channel ∨ 7#8 < mode
  · rw [setPitChannelModeFrequency, if_pos hbad, if_pos hbad]
  · have hchannel : ∀ c : BitVec 8, ¬2#8 < c →
        c = (c.setWidth 2).setWidth 8 ∧ c.setWidth 2 ≠ 3#2 := by decide
    have hmode : ∀ m : BitVec 8, ¬7#8 < m → m = (m.setWidth 3).setWidth 8 := by decide
    obtain ⟨hc, hne⟩ := hchannel channel fun h => hbad (Or.inl h)
    have hm := hmode mode fun h => hbad (Or.inr h)
    have hword : channel <<< 6 ||| 0x03#8 <<< 4 ||| mode <<< 1 =
        controlWord (channel.setWidth 2) (mode.setWidth 3) := by
      rw [controlWord, ← hc, ← hm]
    have hport : channel.setWidth 16 = (channel.setWidth 2).setWidth 16 := by
      rw [hc]
      simp
    rw [setPitChannelModeFrequency, if_neg hbad, if_neg hbad]
    simp only [hword, hport, PitBoard.outb_control _ hne, PitBoard.outb_data _ hne,
      Function.update_self, Function.update_idem, PitCounter.data_data_control]

end SplongleOS
