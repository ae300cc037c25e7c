import SplongleOS.ClockDisplay
import SplongleOS.ClockReading
set_option autoImplicit false

/-! The clock chip behind the ports 0x70 and 0x71, and the functions of rtc.c that use them. -/

namespace SplongleOS
open WordMemory Stdio

/-- `select` is what the address port holds, `access` the number of reads so far; the clock says
what the time registers and the update bit are at a read. -/
structure Cmos where
  select : BitVec 8
  regB : BitVec 8
  regC : BitVec 8
  access : Nat

def Cmos.outAddress (s : Cmos) (v : BitVec 8) : Cmos := { s with select := v }

def Cmos.value (s : Cmos) (c : Clock) : BitVec 8 :=
  let now := c.seq (c.index s.access)
  let register := s.select &&& 0x7F#8
  if register = 0x00#8 then now.second
  else if register = 0x02#8 then now.minute
  else if register = 0x04#8 then now.hour
  else if register = 0x07#8 then now.day
  else if register = 0x08#8 then now.month
  else if register = 0x09#8 then now.year
  else if register = 0x0A#8 then if c.busy s.access then 0xA6#8 else 0x26#8
  else if register = 0x0B#8 then s.regB
  else if register = 0x0C#8 then s.regC
  else 0x80#8

/-- A read clears register C when it is the one selected, and selects register D. -/
def Cmos.inData (s : Cmos) (c : Clock) : BitVec 8 × Cmos :=
  (s.value c, { s with
    select := 0x0D#8
    regC := if s.select &&& 0x7F#8 = 0x0C#8 then 0#8 else s.regC
    access := s.access + 1 })

def Cmos.outData (s : Cmos) (v : BitVec 8) : Cmos :=
  { s with select := 0x0D#8, regB := if s.select &&& 0x7F#8 = 0x0B#8 then v else s.regB }

/-- Bit 6 of register B lets the periodic flag, bit 6 of register C, through to bit 7, the
interrupt line. -/
def Cmos.line (s : Cmos) : Bool := s.regC.getLsbD 7

def Cmos.period (s : Cmos) : Bool × Cmos :=
  let s' := { s with
    regC := s.regC ||| 0x40#8 ||| if s.regB.getLsbD 6 then 0x80#8 else 0#8 }
  (!s.line && s'.line, s')

section
variable (c : Clock)

def cmosUpdateInProgress (s : Cmos) : Bool × Cmos :=
  let (v, s) := (s.outAddress 0x8A#8).inData c
  (v &&& 0x80#8 ≠ 0#8, s)

def getRTCRegister (reg : BitVec 8) (s : Cmos) : BitVec 8 × Cmos :=
  (s.outAddress (reg ||| 0x80#8)).inData c

def enableRTC (s : Cmos) : Cmos :=
  let (prevB, s) := getRTCRegister c 0x0B#8 s
  let s := s.outAddress 0x8B#8
  let s := s.outData (prevB ||| 0x40#8)
  (getRTCRegister c 0x0C#8 s).2

def disableRTC (s : Cmos) : Cmos :=
  let (prevB, s) := getRTCRegister c 0x0B#8 s
  let s := s.outAddress 0x8B#8
  s.outData (prevB &&& 0xBF#8)

def waitUpdate : Nat → Cmos → Option Cmos
  | 0, _ => none
  | fuel + 1, s =>
    let (busy, s) := cmosUpdateInProgress c s
    if busy then waitUpdate fuel s else some s

def readRegisters (s : Cmos) : RtcRegs × Cmos :=
  let (second, s) := getRTCRegister c 0x00#8 s
  let (minute, s) := getRTCRegister c 0x02#8 s
  let (hour, s) := getRTCRegister c 0x04#8 s
  let (day, s) := getRTCRegister c 0x07#8 s
  let (month, s) := getRTCRegister c 0x08#8 s
  let (year, s) := getRTCRegister c 0x09#8 s
  (⟨second, minute, hour, day, month, year⟩, s)

/-- The `do ... while` loop, with `old` as new_datetime was before it. -/
def readAgain : Nat → RtcRegs → Cmos → Option (RtcRegs × Cmos)
  | 0, _, _ => none
  | fuel + 1, old, s => do
    let s ← waitUpdate c fuel s
    let (new, s) := readRegisters c s
    if old = new then return (new, s)
    readAgain fuel new s

end

/-- What RTC_Handler works on besides the chip: RTC_ticks and the memory are in `kernel`. -/
structure ClockDriver where
  cmos : Cmos
  kernel : Kernel
  console : Console
  showDatetime : Bool
  interruptFlag : Bool

def ClockDriver.store (s : ClockDriver) (t : Datetime) : ClockDriver :=
  { s with kernel := { s.kernel with vm := { s.kernel.vm with pmm := { s.kernel.vm.pmm with
    mem := storeBytes 0x1610 t.bytes s.kernel.vm.pmm.mem } } } }

def ClockDriver.setTicks (s : ClockDriver) (ticks : BitVec 16) : ClockDriver :=
  { s with kernel := { s.kernel with ticks := ticks } }

def ClockDriver.display (s : ClockDriver) : ClockDriver :=
  let shown := recordAt s.kernel.vm.pmm.mem
  let s := if s.showDatetime then { s with console := printDatetime s.console shown } else s
  if s.showDatetime then s else { s with console := blankDatetime s.console }

/-- Everything but the read of register C at the end. -/
def rtcSecond (c : Clock) (fuel : Nat) (s : ClockDriver) : Option ClockDriver :=
  let s := { s with interruptFlag := false }
  let s := s.setTicks (s.kernel.ticks + 1#16)
  if s.kernel.ticks % 1024#16 = 0#16 then do
    let s := s.setTicks 0#16
    let cmos ← waitUpdate c fuel s.cmos
    let (old, cmos) := readRegisters c cmos
    let (new, cmos) ← readAgain c fuel old cmos
    let (regB, cmos) := getRTCRegister c 0x0B#8 cmos
    let s := ({ s with cmos := cmos }).store (decodeTime new regB)
    return s.display
  else return s

/-- "read reg C so future IRQ8s can occur". -/
def rtcRearm (c : Clock) (s : ClockDriver) : ClockDriver :=
  { s with cmos := (getRTCRegister c 0x0C#8 s.cmos).2, interruptFlag := true }

def rtcInterrupt (c : Clock) (fuel : Nat) (s : ClockDriver) : Option ClockDriver :=
  (rtcSecond c fuel s).map (rtcRearm c)

def setShowDatetime (s : ClockDriver) : ClockDriver := { s with showDatetime := !s.showDatetime }

end SplongleOS
