import SplongleOS.Base.FuelProg
import Mathlib.Logic.Function.Basic
set_option autoImplicit false

/-! The ATA driver, ata.c, against any hardware behind the I/O ports. Every polling loop
runs on `fuel`. -/

namespace SplongleOS
open FuelProg

structure Hardware (δ : Type) where
  inb : BitVec 16 → δ → BitVec 8 × δ
  inw : BitVec 16 → δ → BitVec 16 × δ
  outb : BitVec 16 → BitVec 8 → δ → δ
  outw : BitVec 16 → BitVec 16 → δ → δ

structure Ata where
  dataPort : BitVec 16
  errorPort : BitVec 16
  sectorCountPort : BitVec 16
  lbaLowPort : BitVec 16
  lbaMidPort : BitVec 16
  lbaHighPort : BitVec 16
  devicePort : BitVec 16
  commandPort : BitVec 16
  controlPort : BitVec 16
  master : Bool
  initialized : Bool
  bytesPerSector : BitVec 16
  deriving DecidableEq

/-- The handle ATA_Init makes; it also installs two interrupt handlers that only print. -/
def ataInit (portBase : BitVec 16) : Ata where
  dataPort := portBase
  errorPort := portBase + 1
  sectorCountPort := portBase + 2
  lbaLowPort := portBase + 3
  lbaMidPort := portBase + 4
  lbaHighPort := portBase + 5
  devicePort := portBase + 6
  commandPort := portBase + 7
  controlPort := if portBase = 0x1F0#16 then 0x3F6#16 else 0x376#16
  master := portBase = 0x1F0#16
  initialized := true
  bytesPerSector := 512#16

inductive AtaCall where
  | identify (portBase : BitVec 16)
  | read28 (sector count : BitVec 32) (portBase : BitVec 16)
  | write28 (sector : BitVec 32) (data : Nat → BitVec 8) (count : BitVec 32) (portBase : BitVec 16)

def AtaCall.portBase : AtaCall → BitVec 16
  | .identify portBase => portBase
  | .read28 _ _ portBase => portBase
  | .write28 _ _ _ portBase => portBase

structure Sent where
  call : Option AtaCall
  port : BitVec 16
  value : BitVec 8
  before : BitVec 16 → BitVec 8

/-- `ports` is what was last written to each port, `console` what was printed, newest
first; `call` and `sent` are ghost. -/
structure Machine (δ : Type) where
  device : δ
  lastDevice : BitVec 8
  ports : BitVec 16 → BitVec 8
  console : List (String × List Nat)
  call : Option AtaCall
  sent : List Sent

variable {δ : Type}

abbrev Io (δ α : Type) : Type := FuelProg (Machine δ) α

def printk (format : String) (args : List Nat) : Io δ Unit :=
  modify fun s => { s with console := (format, args) :: s.console }

variable (hw : Hardware δ)

def inb (port : BitVec 16) : Io δ (BitVec 8) := fun s =>
  (some (hw.inb port s.device).1, { s with device := (hw.inb port s.device).2 })

def inw (port : BitVec 16) : Io δ (BitVec 16) := fun s =>
  (some (hw.inw port s.device).1, { s with device := (hw.inw port s.device).2 })

def Machine.send (s : Machine δ) (port : BitVec 16) (value : BitVec 8) : Machine δ :=
  { s with
    device := hw.outb port value s.device
    ports := Function.update s.ports port value
    sent := ⟨s.call, port, value, s.ports⟩ :: s.sent }

def outb (port : BitVec 16) (value : BitVec 8) : Io δ Unit := modify fun s => s.send hw port value

def outw (port : BitVec 16) (value : BitVec 16) : Io δ Unit := modify fun s =>
  { s with device := hw.outw port value s.device }

def getLastDevice : Io δ (BitVec 8) := fun s => (some s.lastDevice, s)

def setLastDevice (device : BitVec 8) : Io δ Unit := modify fun s => { s with lastDevice := device }

def skip (read : Io δ Unit) : Nat → Io δ Unit
  | 0 => pure ()
  | n + 1 => do
    read
    skip read n

omit hw in
theorem skip_keeps {P E : Machine δ → Prop} {read : Io δ Unit} (h : Triple P read (fun _ => P) E)
    (n : Nat) : Triple P (skip read n) (fun _ => P) E := by
  induction n with
  | zero => exact .keep _
  | succ n ih => exact .bind h fun _ => ih

def ata420nsDelay (controlPort : BitVec 16) : Io δ Unit :=
  skip (do let _ ← inb hw controlPort) 15

def ataDevSelect (ata : Ata) (device : BitVec 8) : Io δ Unit := do
  outb hw ata.devicePort device
  ata420nsDelay hw ata.controlPort
  setLastDevice device

/-- Skipped when `g_last_device` says the device is selected. -/
def selectDevice (ata : Ata) (deviceToSelect : BitVec 8) : Io δ Unit := do
  let last ← getLastDevice
  if last ≠ deviceToSelect then ataDevSelect hw ata deviceToSelect else pure ()

def pollBsy (ata : Ata) : Nat → BitVec 8 → Io δ (BitVec 8)
  | 0, _ => outOfFuel
  | fuel + 1, status =>
    if status &&& 0x80#8 ≠ 0#8 then do
      let status ← inb hw ata.commandPort
      pollBsy ata fuel status
    else pure status

/-- The loop for DRQ or ERR; false where it printed the error and the caller returns. -/
def pollDrq (ata : Ata) (error : String) : Nat → BitVec 8 → Io δ Bool
  | 0, _ => outOfFuel
  | fuel + 1, status =>
    if status &&& 0x08#8 = 0#8 then
      if status &&& 0x01#8 ≠ 0#8 then do
        printk error []
        pure false
      else do
        let status ← inb hw ata.commandPort
        pollDrq ata error fuel status
    else pure true

/-- The same loop with `polls_ignored`, a uint8_t, tested for being below 0. -/
def pollDrqIgnoring (ata : Ata) : Nat → BitVec 8 → BitVec 8 → Io δ Bool
  | 0, _, _ => outOfFuel
  | fuel + 1, pollsIgnored, status =>
    if status &&& 0x08#8 = 0#8 then
      if status &&& 0x01#8 ≠ 0#8 ∧ (pollsIgnored.toNat : Int) < 0 then do
        printk "Error during ATA read\n" []
        pure false
      else do
        let status ← inb hw ata.commandPort
        pollDrqIgnoring ata fuel (pollsIgnored - 1) status
    else pure true

def readModel (ata : Ata) : Nat → Io δ (List (BitVec 8))
  | 0 => pure []
  | n + 1 => do
    let data ← inw hw ata.dataPort
    let rest ← readModel ata n
    pure (((data >>> 8) &&& 0xFF#16).setWidth 8 :: (data &&& 0xFF#16).setWidth 8 :: rest)

def trimModel (model : List (BitVec 8)) : List (BitVec 8) :=
  let blanks := (model.reverse.takeWhile (· = 0x20#8)).length
  model.take (model.length - blanks) ++ List.replicate blanks 0#8

def printModel : List (BitVec 8) → Io δ Unit
  | [] => pure ()
  | c :: cs => do
    printk "%c" [c.toNat]
    printModel cs

def identifyModel (ata : Ata) : Io δ Unit := do
  skip (do let _ ← inw hw ata.dataPort) 27
  let model ← readModel hw ata 20
  printk "Model: " []
  printModel (trimModel model)
  printk "\n" []

def identifyCommand (fuel : Nat) (ata : Ata) : Io δ Unit := do
  outb hw ata.commandPort 0xEC#8
  let status ← inb hw ata.commandPort
  if status = 0#8 then printk "Drive does not exist\n" []
  else do
    let lbaMid ← inb hw ata.lbaMidPort
    let lbaHigh ← inb hw ata.lbaHighPort
    if lbaMid ≠ 0#8 ∨ lbaHigh ≠ 0#8 then printk "ATAPI device detected (probably CD-ROM)\n" []
    else do
      let status ← pollBsy hw ata fuel status
      let ready ← pollDrq hw ata "Error during ATA identify\n" fuel status
      if ready then identifyModel hw ata else pure ()

def ataIdentify (fuel : Nat) (ata : Ata) : Io δ Unit := do
  selectDevice hw ata (if ata.master then 0xA0#8 else 0xB0#8)
  outb hw ata.controlPort 0#8
  let status ← inb hw ata.commandPort
  if status = 0xFF#8 then printk "No device on bus: 0x%x\n" [status.toNat]
  else do
    outb hw ata.sectorCountPort 0#8
    outb hw ata.lbaLowPort 0#8
    outb hw ata.lbaMidPort 0#8
    outb hw ata.lbaHighPort 0#8
    identifyCommand hw fuel ata

def deviceFor (ata : Ata) (sector : BitVec 32) : BitVec 8 :=
  (if ata.master then 0xE0#8 else 0xF0#8) ||| ((sector >>> 24) &&& 0x0F#32).setWidth 8

def sendLba (ata : Ata) (sector : BitVec 32) : Io δ Unit := do
  outb hw ata.lbaLowPort (sector.setWidth 8)
  outb hw ata.lbaMidPort ((sector >>> 8).setWidth 8)
  outb hw ata.lbaHighPort ((sector >>> 16).setWidth 8)

def printData (i : BitVec 16) (count : BitVec 32) (rdata : BitVec 16) : Io δ Unit :=
  if i.toNat < count.toNat then do
    printk "%c" [(rdata &&& 0xFF#16).toNat]
    if i.toNat + 1 < count.toNat then printk "%c" [((rdata >>> 8) &&& 0xFF#16).toNat] else pure ()
  else pure ()

/-- The transfer loop of a read with `n` words left, from byte `i` on. -/
def readSector (ata : Ata) (count : BitVec 32) : Nat → BitVec 16 → Io δ Unit
  | 0, _ => pure ()
  | n + 1, i => do
    let rdata ← inw hw ata.dataPort
    printData i count rdata
    readSector ata count n (i + 2)

/-- Words in a sector: `i` goes up by 2 while it is below bytes_per_sector. -/
def Ata.words (ata : Ata) : Nat := (ata.bytesPerSector.toNat + 1) / 2

omit hw in
theorem ataInit_words (portBase : BitVec 16) : (ataInit portBase).words = 256 := by
  simp [Ata.words, ataInit]

def readFinish (fuel : Nat) (ata : Ata) : Io δ Unit := do
  ata420nsDelay hw ata.controlPort
  let status ← inb hw ata.commandPort
  let status ← pollBsy hw ata fuel status
  let _ ← pollDrq hw ata "Error during ATA read\n" fuel status

def readTransfer (fuel : Nat) (count : BitVec 32) (ata : Ata) : Io δ Unit := do
  let status ← inb hw ata.commandPort
  let status ← pollBsy hw ata fuel status
  let ready ← pollDrqIgnoring hw ata fuel 4#8 status
  if ready then do
    readSector hw ata count ata.words 0#16
    readFinish hw fuel ata
  else pure ()

def ataRead28 (fuel : Nat) (sector count : BitVec 32) (ata : Ata) : Io δ Unit :=
  if sector > 0x0FFFFFFF#32 then
    printk "Cannot read sector that's > 28 bits: sector = 0x%x\n" [sector.toNat]
  else if count.toNat > ata.bytesPerSector.toNat then
    printk "Tried reading too much data for a single sector: count %d\n" [count.toNat]
  else do
    selectDevice hw ata (deviceFor ata sector)
    outb hw ata.sectorCountPort 1#8
    sendLba hw ata sector
    outb hw ata.commandPort 0x20#8
    readTransfer hw fuel count ata

/-- The word a write sends at byte `i`: little endian, and 0 past `count`. -/
def wordAt (data : Nat → BitVec 8) (count : BitVec 32) (i : BitVec 16) : BitVec 16 :=
  if i.toNat < count.toNat then
    (data i.toNat).setWidth 16 |||
      if i.toNat + 1 < count.toNat then (data (i.toNat + 1)).setWidth 16 <<< 8 else 0#16
  else 0#16

def writeSector (ata : Ata) (data : Nat → BitVec 8) (count : BitVec 32) : Nat → BitVec 16 → Io δ Unit
  | 0, _ => pure ()
  | n + 1, i => do
    outw hw ata.dataPort (wordAt data count i)
    writeSector ata data count n (i + 2)

def writeFlush (fuel : Nat) (ata : Ata) : Io δ Unit := do
  outb hw ata.commandPort 0xE7#8
  let status ← inb hw ata.commandPort
  let status ← pollBsy hw ata fuel status
  let _ ← pollDrqIgnoring hw ata fuel 4#8 status

def writeFinish (fuel : Nat) (ata : Ata) : Io δ Unit := do
  ata420nsDelay hw ata.controlPort
  let status ← inb hw ata.commandPort
  let status ← pollBsy hw ata fuel status
  let ready ← pollDrqIgnoring hw ata fuel 4#8 status
  if ready then writeFlush hw fuel ata else pure ()

def writeTransfer (fuel : Nat) (data : Nat → BitVec 8) (count : BitVec 32) (ata : Ata) :
    Io δ Unit := do
  ata420nsDelay hw ata.controlPort
  let status ← inb hw ata.commandPort
  let status ← pollBsy hw ata fuel status
  let ready ← pollDrqIgnoring hw ata fuel 4#8 status
  if ready then do
    writeSector hw ata data count ata.words 0#16
    writeFinish hw fuel ata
  else pure ()

def ataWrite28 (fuel : Nat) (sector : BitVec 32) (data : Nat → BitVec 8) (count : BitVec 32)
    (ata : Ata) : Io δ Unit :=
  if sector > 0x0FFFFFFF#32 then
    printk "Cannot address sector > 28 bits: sector 0x%x\n" [sector.toNat]
  else if count.toNat > ata.bytesPerSector.toNat then
    printk "Tried writing too much data for a single sector: count %d\n" [count.toNat]
  else do
    selectDevice hw ata (deviceFor ata sector)
    outb hw ata.errorPort 0#8
    outb hw ata.sectorCountPort 1#8
    sendLba hw ata sector
    outb hw ata.commandPort 0x30#8
    writeTransfer hw fuel data count ata

def AtaCall.run (fuel : Nat) : AtaCall → Io δ Unit
  | .identify portBase => ataIdentify hw fuel (ataInit portBase)
  | .read28 sector count portBase => ataRead28 hw fuel sector count (ataInit portBase)
  | .write28 sector data count portBase => ataWrite28 hw fuel sector data count (ataInit portBase)

def callAta (fuel : Nat) (c : AtaCall) (s : Machine δ) : Option Unit × Machine δ :=
  c.run hw fuel { s with call := some c }

def AtaCall.Valid : AtaCall → Prop
  | .identify _ => True
  | .read28 sector count _ => sector.toNat ≤ 0x0FFFFFFF ∧ count.toNat ≤ 512
  | .write28 sector _ count _ => sector.toNat ≤ 0x0FFFFFFF ∧ count.toNat ≤ 512

omit hw in
theorem not_refused (portBase : BitVec 16) {sector count : BitVec 32} (h : sector.toNat ≤ 0x0FFFFFFF ∧ count.toNat ≤ 512) :
    ¬sector > 0x0FFFFFFF#32 ∧ ¬count.toNat > (ataInit portBase).bytesPerSector.toNat := by
  refine ⟨?_, Nat.not_lt.mpr h.2⟩
  rw [gt_iff_lt, BitVec.lt_def]
  exact Nat.not_lt.mpr h.1

end SplongleOS
