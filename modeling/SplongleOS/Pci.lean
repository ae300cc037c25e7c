import Mathlib.Data.BitVec
import Mathlib.Logic.Function.Basic
set_option autoImplicit false

/-! PCI configuration space, pci.c, behind the ports PCI_CONFIG_ADDRESS and PCI_CONFIG_DATA. -/

namespace SplongleOS

/-- The address latch, and the registers that it selects. -/
structure Pci where
  address : BitVec 32
  config : BitVec 32 → BitVec 32

namespace Pci

def outl (s : Pci) (port : BitVec 16) (value : BitVec 32) : Pci :=
  if port = 0xCF8#16 then { s with address := value }
  else if port = 0xCFC#16 then { s with config := Function.update s.config s.address value }
  else s

def inl (s : Pci) : BitVec 32 := s.config s.address

end Pci

def pciId (bus device function : BitVec 16) (registeroffset : BitVec 32) : BitVec 32 :=
  0x1#32 <<< 31
    ||| (bus.setWidth 32 &&& 0xFF#32) <<< 16
    ||| (device.setWidth 32 &&& 0x1F#32) <<< 11
    ||| (function.setWidth 32 &&& 0x07#32) <<< 8
    ||| registeroffset &&& 0xFC#32

def pciRead (s : Pci) (bus device function : BitVec 16) (registeroffset : BitVec 32) :
    BitVec 32 × Pci :=
  let s := s.outl 0xCF8#16 (pciId bus device function registeroffset)
  let result := s.inl
  (result >>> (8#32 * (registeroffset % 4#32)), s)

def pciWrite (s : Pci) (bus device function : BitVec 16) (registeroffset value : BitVec 32) : Pci :=
  let s := s.outl 0xCF8#16 (pciId bus device function registeroffset)
  s.outl 0xCFC#16 value

inductive BaseAddressRegisterType where
  | memoryMapping
  | inputOutput
  deriving DecidableEq, Repr

structure BaseAddressRegister where
  prefetchable : Bool
  address : BitVec 32
  size : BitVec 32
  type : BaseAddressRegisterType
  deriving DecidableEq, Repr

def maxBars (headertype : BitVec 32) : Int :=
  let bars : BitVec 8 := (6#32 - 4#32 * headertype).setWidth 8
  if bars.toInt < 0 then 0 else bars.toInt

/-- `result` is the local variable as it is found on the stack. The switch over the size of a
memory BAR is empty. -/
def getBAR (result : BaseAddressRegister) (s : Pci) (bus device function bar : BitVec 16) :
    BaseAddressRegister × Pci :=
  let (header, s) := pciRead s bus device function 0x0E#32
  let headertype := header &&& 0x7F#32
  if (bar.toNat : Int) ≥ maxBars headertype then (result, s)
  else
    let (barValue, s) := pciRead s bus device function (0x10#32 + 4#32 * bar.setWidth 32)
    let type := if barValue &&& 0x1#32 ≠ 0#32 then .inputOutput else .memoryMapping
    let result := { result with type := type }
    if type = .memoryMapping then
      ({ result with prefetchable := (barValue >>> 3) &&& 0x1#32 = 1#32 }, s)
    else ({ result with address := barValue &&& ~~~0x3#32, prefetchable := false }, s)

def Pci.register (s : Pci) (bus device function : BitVec 16) (registeroffset : BitVec 32) : BitVec 32 :=
  s.config (pciId bus device function registeroffset)

variable {s : Pci} {bus device function : BitVec 16} {registeroffset value : BitVec 32}

theorem pciRead_fst : (pciRead s bus device function registeroffset).1 =
    s.register bus device function registeroffset >>> (8#32 * (registeroffset % 4#32)) := rfl

theorem pciWrite_config : (pciWrite s bus device function registeroffset value).config =
    Function.update s.config (pciId bus device function registeroffset) value := rfl

end SplongleOS
