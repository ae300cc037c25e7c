import SplongleOS.Base.ByteMemory
import SplongleOS.Base.RegisterBank
set_option autoImplicit false

/-! The VGA adapter and the driver of vga.c. -/

namespace SplongleOS
open ByteMemory RegisterBank

/-- `addressed` is whether the next write to 0x3C0 is data for the attribute controller, `status`
the input status that a read at the reset port returns. -/
structure Vga where
  misc : BitVec 8
  sequencer : Bank
  crt : Bank
  graphics : Bank
  attributes : Bank
  addressed : Bool
  status : BitVec 8

namespace Vga

def color (s : Vga) : Bool := s.misc.getLsbD 0

def crtPort (s : Vga) : BitVec 16 := if s.color then 0x3D4#16 else 0x3B4#16

def resetPort (s : Vga) : BitVec 16 := if s.color then 0x3DA#16 else 0x3BA#16

/-- Bit 7 of register 0x11 protects registers 0 to 7, but not bit 4 of register 7. -/
def writeCrt (s : Vga) (v : BitVec 8) : Vga :=
  if (s.crt.register 0x11#8).getLsbD 7 ∧ s.crt.index.toNat < 8 then
    if s.crt.index = 0x07#8 then
      { s with crt := s.crt.write (s.crt.read &&& ~~~0x10#8 ||| v &&& 0x10#8) }
    else s
  else { s with crt := s.crt.write v }

/-- The index is five bits; bit 5 keeps the palette in use, and its registers 0 to 15 closed. -/
def writeAttribute (s : Vga) (v : BitVec 8) : Vga :=
  if s.addressed then
    if s.attributes.index.getLsbD 5 ∧ (s.attributes.index &&& 0x1F#8).toNat < 16 then
      { s with addressed := false }
    else
      { s with
        attributes := ⟨s.attributes.index,
          Function.update s.attributes.register (s.attributes.index &&& 0x1F#8) v⟩
        addressed := false }
  else { s with attributes := s.attributes.select v, addressed := true }

def outb (s : Vga) (port : BitVec 16) (v : BitVec 8) : Vga :=
  if port = 0x3C0#16 then s.writeAttribute v
  else if port = 0x3C2#16 then { s with misc := v }
  else if port = 0x3C4#16 then { s with sequencer := s.sequencer.select v }
  else if port = 0x3C5#16 then { s with sequencer := s.sequencer.write v }
  else if port = 0x3CE#16 then { s with graphics := s.graphics.select v }
  else if port = 0x3CF#16 then { s with graphics := s.graphics.write v }
  else if port = s.crtPort then { s with crt := s.crt.select v }
  else if port = s.crtPort + 1#16 then s.writeCrt v
  else s

def inb (s : Vga) (port : BitVec 16) : BitVec 8 × Vga :=
  if port = 0x3CF#16 then (s.graphics.read, s)
  else if port = s.crtPort + 1#16 then (s.crt.read, s)
  else if port = s.resetPort then (s.status, { s with addressed := false })
  else (0xFF#8, s)

end Vga

structure VideoGraphicsArray where
  miscPort : BitVec 16
  crtIndexPort : BitVec 16
  crtDataPort : BitVec 16
  sequencerIndexPort : BitVec 16
  sequencerDataPort : BitVec 16
  graphicsIndexPort : BitVec 16
  graphicsDataPort : BitVec 16
  attributeIndexPort : BitVec 16
  attributeReadPort : BitVec 16
  attributeWritePort : BitVec 16
  attributeResetPort : BitVec 16

/-- `registers++` is an offset: 1 for the sequencer, 6 for the CRT controller, 31 for graphics and
40 for the attributes. -/
def vgaWriteRegisters (g : VideoGraphicsArray) (s : Vga) (registers : Nat → BitVec 8) : Vga :=
  let s := s.outb g.miscPort (registers 0)
  let s := (List.range 5).foldl (fun s i =>
    (s.outb g.sequencerIndexPort (BitVec.ofNat 8 i)).outb g.sequencerDataPort (registers (1 + i))) s
  let s := s.outb g.crtIndexPort 0x03#8
  let (v, s) := s.inb g.crtDataPort
  let s := s.outb g.crtDataPort (v ||| 0x80#8)
  let s := s.outb g.crtIndexPort 0x11#8
  let (v, s) := s.inb g.crtDataPort
  let s := s.outb g.crtDataPort (v &&& ~~~0x80#8)
  let registers := Function.update registers (6 + 0x03) (registers (6 + 0x03) ||| 0x80#8)
  let registers := Function.update registers (6 + 0x11) (registers (6 + 0x11) &&& ~~~0x80#8)
  let s := (List.range 25).foldl (fun s i =>
    (s.outb g.crtIndexPort (BitVec.ofNat 8 i)).outb g.crtDataPort (registers (6 + i))) s
  let s := (List.range 9).foldl (fun s i =>
    (s.outb g.graphicsIndexPort (BitVec.ofNat 8 i)).outb g.graphicsDataPort (registers (31 + i))) s
  let s := (List.range 21).foldl (fun s i =>
    let s := (s.inb g.attributeResetPort).2
    (s.outb g.attributeIndexPort (BitVec.ofNat 8 i)).outb g.attributeWritePort
      (registers (40 + i))) s
  let s := (s.inb g.attributeResetPort).2
  s.outb g.attributeIndexPort 0x20#8

def supportsMode (width height colordepth : BitVec 32) : Bool :=
  width == 320#32 && height == 200#32 && colordepth == 8#32

def mode320x200x256 : List (BitVec 8) :=
  [0x63#8,
   0x03#8, 0x01#8, 0x0F#8, 0x00#8, 0x0E#8,
   0x5F#8, 0x4F#8, 0x50#8, 0x82#8, 0x54#8, 0x80#8, 0xBF#8, 0x1F#8,
   0x00#8, 0x41#8, 0x00#8, 0x00#8, 0x00#8, 0x00#8, 0x00#8, 0x00#8,
   0x9C#8, 0x0E#8, 0x8F#8, 0x28#8, 0x40#8, 0x96#8, 0xB9#8, 0xA3#8,
   0xFF#8,
   0x00#8, 0x00#8, 0x00#8, 0x00#8, 0x00#8, 0x40#8, 0x05#8, 0x0F#8,
   0xFF#8,
   0x00#8, 0x01#8, 0x02#8, 0x03#8, 0x04#8, 0x05#8, 0x06#8, 0x07#8,
   0x08#8, 0x09#8, 0x0A#8, 0x0B#8, 0x0C#8, 0x0D#8, 0x0E#8, 0x0F#8,
   0x41#8, 0x00#8, 0x0F#8, 0x00#8, 0x00#8]

def setMode (g : VideoGraphicsArray) (s : Vga) (width height colordepth : BitVec 32) : Bool × Vga :=
  if supportsMode width height colordepth = false then (false, s)
  else (true, vgaWriteRegisters g s fun i => mode320x200x256.getD i 0#8)

def vgaPorts : VideoGraphicsArray :=
  ⟨0x3C2#16, 0x3D4#16, 0x3D5#16, 0x3C4#16, 0x3C5#16, 0x3CE#16, 0x3CF#16, 0x3C0#16, 0x3C1#16,
    0x3C0#16, 0x3DA#16⟩

def vgaInit (s : Vga) : Bool × VideoGraphicsArray × Vga :=
  let (ok, s) := setMode vgaPorts s 320#32 200#32 8#32
  (if ok then true else false, vgaPorts, s)

def getFrameBufferSegment (g : VideoGraphicsArray) (s : Vga) : BitVec 32 × Vga :=
  let s := s.outb g.graphicsIndexPort 0x06#8
  let (v, s) := s.inb g.graphicsDataPort
  let segmentNum := v >>> 2 &&& 0x03#8
  (if segmentNum = 0#8 then 0x00000#32
    else if segmentNum = 1#8 then 0xA0000#32
    else if segmentNum = 2#8 then 0xB0000#32
    else 0x0B800#32, s)

/-- No other color has an index: the function ends without a return, with `left` in the register. -/
def getColorIndex (left red green blue : BitVec 8) : BitVec 8 :=
  if red = 0#8 ∧ green = 0#8 ∧ blue = 0xA8#8 then 0x01#8 else left

def putPixelWithIndex (g : VideoGraphicsArray) (x y : BitVec 32) (colorIndex : BitVec 8)
    (s : Vga × Mem) : Vga × Mem :=
  let (segment, vga) := getFrameBufferSegment g s.1
  (vga, store8 s.2 (segment + 320#32 * y + x).toNat colorIndex)

def putPixel (left : BitVec 8) (g : VideoGraphicsArray) (x y : BitVec 32) (red green blue : BitVec 8)
    (s : Vga × Mem) : Vga × Mem :=
  putPixelWithIndex g x y (getColorIndex left red green blue) s

def drawRect (left : BitVec 8) (g : VideoGraphicsArray) (s : Vga × Mem) : Vga × Mem :=
  (List.range 200).foldl (fun s y => (List.range 320).foldl (fun s x =>
    putPixel left g (BitVec.ofNat 32 x) (BitVec.ofNat 32 y) 0x00#8 0x00#8 0xA8#8 s) s) s

end SplongleOS
