import SplongleOS.Base.WordStack
import SplongleOS.InterruptRouting
set_option autoImplicit false

/-! The table of gdt.c, as it is built and as the processor reads it, and gdt.asm on a processor
with segments. -/

namespace SplongleOS
open ByteMemory

structure GDTEntry where
  segmentLimitLow : BitVec 16
  baseLow : BitVec 16
  baseMiddle : BitVec 8
  access : BitVec 8
  flagsLimitHi : BitVec 8
  baseHigh : BitVec 8

def gdtLimitLow (limit : BitVec 32) : BitVec 16 := (limit &&& 0xFFFF#32).setWidth 16
def gdtBaseLow (base : BitVec 32) : BitVec 16 := (base &&& 0xFFFF#32).setWidth 16
def gdtBaseMiddle (base : BitVec 32) : BitVec 8 := (base >>> 16 &&& 0xFF#32).setWidth 8
def gdtFlagsLimitHi (limit : BitVec 32) (flags : BitVec 8) : BitVec 8 :=
  (limit >>> 16 &&& 0x0F#32).setWidth 8 ||| (flags &&& 0xF0#8)
def gdtBaseHi (base : BitVec 32) : BitVec 8 := (base >>> 24 &&& 0xFF#32).setWidth 8

/-- The macro GDT_ENTRY. -/
def gdtEntry (base limit : BitVec 32) (access flags : BitVec 8) : GDTEntry :=
  ⟨gdtLimitLow limit, gdtBaseLow base, gdtBaseMiddle base, access, gdtFlagsLimitHi limit flags,
    gdtBaseHi base⟩

def halfBytes (w : BitVec 16) : List (BitVec 8) := [w.extractLsb' 0 8, w.extractLsb' 8 8]

def wordBytes (w : BitVec 32) : List (BitVec 8) :=
  [w.extractLsb' 0 8, w.extractLsb' 8 8, w.extractLsb' 16 8, w.extractLsb' 24 8]

def GDTEntry.bytes (e : GDTEntry) : List (BitVec 8) :=
  halfBytes e.segmentLimitLow ++ halfBytes e.baseLow ++
    [e.baseMiddle, e.access, e.flagsLimitHi, e.baseHigh]

def GDT_ACCESS_CODE_READABLE : BitVec 8 := 0x02#8
def GDT_ACCESS_DATA_WRITABLE : BitVec 8 := 0x02#8
def GDT_ACCESS_DATA_SEGMENT : BitVec 8 := 0x10#8
def GDT_ACCESS_CODE_SEGMENT : BitVec 8 := 0x18#8
def GDT_ACCES_RING0 : BitVec 8 := 0x00#8
def GDT_ACCESS_PRESENT : BitVec 8 := 0x80#8
def GDT_FLAG_32BIT : BitVec 8 := 0x40#8
def GDT_FLAG_GRANULARITY_4KB : BitVec 8 := 0x80#8

def gGDT : List GDTEntry :=
  [gdtEntry 0#32 0#32 0#8 0#8,
   gdtEntry 0#32 0xFFFFF#32
     (GDT_ACCESS_PRESENT ||| GDT_ACCES_RING0 ||| GDT_ACCESS_CODE_SEGMENT |||
       GDT_ACCESS_CODE_READABLE)
     (GDT_FLAG_32BIT ||| GDT_FLAG_GRANULARITY_4KB),
   gdtEntry 0#32 0xFFFFF#32
     (GDT_ACCESS_PRESENT ||| GDT_ACCES_RING0 ||| GDT_ACCESS_DATA_SEGMENT |||
       GDT_ACCESS_DATA_WRITABLE)
     (GDT_FLAG_32BIT ||| GDT_FLAG_GRANULARITY_4KB)]

def gGDTDescriptor (table : BitVec 32) : List (BitVec 8) :=
  halfBytes (BitVec.ofNat 16 (8 * gGDT.length - 1)) ++ wordBytes table

def i686GdtDataSegment : BitVec 16 := 0x10#16

/-- A descriptor, or the hidden part of a segment register. -/
structure Descriptor where
  base : BitVec 32
  limit : BitVec 32
  access : BitVec 8
  flags : BitVec 4
  deriving DecidableEq, Repr

/-- Bit 7 of the flags makes the limit count pages. -/
def descriptor (m : Mem) (a : Nat) : Descriptor where
  base := m (a + 7) ++ m (a + 4) ++ m (a + 3) ++ m (a + 2)
  limit :=
    let limit : BitVec 20 := (m (a + 6)).extractLsb' 0 4 ++ m (a + 1) ++ m a
    if (m (a + 6)).getLsbD 7 then limit ++ 0xFFF#12 else limit.setWidth 32
  access := m (a + 5)
  flags := (m (a + 6)).extractLsb' 4 4

def BytesAt (m : Mem) : Nat → List (BitVec 8) → Prop
  | _, [] => True
  | a, v :: l => m a = v ∧ BytesAt m (a + 1) l

theorem extract_byte (w : BitVec 32) (k : Nat) :
    (w >>> k &&& 0xFF#32).setWidth 8 = w.extractLsb' k 8 := by
  have hmask : (w >>> k &&& 0xFF#32).setWidth 8 = (w >>> k).setWidth 8 := by
    rw [BitVec.setWidth_and]
    exact BitVec.and_allOnes
  rw [hmask]
  rfl

theorem extract_half (w : BitVec 32) {k : Nat} (hk : k + 8 ≤ 16) :
    ((w &&& 0xFFFF#32).setWidth 16).extractLsb' k 8 = w.extractLsb' k 8 := by
  have hmask : (w &&& 0xFFFF#32).setWidth 16 = w.setWidth 16 := by
    rw [BitVec.setWidth_and]
    exact BitVec.and_allOnes
  rw [hmask]
  refine BitVec.eq_of_getLsbD_eq fun i hi => ?_
  have hlt : k + i < 16 := by omega
  simp [hi, hlt]

theorem flagsLimitHi_low (limit : BitVec 32) (flags : BitVec 8) :
    (gdtFlagsLimitHi limit flags).extractLsb' 0 4 = limit.extractLsb' 16 4 := by
  refine BitVec.eq_of_getLsbD_eq fun i hi => ?_
  have hbits : i = 0 ∨ i = 1 ∨ i = 2 ∨ i = 3 := by omega
  rcases hbits with rfl | rfl | rfl | rfl <;> simp [gdtFlagsLimitHi]

theorem flagsLimitHi_high (limit : BitVec 32) (flags : BitVec 8) :
    (gdtFlagsLimitHi limit flags).extractLsb' 4 4 = flags.extractLsb' 4 4 := by
  refine BitVec.eq_of_getLsbD_eq fun i hi => ?_
  have hbits : i = 0 ∨ i = 1 ∨ i = 2 ∨ i = 3 := by omega
  rcases hbits with rfl | rfl | rfl | rfl <;> simp [gdtFlagsLimitHi]

theorem append_limit (limit : BitVec 32) :
    limit.extractLsb' 16 4 ++ limit.extractLsb' 8 8 ++ limit.extractLsb' 0 8 = limit.setWidth 20 := by
  refine BitVec.eq_of_getLsbD_eq fun i hi => ?_
  simp only [BitVec.getLsbD_append, BitVec.getLsbD_extractLsb', BitVec.getLsbD_setWidth]
  by_cases h0 : i < 8
  · simp [h0, hi]
  · by_cases h1 : i - 8 < 8
    · have hsum : 8 + (i - 8) = i := by omega
      simp [h0, h1, hsum, hi]
    · have hsum : 16 + (i - 8 - 8) = i := by omega
      have h2 : i - 8 - 8 < 4 := by omega
      simp [h0, h1, h2, hsum, hi]

/-- What GDT_ENTRY was given comes back: the base, 20 bits of the limit, the access byte and the
high half of the flags. -/
theorem descriptor_gdtEntry {m : Mem} {a : Nat} (base limit : BitVec 32) (access flags : BitVec 8)
    (h : BytesAt m a (gdtEntry base limit access flags).bytes) :
    descriptor m a =
      { base
        limit :=
          if flags.getLsbD 7 then limit.setWidth 20 ++ 0xFFF#12 else (limit.setWidth 20).setWidth 32
        access
        flags := flags.extractLsb' 4 4 } := by
  obtain ⟨h0, h1, h2, h3, h4, h5, h6, h7, _⟩ := h
  have hbase : m (a + 7) ++ m (a + 4) ++ m (a + 3) ++ m (a + 2) = base := by
    rw [h7, h4, h3, h2, gdtEntry, gdtBaseHi, gdtBaseMiddle, gdtBaseLow, extract_byte, extract_byte,
      extract_half _ (by decide), extract_half _ (by decide), append_extractLsb]
  have hlimit : (m (a + 6)).extractLsb' 0 4 ++ m (a + 1) ++ m a = limit.setWidth 20 := by
    rw [h6, h1, h0, gdtEntry, flagsLimitHi_low, gdtLimitLow, extract_half _ (by decide),
      extract_half _ (by decide), append_limit]
  have hflags : (m (a + 6)).extractLsb' 4 4 = flags.extractLsb' 4 4 := by
    rw [h6, gdtEntry, flagsLimitHi_high]
  have hpages : (m (a + 6)).getLsbD 7 = flags.getLsbD 7 := by
    have hbit := congrArg (BitVec.getLsbD · 3) hflags
    simpa using hbit
  simp only [descriptor, hbase, hlimit, hflags, hpages, h5, gdtEntry]

inductive SegName where
  | cs | ds | es | fs | gs | ss
  deriving DecidableEq, Repr

structure SegReg where
  selector : BitVec 16
  cache : Descriptor

structure SegCpu where
  eax : BitVec 32
  ebp : BitVec 32
  esp : BitVec 32
  eip : BitVec 32
  gdtrLimit : BitVec 16
  gdtrBase : BitVec 32
  seg : SegName → SegReg
  mem : Mem

namespace SegCpu

/-- Where `n` bytes at `off` are; none for a fault. No segment here expands down. -/
def linear (s : SegCpu) (r : SegName) (off : BitVec 32) (n : Nat) : Option Nat :=
  let d := (s.seg r).cache
  if d.access.getLsbD 7 ∧ off.toNat + n ≤ d.limit.toNat + 1 then some (d.base + off).toNat else none

def readWord (s : SegCpu) (r : SegName) (off : BitVec 32) : Option (BitVec 32) :=
  (s.linear r off 4).map (load32 s.mem)

def readHalf (s : SegCpu) (r : SegName) (off : BitVec 32) : Option (BitVec 16) :=
  (s.linear r off 2).map fun a => s.mem (a + 1) ++ s.mem a

def push (s : SegCpu) (v : BitVec 32) : Option SegCpu :=
  (s.linear .ss (s.esp - 4#32) 4).map fun a =>
    { s with esp := s.esp - 4#32, mem := store32 s.mem a v }

def pop (s : SegCpu) : Option (BitVec 32 × SegCpu) :=
  (s.readWord .ss s.esp).map fun w => (w, { s with esp := s.esp + 4#32 })

def lgdt (s : SegCpu) (off : BitVec 32) : Option SegCpu :=
  (s.linear .ds off 6).map fun a =>
    { s with gdtrLimit := s.mem (a + 1) ++ s.mem a, gdtrBase := load32 s.mem (a + 2) }

def select (s : SegCpu) (selector : BitVec 16) : Option (Nat × Descriptor) :=
  let off := selector &&& 0xFFF8#16
  if selector.getLsbD 2 = false ∧ off.toNat + 7 ≤ s.gdtrLimit.toNat then
    let a := (s.gdtrBase + off.setWidth 32).toNat
    some (a, descriptor s.mem a)
  else none

def cpl (s : SegCpu) : BitVec 2 := (s.seg .cs).selector.extractLsb' 0 2

/-- The processor marks the entry as accessed, also in memory. -/
def load (s : SegCpu) (r : SegName) (selector : BitVec 16) (a : Nat) (d : Descriptor) : SegCpu :=
  let access := d.access ||| 1#8
  { s with
    seg := Function.update s.seg r ⟨selector, { d with access }⟩
    mem := store8 s.mem (a + 5) access }

end SegCpu

def Descriptor.isSegment (d : Descriptor) : Bool := d.access.getLsbD 7 && d.access.getLsbD 4

def Descriptor.isCode (d : Descriptor) : Bool := d.access.getLsbD 3

def Descriptor.isConforming (d : Descriptor) : Bool := d.access.getLsbD 2

def Descriptor.isOpen (d : Descriptor) : Bool := d.access.getLsbD 1

def Descriptor.dpl (d : Descriptor) : BitVec 2 := d.access.extractLsb' 5 2

/-- What the processor demands of the stack segment and of the other data segments. -/
def Descriptor.forData (d : Descriptor) (r : SegName) (cpl rpl : BitVec 2) : Bool :=
  if r = .ss then d.isSegment && !d.isCode && d.isOpen && d.dpl == cpl && rpl == cpl
  else
    d.isSegment && (!d.isCode || d.isOpen) &&
      (d.isCode && d.isConforming || decide (cpl ≤ d.dpl) && decide (rpl ≤ d.dpl))

def Descriptor.forCode (d : Descriptor) (cpl rpl : BitVec 2) : Bool :=
  d.isSegment && d.isCode && rpl == cpl &&
    (if d.isConforming then decide (d.dpl ≤ rpl) else d.dpl == rpl)

namespace SegCpu

def movSeg (s : SegCpu) (r : SegName) (selector : BitVec 16) : Option SegCpu :=
  if selector &&& 0xFFFC#16 = 0#16 then
    if r = .ss then none
    else some { s with seg := Function.update s.seg r ⟨selector, ⟨0#32, 0#32, 0#8, 0#4⟩⟩ }
  else
    (s.select selector).bind fun (a, d) =>
      if d.forData r s.cpl (selector.extractLsb' 0 2) then some (s.load r selector a d) else none

/-- A return to another ring is left out, as a fault. -/
def retf (s : SegCpu) : Option SegCpu := do
  let (eip, s) ← s.pop
  let (cs, s) ← s.pop
  let selector : BitVec 16 := cs.setWidth 16
  if selector &&& 0xFFFC#16 = 0#16 then none
  else
    let (a, d) ← s.select selector
    if d.forCode s.cpl (selector.extractLsb' 0 2) ∧ eip.toNat ≤ d.limit.toNat then
      some { s.load .cs selector a d with eip }
    else none

end SegCpu

/-- `i686_GDT_load` up to its far return; `reload` is the address of `.reload_cs`. -/
def gdtLoadEntry (reload : BitVec 32) (s : SegCpu) : Option SegCpu := do
  let s ← s.push s.ebp
  let s := { s with ebp := s.esp }
  let eax ← s.readWord .ss (s.ebp + 8#32)
  let s := { s with eax }
  let s ← s.lgdt s.eax
  let eax ← s.readWord .ss (s.ebp + 12#32)
  let s := { s with eax }
  let s ← s.push s.eax
  s.push reload

/-- From `.reload_cs` on. -/
def reloadCs (s : SegCpu) : Option SegCpu := do
  let ax ← s.readHalf .ss (s.ebp + 16#32)
  let s := { s with eax := s.eax.extractLsb' 16 16 ++ ax }
  let s ← [.ds, .es, .fs, .gs, .ss].foldlM (fun s r => s.movSeg r ax) s
  let s := { s with esp := s.ebp }
  let (ebp, s) ← s.pop
  let s := { s with ebp }
  let (eip, s) ← s.pop
  pure { s with eip }

def i686GdtLoad (reload : BitVec 32) (s : SegCpu) : Option SegCpu := do
  let s ← gdtLoadEntry reload s
  let s ← s.retf
  reloadCs s

/-- The call, with `table` and `desc` the addresses of `g_GDT` and `g_GDTDescriptor`, and `ret` where
it returns to. The caller takes the arguments off the stack. -/
def i686GdtInitialize (desc ret reload : BitVec 32) (s : SegCpu) : Option SegCpu := do
  let s ← s.push (i686GdtDataSegment.setWidth 32)
  let s ← s.push (i686GdtCodeSegment.setWidth 32)
  let s ← s.push desc
  let s ← s.push ret
  let s ← i686GdtLoad reload s
  pure { s with esp := s.esp + 12#32 }

end SplongleOS
