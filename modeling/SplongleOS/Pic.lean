import SplongleOS.Base.Arbiter
import Mathlib.Data.BitVec
import Mathlib.Data.List.FinRange
import Mathlib.Data.List.Find
set_option autoImplicit false

/-! The two 8259A interrupt controllers and the driver of i8259.c. -/

namespace SplongleOS

/-- The initialization command word that is due; `cascaded` and `icw4` are bits of the first. -/
inductive Expects where
  | nothing
  | icw2 (cascaded icw4 : Bool)
  | icw3 (icw4 : Bool)
  | icw4
  deriving DecidableEq, Repr

structure Chip where
  imr : BitVec 8
  irr : BitVec 8
  isr : BitVec 8
  expects : Expects
  offset : BitVec 8
  cascade : BitVec 8
  mode8086 : Bool
  autoEoi : Bool
  readIsr : Bool
  deriving DecidableEq, Repr

def Chip.inService (c : Chip) : Option (Fin 8) := (List.finRange 8).find? fun k => c.isr.getLsbD k.val

/-- A write to the even port: ICW1 when bit 4 is set, OCW3 when bit 3 is, else OCW2. Of OCW2 only
the end of interrupt the driver sends is here, not the rotations. -/
def Chip.outCommand (c : Chip) (v : BitVec 8) : Chip :=
  if v.getLsbD 4 then
    { c with
      imr := 0#8, irr := 0#8, isr := 0#8, readIsr := false
      autoEoi := c.autoEoi && v.getLsbD 0, mode8086 := c.mode8086 && v.getLsbD 0
      expects := .icw2 (!v.getLsbD 1) (v.getLsbD 0) }
  else if v.getLsbD 3 then
    if v.getLsbD 1 then { c with readIsr := v.getLsbD 0 } else c
  else if v = 0x20#8 then
    match c.inService with
    | some k => { c with isr := c.isr &&& ~~~(1#8 <<< k.val) }
    | none => c
  else c

def Chip.outData (c : Chip) (v : BitVec 8) : Chip :=
  match c.expects with
  | .nothing => { c with imr := v }
  | .icw2 cascaded icw4 =>
    { c with
      offset := v &&& 0xF8#8
      expects := if cascaded then .icw3 icw4 else if icw4 then .icw4 else .nothing }
  | .icw3 icw4 => { c with cascade := v, expects := if icw4 then .icw4 else .nothing }
  | .icw4 =>
    { c with mode8086 := v.getLsbD 0, autoEoi := v.getLsbD 1, expects := .nothing }

def Chip.inCommand (c : Chip) : BitVec 8 := if c.readIsr then c.isr else c.irr

def Chip.inData (c : Chip) : BitVec 8 := c.imr

/-- The input the controller wants to interrupt for, with `extra` inputs held up: the first that
is requested and not masked, unless one as high is in service. -/
def Chip.request (c : Chip) (extra : BitVec 8) : Option (Fin 8) :=
  ((List.finRange 8).find? fun k => (c.irr ||| extra).getLsbD k.val && !c.imr.getLsbD k.val).filter
    fun k => c.inService.all fun j => k < j

def Chip.acknowledge (c : Chip) (k : Fin 8) : Chip :=
  { c with
    irr := c.irr &&& ~~~(1#8 <<< k.val)
    isr := if c.autoEoi then c.isr else c.isr ||| 1#8 <<< k.val }

structure Pics where
  master : Chip
  slave : Chip
  deriving DecidableEq, Repr

def Pics.wire (p : Pics) : BitVec 8 := if (p.slave.request 0#8).isSome then 0x04#8 else 0#8

def Pics.intr (p : Pics) : Option (Fin 8) := p.master.request p.wire

/-- The vector the processor is given. A slave with nothing to say answers for input 7. -/
def Pics.acknowledge (p : Pics) (k : Fin 8) : BitVec 8 × Pics :=
  if p.master.cascade.getLsbD k.val && p.slave.cascade &&& 0x07#8 == BitVec.ofNat 8 k.val then
    match p.slave.request 0#8 with
    | some j => (p.slave.offset ||| BitVec.ofNat 8 j.val,
        ⟨p.master.acknowledge k, p.slave.acknowledge j⟩)
    | none => (p.slave.offset ||| 0x07#8, ⟨p.master.acknowledge k, p.slave⟩)
  else (p.master.offset ||| BitVec.ofNat 8 k.val, ⟨p.master.acknowledge k, p.slave⟩)

/-- An edge on one of the sixteen lines. -/
def Pics.raise (p : Pics) (line : Fin 16) : Pics :=
  if line.val < 8 then
    { p with master := { p.master with irr := p.master.irr ||| 1#8 <<< line.val } }
  else { p with slave := { p.slave with irr := p.slave.irr ||| 1#8 <<< (line.val - 8) } }

def PIC1_COMMAND_PORT : BitVec 16 := 0x20#16
def PIC1_DATA_PORT : BitVec 16 := 0x21#16
def PIC2_COMMAND_PORT : BitVec 16 := 0xA0#16
def PIC2_DATA_PORT : BitVec 16 := 0xA1#16

def Pics.outb (p : Pics) (port : BitVec 16) (v : BitVec 8) : Pics :=
  if port = PIC1_COMMAND_PORT then { p with master := p.master.outCommand v }
  else if port = PIC1_DATA_PORT then { p with master := p.master.outData v }
  else if port = PIC2_COMMAND_PORT then { p with slave := p.slave.outCommand v }
  else if port = PIC2_DATA_PORT then { p with slave := p.slave.outData v }
  else p

def Pics.inb (p : Pics) (port : BitVec 16) : BitVec 8 :=
  if port = PIC1_COMMAND_PORT then p.master.inCommand
  else if port = PIC1_DATA_PORT then p.master.inData
  else if port = PIC2_COMMAND_PORT then p.slave.inCommand
  else if port = PIC2_DATA_PORT then p.slave.inData
  else 0xFF#8

structure I8259 extends Pics where
  picMask : BitVec 16
  deriving DecidableEq, Repr

namespace I8259

def outb (d : I8259) (port : BitVec 16) (v : BitVec 8) : I8259 :=
  { d with toPics := d.toPics.outb port v }

def edge (d : I8259) (line : Fin 16) : I8259 := { d with toPics := d.raise line }

def ioWait (d : I8259) : I8259 := d.outb 0x80#16 0#8

def setMask (d : I8259) (newMask : BitVec 16) : I8259 :=
  let d := { d with picMask := newMask }
  let d := (d.outb PIC1_DATA_PORT ((d.picMask &&& 0xFF#16).setWidth 8)).ioWait
  (d.outb PIC2_DATA_PORT ((d.picMask >>> 8).setWidth 8)).ioWait

def config (d : I8259) (offsetPIC1 offsetPIC2 : BitVec 8) : I8259 :=
  let d := d.setMask 0xFFFF#16
  -- ICW1: edge triggered, cascaded, with ICW4
  let d := (d.outb PIC1_COMMAND_PORT 0x11#8).ioWait
  let d := (d.outb PIC2_COMMAND_PORT 0x11#8).ioWait
  let d := (d.outb PIC1_DATA_PORT offsetPIC1).ioWait
  let d := (d.outb PIC2_DATA_PORT offsetPIC2).ioWait
  -- ICW3: a slave on input 2, and its identity
  let d := (d.outb PIC1_DATA_PORT 0x04#8).ioWait
  let d := (d.outb PIC2_DATA_PORT 0x02#8).ioWait
  -- ICW4: 8086 mode, automatic end of interrupt
  let d := (d.outb PIC1_DATA_PORT 0x03#8).ioWait
  let d := (d.outb PIC2_DATA_PORT 0x03#8).ioWait
  d.setMask 0xFFFF#16

/-- `1 << irq` is an int, the argument of `i8259_SetMask` its low half. -/
def mask (d : I8259) (irq : Nat) : I8259 := d.setMask (d.picMask ||| (1#32 <<< irq).setWidth 16)

def unmask (d : I8259) (irq : Nat) : I8259 :=
  d.setMask (d.picMask &&& (~~~(1#32 <<< irq)).setWidth 16)

def sendEndOfInt (d : I8259) (irq : Nat) : I8259 :=
  let d := if irq ≥ 8 then d.outb PIC2_COMMAND_PORT 0x20#8 else d
  d.outb PIC1_COMMAND_PORT 0x20#8

def disable (d : I8259) : I8259 := d.setMask 0xFFFF#16

def getMask (d : I8259) : BitVec 16 :=
  (d.inb PIC1_DATA_PORT).setWidth 16 ||| (d.inb PIC2_DATA_PORT).setWidth 16 <<< 8

def readIRQRequestRegister (d : I8259) : BitVec 16 × I8259 :=
  let d := (d.outb PIC1_COMMAND_PORT 0x0A#8).outb PIC2_COMMAND_PORT 0x0A#8
  ((d.inb PIC2_COMMAND_PORT).setWidth 16 ||| (d.inb PIC1_COMMAND_PORT).setWidth 16 <<< 8, d)

def readInServiceRegister (d : I8259) : BitVec 16 × I8259 :=
  let d := (d.outb PIC1_COMMAND_PORT 0x0B#8).outb PIC2_COMMAND_PORT 0x0B#8
  ((d.inb PIC2_COMMAND_PORT).setWidth 16 ||| (d.inb PIC1_COMMAND_PORT).setWidth 16 <<< 8, d)

def probe (d : I8259) : Bool × I8259 :=
  let d := d.disable
  let d := d.setMask 0x1337#16
  (d.getMask == 0x1337#16, d)

variable {d : I8259}

theorem setMask_eq (d : I8259) (m : BitVec 16) : d.setMask m =
    ⟨⟨d.master.outData (m.setWidth 8), d.slave.outData ((m >>> 8).setWidth 8)⟩, m⟩ := by
  have hlow : (m &&& 0xFF#16).setWidth 8 = m.setWidth 8 := by
    rw [BitVec.setWidth_and]
    exact BitVec.and_allOnes
  rw [← hlow]
  rfl

theorem config_eq (d : I8259) (offsetPIC1 offsetPIC2 : BitVec 8) : d.config offsetPIC1 offsetPIC2 =
    ⟨⟨⟨0xFF#8, 0#8, 0#8, .nothing, offsetPIC1 &&& 0xF8#8, 0x04#8, true, true, false⟩,
      ⟨0xFF#8, 0#8, 0#8, .nothing, offsetPIC2 &&& 0xF8#8, 0x02#8, true, true, false⟩⟩,
      0xFFFF#16⟩ := by
  unfold config
  rw [setMask_eq]
  generalize d.setMask 0xFFFF#16 = d
  rfl

/-- What `i8259_Config` starts, with the offsets 0x20 and 0x28: only the masks, the requests and
what the even ports show still change. -/
def running (picMask : BitVec 16) (irr1 irr2 : BitVec 8) (readIsr1 readIsr2 : Bool) : I8259 :=
  ⟨⟨⟨picMask.setWidth 8, irr1, 0#8, .nothing, 0x20#8, 0x04#8, true, true, readIsr1⟩,
    ⟨(picMask >>> 8).setWidth 8, irr2, 0#8, .nothing, 0x28#8, 0x02#8, true, true, readIsr2⟩⟩,
    picMask⟩

variable {m : BitVec 16} {irr1 irr2 : BitVec 8} {readIsr1 readIsr2 : Bool}

theorem config_running (d : I8259) :
    d.config 0x20#8 0x28#8 = running 0xFFFF#16 0#8 0#8 false false := config_eq d _ _

theorem setMask_running (newMask : BitVec 16) :
    (running m irr1 irr2 readIsr1 readIsr2).setMask newMask =
      running newMask irr1 irr2 readIsr1 readIsr2 := setMask_eq _ _

theorem inService_of_idle {c : Chip} (h : c.isr = 0#8) : c.inService = none := by
  rw [Chip.inService, h]
  exact List.find?_eq_none.mpr fun k _ => by simp

theorem sendEndOfInt_running (irq : Nat) : (running m irr1 irr2 readIsr1 readIsr2).sendEndOfInt irq =
    running m irr1 irr2 readIsr1 readIsr2 := by
  have hnone (c : Chip) (h : c.isr = 0#8) : c.outCommand 0x20#8 = c := by
    rw [Chip.outCommand, inService_of_idle h]
    rfl
  have hmaster := hnone (running m irr1 irr2 readIsr1 readIsr2).master rfl
  have hslave := hnone (running m irr1 irr2 readIsr1 readIsr2).slave rfl
  have h1 : (running m irr1 irr2 readIsr1 readIsr2).outb PIC1_COMMAND_PORT 0x20#8 =
      running m irr1 irr2 readIsr1 readIsr2 := by
    change I8259.mk ⟨Chip.outCommand _ _, _⟩ _ = _
    rw [hmaster]
  have h2 : (running m irr1 irr2 readIsr1 readIsr2).outb PIC2_COMMAND_PORT 0x20#8 =
      running m irr1 irr2 readIsr1 readIsr2 := by
    change I8259.mk ⟨_, Chip.outCommand _ _⟩ _ = _
    rw [hslave]
  unfold sendEndOfInt
  split
  · rw [h2, h1]
  · exact h1

/-- Against `i8259_GetMask` the halves are swapped. -/
theorem readIRQRequestRegister_running :
    (running m irr1 irr2 readIsr1 readIsr2).readIRQRequestRegister =
      (irr2.setWidth 16 ||| irr1.setWidth 16 <<< 8, running m irr1 irr2 false false) := rfl

theorem readInServiceRegister_running :
    (running m irr1 irr2 readIsr1 readIsr2).readInServiceRegister.2 =
      running m irr1 irr2 true true := rfl

theorem getLsbD_shift {j irq : Nat} (hj : j < 16) :
    ((1#32 <<< irq).setWidth 16).getLsbD j = decide (j = irq) := by
  rw [BitVec.getLsbD_setWidth, BitVec.getLsbD_shiftLeft, BitVec.getLsbD_one, Bool.eq_iff_iff]
  simp only [Bool.and_eq_true, Bool.not_eq_true', decide_eq_true_eq, decide_eq_false_iff_not]
  omega

variable (m irr1 irr2 readIsr1 readIsr2) in
theorem mask_running (irq : Nat) : ∃ m',
    (running m irr1 irr2 readIsr1 readIsr2).mask irq = running m' irr1 irr2 readIsr1 readIsr2 ∧
      ∀ j < 16, m'.getLsbD j = (m.getLsbD j || decide (j = irq)) := by
  refine ⟨_, setMask_running _, fun j hj => ?_⟩
  rw [BitVec.getLsbD_or, getLsbD_shift hj]
  rfl

variable (m irr1 irr2 readIsr1 readIsr2) in
theorem unmask_running (irq : Nat) : ∃ m',
    (running m irr1 irr2 readIsr1 readIsr2).unmask irq = running m' irr1 irr2 readIsr1 readIsr2 ∧
      ∀ j < 16, m'.getLsbD j = (m.getLsbD j && !decide (j = irq)) := by
  refine ⟨_, setMask_running _, fun j hj => ?_⟩
  have hwide : j < 32 := by omega
  rw [BitVec.getLsbD_and, BitVec.getLsbD_setWidth, BitVec.getLsbD_not, decide_eq_true hj,
    decide_eq_true hwide, Bool.true_and, Bool.true_and, ← getLsbD_shift hj, BitVec.getLsbD_setWidth,
    decide_eq_true hj, Bool.true_and]
  rfl

theorem disable_running : (running m irr1 irr2 readIsr1 readIsr2).disable =
    running 0xFFFF#16 irr1 irr2 readIsr1 readIsr2 := setMask_running _

def waits (irr1 irr2 : BitVec 8) (line : Fin 16) : Bool :=
  if line.val < 8 then irr1.getLsbD line.val else irr2.getLsbD (line.val - 8)

theorem getLsbD_set (v : BitVec 8) {j k : Nat} (hj : j < 8) :
    (v ||| 1#8 <<< k).getLsbD j = (v.getLsbD j || decide (j = k)) := by
  rw [BitVec.getLsbD_or, BitVec.getLsbD_shiftLeft, BitVec.getLsbD_one]
  have hone : (decide (j < 8) && !decide (j < k) && (decide (0 < 8) && decide (j - k = 0))) =
      decide (j = k) := by
    rw [Bool.eq_iff_iff]
    simp only [Bool.and_eq_true, Bool.not_eq_true', decide_eq_true_eq, decide_eq_false_iff_not]
    omega
  rw [hone]

theorem getLsbD_clear (v : BitVec 8) {j k : Nat} (hj : j < 8) :
    (v &&& ~~~(1#8 <<< k)).getLsbD j = (v.getLsbD j && !decide (j = k)) := by
  have hone := getLsbD_set 0#8 (k := k) hj
  rw [BitVec.zero_or, BitVec.getLsbD_zero, Bool.false_or] at hone
  rw [BitVec.getLsbD_and, BitVec.getLsbD_not, hone, decide_eq_true hj, Bool.true_and]

theorem waits_low (f : BitVec 8 → BitVec 8) {line : Fin 16} {b : Bool} (hline : line.val < 8)
    (hf : ∀ j < 8, (f irr1).getLsbD j = if j = line.val then b else irr1.getLsbD j) :
    waits (f irr1) irr2 = Function.update (waits irr1 irr2) line b := by
  funext l
  by_cases hl : l = line
  · rw [hl, Function.update_self, waits, if_pos hline, hf _ hline, if_pos rfl]
  · rw [Function.update_of_ne hl, waits, waits]
    by_cases hlow : l.val < 8
    · rw [if_pos hlow, if_pos hlow, hf _ hlow, if_neg fun h => hl (Fin.ext h)]
    · rw [if_neg hlow, if_neg hlow]

theorem waits_high (f : BitVec 8 → BitVec 8) {line : Fin 16} {b : Bool} (hline : ¬line.val < 8)
    (hf : ∀ j < 8, (f irr2).getLsbD j = if j = line.val - 8 then b else irr2.getLsbD j) :
    waits irr1 (f irr2) = Function.update (waits irr1 irr2) line b := by
  have hlt := line.isLt
  funext l
  by_cases hl : l = line
  · rw [hl, Function.update_self, waits, if_neg hline, hf _ (by omega), if_pos rfl]
  · rw [Function.update_of_ne hl, waits, waits]
    have hllt := l.isLt
    by_cases hlow : l.val < 8
    · rw [if_pos hlow, if_pos hlow]
    · rw [if_neg hlow, if_neg hlow, hf _ (by omega), if_neg fun h => hl (Fin.ext (by omega))]

variable (m irr1 irr2 readIsr1 readIsr2) in
theorem edge_running (line : Fin 16) : ∃ irr1' irr2',
    (running m irr1 irr2 readIsr1 readIsr2).edge line = running m irr1' irr2' readIsr1 readIsr2 ∧
      waits irr1' irr2' = Function.update (waits irr1 irr2) line true := by
  by_cases hlow : line.val < 8
  · refine ⟨irr1 ||| 1#8 <<< line.val, irr2, ?_, ?_⟩
    · rw [edge, Pics.raise, if_pos hlow]
      rfl
    · refine waits_low (· ||| 1#8 <<< line.val) hlow fun j hj => ?_
      rw [getLsbD_set _ hj]
      by_cases hjl : j = line.val <;> simp [hjl]
  · refine ⟨irr1, irr2 ||| 1#8 <<< (line.val - 8), ?_, ?_⟩
    · rw [edge, Pics.raise, if_neg hlow]
      rfl
    · refine waits_high (· ||| 1#8 <<< (line.val - 8)) hlow fun j hj => ?_
      rw [getLsbD_set _ hj]
      by_cases hjl : j = line.val - 8 <;> simp [hjl]

/-- Highest first: the slave's lines come in at input 2 of the master. -/
def priority : List (Fin 16) := [0, 1, 8, 9, 10, 11, 12, 13, 14, 15, 3, 4, 5, 6, 7]

def passes (m : BitVec 16) (line : Fin 16) : Bool :=
  !m.getLsbD line.val && (line.val < 8 || !m.getLsbD 2)

def lines (m : BitVec 16) (irr1 irr2 : BitVec 8) : Arbiter.State (Fin 16) :=
  ⟨waits irr1 irr2, passes m⟩

theorem request_of_idle {c : Chip} (h : c.isr = 0#8) (extra : BitVec 8) :
    c.request extra = [0, 1, 2, 3, 4, 5, 6, 7].find? fun k : Fin 8 =>
      (c.irr ||| extra).getLsbD k.val && !c.imr.getLsbD k.val := by
  have hfilter (o : Option (Fin 8)) : o.filter (fun k => c.inService.all fun j => k < j) = o := by
    rw [inService_of_idle h]
    cases o <;> rfl
  rw [Chip.request, hfilter]
  rfl

def lineOfMaster (k : Fin 8) : Fin 16 := ⟨k.val, by omega⟩

def lineOfSlave (j : Fin 8) : Fin 16 := ⟨j.val + 8, by omega⟩

theorem slave_request (h2 : m.getLsbD 2 = false) :
    ([8, 9, 10, 11, 12, 13, 14, 15].find? fun l => waits irr1 irr2 l && passes m l) =
      ((running m irr1 irr2 readIsr1 readIsr2).slave.request 0#8).map lineOfSlave := by
  have hlines : [8, 9, 10, 11, 12, 13, 14, 15] = [0, 1, 2, 3, 4, 5, 6, 7].map lineOfSlave := rfl
  have hsame : (fun l => waits irr1 irr2 l && passes m l) ∘ lineOfSlave = fun k : Fin 8 =>
      (irr2 ||| 0#8).getLsbD k.val && !((m >>> 8).setWidth 8).getLsbD k.val := by
    funext j
    have hj := j.isLt
    have hhigh : ¬j.val + 8 < 8 := by omega
    simp only [Function.comp, waits, passes, lineOfSlave, if_neg hhigh, h2, Nat.add_sub_cancel,
      BitVec.or_zero, BitVec.getLsbD_setWidth, BitVec.getLsbD_ushiftRight, decide_eq_true hj,
      Bool.not_false, Bool.or_true, Bool.and_true, Bool.true_and, Nat.add_comm 8]
  rw [request_of_idle rfl, hlines, List.find?_map, hsame]
  rfl

theorem passes_lineOfSlave (h2 : m.getLsbD 2 = true) (j : Fin 8) : passes m (lineOfSlave j) = false := by
  have hhigh : ¬j.val + 8 < 8 := by omega
  rw [passes, lineOfSlave, h2, decide_eq_false hhigh]
  simp

theorem master_input (extra : BitVec 8) {k : Fin 8} (hk : extra.getLsbD k.val = false) :
    ((irr1 ||| extra).getLsbD k.val && !(m.setWidth 8).getLsbD k.val) =
      (waits irr1 irr2 (lineOfMaster k) && passes m (lineOfMaster k)) := by
  rw [BitVec.getLsbD_or, hk, Bool.or_false]
  simp [waits, passes, lineOfMaster]

variable (m irr1 irr2 readIsr1 readIsr2) in
/-- The two controllers want to interrupt for what the arbiter would grant. -/
theorem intr_running (hwired : irr1.getLsbD 2 = false) :
    let d := running m irr1 irr2 readIsr1 readIsr2
    ((lines m irr1 irr2).grant priority = none ∧ d.intr = none) ∨
      (∃ k, k ≠ 2 ∧ (lines m irr1 irr2).grant priority = some (lineOfMaster k) ∧
        d.intr = some k) ∨
      ∃ j, (lines m irr1 irr2).grant priority = some (lineOfSlave j) ∧ d.intr = some 2 ∧
        d.slave.request 0#8 = some j := by
  intro d
  let wants (k : Fin 8) : Bool :=
    (irr1 ||| d.wire).getLsbD k.val && !(m.setWidth 8).getLsbD k.val
  let due (l : Fin 16) : Bool := waits irr1 irr2 l && passes m l
  have hintr : d.intr = ([0, 1].find? wants).or (([2].find? wants).or
      ([3, 4, 5, 6, 7].find? wants)) := by
    rw [← List.find?_append, ← List.find?_append]
    exact request_of_idle rfl _
  have hgrant : (lines m irr1 irr2).grant priority = (([0, 1].map lineOfMaster).find? due).or
      (([8, 9, 10, 11, 12, 13, 14, 15].find? due).or
        (([3, 4, 5, 6, 7].map lineOfMaster).find? due)) := by
    rw [← List.find?_append, ← List.find?_append]
    rfl
  have hwire (k : Fin 8) (hk : k ≠ 2) : d.wire.getLsbD k.val = false := by
    have hbits : ∀ k : Fin 8, k ≠ 2 → (0x04#8).getLsbD k.val = false := by decide
    unfold Pics.wire
    split
    · exact hbits k hk
    · exact BitVec.getLsbD_zero
  have hown (ks : List (Fin 8)) (hks : ∀ k ∈ ks, k ≠ 2) :
      (ks.map lineOfMaster).find? due = (ks.find? wants).map lineOfMaster := by
    rw [List.find?_map]
    exact congrArg (Option.map lineOfMaster)
      (List.find?_congr fun k hk => (master_input d.wire (hwire k (hks k hk))).symm)
  have hlow : ∀ k ∈ [0, 1], k ≠ (2 : Fin 8) := by decide
  have hhigh : ∀ k ∈ [3, 4, 5, 6, 7], k ≠ (2 : Fin 8) := by decide
  rw [hown _ hlow, hown _ hhigh] at hgrant
  -- without a request of the slave, input 2 is quiet
  have hquiet (hslave : [8, 9, 10, 11, 12, 13, 14, 15].find? due = none)
      (htwo : wants 2 = false) :
      ((lines m irr1 irr2).grant priority = none ∧ d.intr = none) ∨
        ∃ k, k ≠ 2 ∧ (lines m irr1 irr2).grant priority = some (lineOfMaster k) ∧
          d.intr = some k := by
    have hnone : [2].find? wants = none := List.find?_eq_none.mpr (by simpa using htwo)
    rw [hgrant, hintr, hslave, hnone, Option.none_or, Option.none_or]
    cases hfirst : [0, 1].find? wants with
    | some k => exact .inr ⟨k, hlow k (List.mem_of_find?_eq_some hfirst), rfl, rfl⟩
    | none =>
      cases hrest : [3, 4, 5, 6, 7].find? wants with
      | some k => exact .inr ⟨k, hhigh k (List.mem_of_find?_eq_some hrest), rfl, rfl⟩
      | none => exact .inl ⟨rfl, rfl⟩
  have htwo : wants 2 = ((irr1.getLsbD 2 || d.wire.getLsbD 2) && !m.getLsbD 2) := by
    change ((irr1 ||| d.wire).getLsbD 2 && !(m.setWidth 8).getLsbD 2) = _
    rw [BitVec.getLsbD_or, BitVec.getLsbD_setWidth]
    rfl
  rw [hwired, Bool.false_or] at htwo
  cases h2 : m.getLsbD 2 with
  | true =>
    rw [h2, Bool.not_true, Bool.and_false] at htwo
    refine (hquiet (List.find?_eq_none.mpr ?_) htwo).imp_right .inl
    have hall : ∀ l ∈ [8, 9, 10, 11, 12, 13, 14, 15], ∃ j, l = lineOfSlave j := by decide
    intro l hl
    obtain ⟨j, rfl⟩ := hall l hl
    simp [due, passes_lineOfSlave h2 j]
  | false =>
    rw [h2, Bool.not_false, Bool.and_true] at htwo
    have hslave : [8, 9, 10, 11, 12, 13, 14, 15].find? due =
        (d.slave.request 0#8).map lineOfSlave := slave_request h2
    obtain hrequest | ⟨j, hrequest⟩ := Option.eq_none_or_eq_some (d.slave.request 0#8)
    · have hdown : d.wire = 0#8 := by rw [Pics.wire, hrequest]; rfl
      rw [hrequest] at hslave
      rw [hdown] at htwo
      exact (hquiet hslave htwo).imp_right .inl
    · have hup : d.wire = 0x04#8 := by rw [Pics.wire, hrequest]; rfl
      rw [hrequest] at hslave
      rw [hup] at htwo
      rw [hgrant, hintr, hslave, List.find?_cons_of_pos htwo]
      cases hfirst : [0, 1].find? wants with
      | some k => exact .inr (.inl ⟨k, hlow k (List.mem_of_find?_eq_some hfirst), rfl, rfl⟩)
      | none => exact .inr (.inr ⟨j, rfl, rfl, hrequest⟩)

variable (m irr1 irr2 readIsr1 readIsr2) in
/-- The processor is given the vector of the line the arbiter grants, and only that line stops
waiting. -/
theorem acknowledge_running (hwired : irr1.getLsbD 2 = false) :
    let d := running m irr1 irr2 readIsr1 readIsr2
    ((lines m irr1 irr2).grant priority = none ∧ d.intr = none) ∨
      ∃ line k irr1' irr2', (lines m irr1 irr2).grant priority = some line ∧ d.intr = some k ∧
        d.acknowledge k = (BitVec.ofNat 8 (0x20 + line.val),
          (running m irr1' irr2' readIsr1 readIsr2).toPics) ∧
        waits irr1' irr2' = Function.update (waits irr1 irr2) line false := by
  intro d
  have hcleared (v : BitVec 8) (k j : Nat) (hj : j < 8) :
      (v &&& ~~~(1#8 <<< k)).getLsbD j = if j = k then false else v.getLsbD j := by
    rw [getLsbD_clear _ hj]
    by_cases hjk : j = k <;> simp [hjk]
  obtain hnone | ⟨k, hk, hgrant, hintr⟩ | ⟨j, hgrant, hintr, hrequest⟩ :=
    intr_running m irr1 irr2 readIsr1 readIsr2 hwired
  · exact .inl hnone
  · have hcascade : ∀ k : Fin 8, k ≠ 2 → (0x04#8).getLsbD k.val = false := by decide
    have hvector : ∀ k : Fin 8, 0x20#8 ||| BitVec.ofNat 8 k.val = BitVec.ofNat 8 (0x20 + k.val) := by
      decide
    refine .inr ⟨_, k, irr1 &&& ~~~(1#8 <<< k.val), irr2, hgrant, hintr, ?_, ?_⟩
    · have hown : (d.master.cascade.getLsbD k.val &&
          d.slave.cascade &&& 0x07#8 == BitVec.ofNat 8 k.val) = false := by
        change ((0x04#8).getLsbD k.val && _) = false
        rw [hcascade k hk, Bool.false_and]
      rw [Pics.acknowledge, hown]
      exact congrArg (·, _) (hvector k)
    · exact waits_low (· &&& ~~~(1#8 <<< k.val)) k.isLt fun j hj => hcleared irr1 k.val j hj
  · have hvector : ∀ j : Fin 8, 0x28#8 ||| BitVec.ofNat 8 j.val =
        BitVec.ofNat 8 (0x20 + (j.val + 8)) := by decide
    have hsame : irr1 &&& ~~~(1#8 <<< 2) = irr1 := by
      apply BitVec.eq_of_getLsbD_eq
      intro i hi
      rw [hcleared irr1 2 i hi]
      split
      · rw [‹i = 2›, hwired]
      · rfl
    refine .inr ⟨_, 2, irr1, irr2 &&& ~~~(1#8 <<< j.val), hgrant, hintr, ?_, ?_⟩
    · have hslave : (d.master.cascade.getLsbD (2 : Fin 8).val &&
          d.slave.cascade &&& 0x07#8 == BitVec.ofNat 8 (2 : Fin 8).val) = true := by
        change ((0x04#8).getLsbD 2 && 0x02#8 &&& 0x07#8 == 0x02#8) = true
        decide
      have hmaster : d.master.acknowledge 2 = d.master := by
        change { d.master with irr := irr1 &&& ~~~(1#8 <<< 2) } = d.master
        rw [hsame]
        rfl
      rw [Pics.acknowledge, hslave, hrequest]
      refine Prod.ext (hvector j) ?_
      exact congrArg (Pics.mk · _) hmaster
    · have hhigh : ¬(lineOfSlave j).val < 8 := Nat.not_lt.mpr (Nat.le_add_left _ _)
      refine waits_high (· &&& ~~~(1#8 <<< j.val)) hhigh fun i hi => ?_
      rw [hcleared irr2 j.val i hi]
      rfl

end I8259

end SplongleOS
