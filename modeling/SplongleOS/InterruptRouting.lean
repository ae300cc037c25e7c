import SplongleOS.Base.Arbiter
import SplongleOS.Base.Simulation
import SplongleOS.InterruptFrame
import SplongleOS.Pic
set_option autoImplicit false

/-! From an edge on one of the sixteen lines to a handler: the controllers, the gates of idt.c, the
tables of isr.c and irq.c, and the processor between them. -/

namespace SplongleOS
open Arbiter Simulation

structure IDTEntry where
  baseLow : BitVec 16
  segmentSelector : BitVec 16
  reserved : BitVec 8
  flags : BitVec 8
  baseHi : BitVec 16
  deriving DecidableEq, Repr

abbrev Idt := Fin 256 → IDTEntry

def i686GdtCodeSegment : BitVec 16 := 0x08#16
def IDT_FLAG_RING0 : BitVec 8 := 0x00#8
def IDT_FLAG_GATE_32BIT_INT : BitVec 8 := 0x0E#8
def IDT_FLAG_PRESENT : BitVec 8 := 0x80#8

def setGate (g : Idt) (interrupt : Fin 256) (base : BitVec 32) (segmentDescriptor : BitVec 16)
    (flags : BitVec 8) : Idt :=
  Function.update g interrupt
    ⟨(base &&& 0xFFFF#32).setWidth 16, segmentDescriptor, 0#8, flags,
      (base >>> 16 &&& 0xFFFF#32).setWidth 16⟩

def enableGate (g : Idt) (interrupt : Fin 256) : Idt :=
  Function.update g interrupt { g interrupt with flags := (g interrupt).flags ||| IDT_FLAG_PRESENT }

def disableGate (g : Idt) (interrupt : Fin 256) : Idt :=
  Function.update g interrupt
    { g interrupt with flags := (g interrupt).flags &&& ~~~IDT_FLAG_PRESENT }

def isrInitializeGates (C : IsrCode) (g : Idt) : Idt :=
  (List.finRange 256).foldl (fun g v =>
    setGate g v (C.isr v) i686GdtCodeSegment (IDT_FLAG_RING0 ||| IDT_FLAG_GATE_32BIT_INT)) g

def isrInitialize (C : IsrCode) (g : Idt) : Idt :=
  (List.finRange 256).foldl enableGate (isrInitializeGates C g)

def IDTEntry.target (e : IDTEntry) : Option (BitVec 16 × BitVec 32) :=
  if e.flags = IDT_FLAG_PRESENT ||| IDT_FLAG_RING0 ||| IDT_FLAG_GATE_32BIT_INT then
    some (e.segmentSelector, e.baseHi ++ e.baseLow)
  else none

def Gated (C : IsrCode) (g : Idt) : Prop := ∀ v, (g v).target = some (i686GdtCodeSegment, C.isr v)

theorem foldl_update {ι α : Type} [DecidableEq ι] (f : ι → α → α) {is : List ι} (hnodup : is.Nodup)
    (g : ι → α) (i : ι) : is.foldl (fun g j => Function.update g j (f j (g j))) g i =
      if i ∈ is then f i (g i) else g i := by
  induction is generalizing g with
  | nil => rfl
  | cons j is ih =>
    rw [List.nodup_cons] at hnodup
    rw [List.foldl_cons, ih hnodup.2]
    by_cases hij : i = j
    · rw [hij, if_neg hnodup.1, if_pos List.mem_cons_self, Function.update_self]
    · rw [Function.update_of_ne hij]
      simp [hij]

theorem target_setGate (base : BitVec 32) (segmentDescriptor : BitVec 16) (g : Idt) (v : Fin 256) :
    (enableGate (setGate g v base segmentDescriptor (IDT_FLAG_RING0 ||| IDT_FLAG_GATE_32BIT_INT)) v
      v).target = some (segmentDescriptor, base) := by
  have hbase : (base >>> 16 &&& 0xFFFF#32).setWidth 16 ++ (base &&& 0xFFFF#32).setWidth 16 =
      base := by
    have hhigh : (base >>> 16 &&& 0xFFFF#32).setWidth 16 = (base >>> 16).setWidth 16 := by
      rw [BitVec.setWidth_and]
      exact BitVec.and_allOnes
    have hlow : (base &&& 0xFFFF#32).setWidth 16 = base.setWidth 16 := by
      rw [BitVec.setWidth_and]
      exact BitVec.and_allOnes
    rw [hhigh, hlow]
    apply BitVec.eq_of_getLsbD_eq
    intro i hi
    rw [BitVec.getLsbD_append]
    by_cases hlt : i < 16
    · simp [hlt]
    · have hrest : i - 16 < 16 := by omega
      have hsum : 16 + (i - 16) = i := by omega
      simp [hlt, hrest, hsum]
  simp only [enableGate, setGate, Function.update_self, IDTEntry.target, hbase]
  rfl

theorem gated_isrInitialize (C : IsrCode) (g : Idt) : Gated C (isrInitialize C g) := by
  intro v
  have hnodup : (List.finRange 256).Nodup := List.nodup_finRange 256
  have hmem : v ∈ List.finRange 256 := List.mem_finRange v
  have hset := foldl_update (fun v (_ : IDTEntry) => (⟨(C.isr v &&& 0xFFFF#32).setWidth 16,
    i686GdtCodeSegment, 0#8, IDT_FLAG_RING0 ||| IDT_FLAG_GATE_32BIT_INT,
    (C.isr v >>> 16 &&& 0xFFFF#32).setWidth 16⟩ : IDTEntry)) hnodup g v
  have henable := foldl_update (fun _ (e : IDTEntry) => { e with
    flags := e.flags ||| IDT_FLAG_PRESENT }) hnodup (isrInitializeGates C g) v
  rw [if_pos hmem] at hset henable
  have hgates : isrInitializeGates C g v = setGate g v (C.isr v) i686GdtCodeSegment
      (IDT_FLAG_RING0 ||| IDT_FLAG_GATE_32BIT_INT) v := by
    rw [setGate, Function.update_self]
    exact hset
  have htarget := target_setGate (C.isr v) i686GdtCodeSegment g v
  rw [enableGate, Function.update_self, ← hgates] at htarget
  exact (congrArg IDTEntry.target henable).trans htarget

theorem Gated.enableGate {C : IsrCode} {g : Idt} (h : Gated C g) (interrupt : Fin 256) :
    Gated C (enableGate g interrupt) := by
  intro v
  by_cases hv : v = interrupt
  · subst hv
    have hgate := h v
    unfold IDTEntry.target at hgate ⊢
    rw [SplongleOS.enableGate, Function.update_self]
    split at hgate
    · rename_i hflags
      rw [hflags]
      exact hgate
    · contradiction
  · rw [SplongleOS.enableGate, Function.update_of_ne hv]
    exact h v

/-- What stands in `g_ISRHandlers`. -/
inductive ISRHandler (κ : Type) where
  | irqHandler
  | other (handler : κ)
  deriving DecidableEq, Repr

/-- `frames` are the interrupt flags in the frames on the stack. -/
structure IrqMachine (η κ : Type) where
  pic : I8259
  idt : Idt
  isrHandlers : Fin 256 → Option (ISRHandler κ)
  irqHandlers : Fin 16 → Option η
  interruptFlag : Bool
  frames : List Bool

/-- What comes of an interrupt: a handler of `g_IRQHandlers`, or the line "Unhandled IRQ" when
there is none; a handler of `g_ISRHandlers`, or the lines of `i686_ISR_Handler`. -/
inductive Outcome (η κ : Type) where
  | irq (irq : Fin 16) (handler : Option η)
  | outOfBounds (irq : Int)
  | isr (interrupt : Fin 256) (handler : κ)
  | unhandledInterrupt (interrupt : Fin 256)
  | panic (interrupt : Fin 256)
  | noStub
  deriving DecidableEq, Repr

variable {η κ : Type}

def PIC_REMAP_OFFSET : Nat := 0x20

def remapped (i : Fin 16) : Fin 256 :=
  ⟨PIC_REMAP_OFFSET + i.val, by unfold PIC_REMAP_OFFSET; omega⟩

def IrqMachine.irqHandler (s : IrqMachine η κ) (interrupt : Fin 256) : Outcome η κ :=
  let irq : Int := interrupt.val - PIC_REMAP_OFFSET
  if h : 0 ≤ irq ∧ irq < 16 then .irq ⟨irq.toNat, by omega⟩ (s.irqHandlers ⟨irq.toNat, by omega⟩)
  else .outOfBounds irq

def IrqMachine.isrHandler (s : IrqMachine η κ) (interrupt : Fin 256) : Outcome η κ :=
  match s.isrHandlers interrupt with
  | some .irqHandler => s.irqHandler interrupt
  | some (.other handler) => .isr interrupt handler
  | none => if interrupt.val ≥ 32 then .unhandledInterrupt interrupt else .panic interrupt

/-- The stub that lies at an address, as its `push` tells `i686_ISR_Handler`. -/
def IsrCode.stubAt (C : IsrCode) (a : BitVec 32) : Option (Fin 256) :=
  (List.finRange 256).find? fun v => C.isr v = a

def IrqMachine.dispatch (C : IsrCode) (s : IrqMachine η κ) (vector : BitVec 8) : Outcome η κ :=
  match (s.idt ⟨vector.toNat, vector.isLt⟩).target with
  | none => .noStub
  | some (_, offset) =>
    match C.stubAt offset with
    | none => .noStub
    | some interrupt => s.isrHandler interrupt

def registerIsrHandler (s : IrqMachine η κ) (interrupt : Fin 256) (handler : ISRHandler κ) :
    IrqMachine η κ :=
  { s with
    isrHandlers := Function.update s.isrHandlers interrupt (some handler)
    idt := enableGate s.idt interrupt }

def irqInitFound (s : IrqMachine η κ) : IrqMachine η κ :=
  let offset := BitVec.ofNat 8 PIC_REMAP_OFFSET
  let s := { s with pic := s.pic.config offset (offset + 8#8) }
  (List.finRange 16).foldl (fun s i => registerIsrHandler s (remapped i) .irqHandler) s

/-- `i686_IRQ_Init` up to `i686_EnableInts`, and whether it gets there. -/
def irqInit (s : IrqMachine η κ) : Bool × IrqMachine η κ :=
  if s.pic.probe.1 then (true, irqInitFound { s with pic := s.pic.probe.2 })
  else (false, { s with pic := s.pic.probe.2 })

/-- Before `HAL_Init`: the controllers and the table of gates as they happen to be, and the ISR
handlers that are registered already. -/
def IrqMachine.boot (pic : I8259) (idt : Idt) (fault : Fin 256 → Option κ) : IrqMachine η κ :=
  ⟨pic, idt, fun v => (fault v).map .other, fun _ => none, false, []⟩

/-- `HAL_Init` up to `i686_EnableInts`. -/
def halInit (C : IsrCode) (s : IrqMachine η κ) : Bool × IrqMachine η κ :=
  irqInit { s with idt := isrInitialize C s.idt }

/-- What can happen: edges on the lines, the processor taking an interrupt or an exception, the
`iret` of a handler, and the calls the kernel makes meanwhile, from a handler or elsewhere. -/
inductive IrqEvent (η κ : Type) where
  | edge (line : Fin 16)
  | interrupt
  | exception (vector : Fin 32)
  | iret
  | enableInts
  | disableInts
  | mask (irq : Nat)
  | unmask (irq : Nat)
  | disable
  | sendEndOfInt (irq : Nat)
  | readIRQRequestRegister
  | readInServiceRegister
  | irqRegisterHandler (irq : Fin 16) (handler : Option η)
  | isrRegisterHandler (number : Fin 256) (handler : κ)

inductive Answer (η κ : Type) where
  | latched (already : Bool)
  | ran (outcome : Outcome η κ)
  | silent

def IrqMachine.enterGate (s : IrqMachine η κ) : IrqMachine η κ :=
  { s with frames := s.interruptFlag :: s.frames, interruptFlag := false }

def IrqMachine.take (C : IsrCode) (s : IrqMachine η κ) (k : Fin 8) : Answer η κ × IrqMachine η κ :=
  let (vector, pics) := s.pic.acknowledge k
  let t := { s with pic := { s.pic with toPics := pics } }
  (.ran (t.dispatch C vector), t.enterGate)

def IrqMachine.step (C : IsrCode) (s : IrqMachine η κ) :
    IrqEvent η κ → Option (Answer η κ × IrqMachine η κ)
  | .edge line => some (.latched (I8259.waits s.pic.master.irr s.pic.slave.irr line),
      { s with pic := s.pic.edge line })
  | .interrupt =>
    if s.interruptFlag then s.pic.intr.map (s.take C) else none
  | .exception vector => some (.ran (s.dispatch C (BitVec.ofNat 8 vector.val)), s.enterGate)
  | .iret =>
    match s.frames with
    | [] => none
    | flag :: frames => some (.silent, { s with interruptFlag := flag, frames := frames })
  | .enableInts => some (.silent, { s with interruptFlag := true })
  | .disableInts => some (.silent, { s with interruptFlag := false })
  | .mask irq => some (.silent, { s with pic := s.pic.mask irq })
  | .unmask irq => some (.silent, { s with pic := s.pic.unmask irq })
  | .disable => some (.silent, { s with pic := s.pic.disable })
  | .sendEndOfInt irq => some (.silent, { s with pic := s.pic.sendEndOfInt irq })
  | .readIRQRequestRegister => some (.silent, { s with pic := s.pic.readIRQRequestRegister.2 })
  | .readInServiceRegister => some (.silent, { s with pic := s.pic.readInServiceRegister.2 })
  | .irqRegisterHandler irq handler =>
    some (.silent, { s with irqHandlers := Function.update s.irqHandlers irq handler })
  | .isrRegisterHandler number handler =>
    some (.silent, registerIsrHandler s number (.other handler))

/-- Line 2 is taken by the slave; a shift by more than 30 is not defined for an int; and nobody
but `i686_IRQ_Init` registers an ISR handler from 32 to 47. -/
def IrqEvent.Ok : IrqEvent η κ → Prop
  | .edge line => line ≠ 2
  | .mask irq => irq < 31
  | .unmask irq => irq < 31
  | .isrRegisterHandler number _ => number.val < 32 ∨ 48 ≤ number.val
  | _ => True

/-- The sixteen lines without controllers, gates and stubs. -/
structure IrqLines (η κ : Type) where
  pending : Fin 16 → Bool
  unmasked : Fin 16 → Bool
  handler : Fin 16 → Option η
  fault : Fin 256 → Option κ
  interruptFlag : Bool
  frames : List Bool

def IrqLines.arbiter (A : IrqLines η κ) : Arbiter.State (Fin 16) :=
  ⟨A.pending, fun l => A.unmasked l && (l.val < 8 || A.unmasked 2)⟩

def IrqLines.enterGate (A : IrqLines η κ) : IrqLines η κ :=
  { A with frames := A.interruptFlag :: A.frames, interruptFlag := false }

def IrqLines.step (A : IrqLines η κ) : IrqEvent η κ → Option (Answer η κ × IrqLines η κ)
  | .edge line => some (.latched (A.pending line),
      { A with pending := Function.update A.pending line true })
  | .interrupt =>
    if A.interruptFlag then
      (A.arbiter.grant I8259.priority).map fun line =>
        (.ran (.irq line (A.handler line)),
          { A with pending := Function.update A.pending line false }.enterGate)
    else none
  | .exception vector =>
    let v : Fin 256 := ⟨vector.val, by omega⟩
    some (.ran (match A.fault v with
      | some handler => .isr v handler
      | none => .panic v), A.enterGate)
  | .iret =>
    match A.frames with
    | [] => none
    | flag :: frames => some (.silent, { A with interruptFlag := flag, frames := frames })
  | .enableInts => some (.silent, { A with interruptFlag := true })
  | .disableInts => some (.silent, { A with interruptFlag := false })
  | .mask irq => some (.silent, { A with unmasked := fun l => A.unmasked l && l.val != irq })
  | .unmask irq => some (.silent, { A with unmasked := fun l => A.unmasked l || l.val == irq })
  | .disable => some (.silent, { A with unmasked := fun _ => false })
  | .irqRegisterHandler irq handler =>
    some (.silent, { A with handler := Function.update A.handler irq handler })
  | .isrRegisterHandler number handler =>
    some (.silent, { A with fault := Function.update A.fault number (some handler) })
  | .sendEndOfInt _ | .readIRQRequestRegister | .readInServiceRegister => some (.silent, A)

/-- What ties the machine to the sixteen lines. -/
structure Routes (C : IsrCode) (s : IrqMachine η κ) (A : IrqLines η κ) : Prop where
  pic : ∃ m irr1 irr2 readIsr1 readIsr2, s.pic = I8259.running m irr1 irr2 readIsr1 readIsr2 ∧
    I8259.waits irr1 irr2 = A.pending ∧ ∀ l : Fin 16, m.getLsbD l.val = !A.unmasked l
  wired : A.pending 2 = false
  gated : Gated C s.idt
  irq : ∀ v : Fin 256, 32 ≤ v.val → v.val < 48 → s.isrHandlers v = some .irqHandler
  fault : ∀ v : Fin 256, v.val < 32 → s.isrHandlers v = (A.fault v).map .other
  handler : s.irqHandlers = A.handler
  interruptFlag : s.interruptFlag = A.interruptFlag
  frames : s.frames = A.frames

variable {C : IsrCode} {s : IrqMachine η κ} {A : IrqLines η κ}

theorem stubAt_isr (hisr : Function.Injective C.isr) (v : Fin 256) : C.stubAt (C.isr v) = some v := by
  cases hfind : C.stubAt (C.isr v) with
  | none =>
    rw [IsrCode.stubAt, List.find?_eq_none] at hfind
    exact absurd (decide_eq_true rfl) (hfind v (List.mem_finRange v))
  | some w =>
    have hsame := List.find?_some hfind
    rw [decide_eq_true_eq] at hsame
    rw [hisr hsame]

theorem dispatch_eq (hisr : Function.Injective C.isr) (h : Gated C s.idt) (vector : BitVec 8) :
    s.dispatch C vector = s.isrHandler ⟨vector.toNat, vector.isLt⟩ := by
  rw [IrqMachine.dispatch, h]
  dsimp only
  rw [stubAt_isr hisr]

theorem isrHandler_irq (h : Routes C s A) (line : Fin 16) (v : Fin 256) (hv : v.val = 32 + line.val) :
    s.isrHandler v = .irq line (A.handler line) := by
  have hline := line.isLt
  have hirq : (v.val : Int) - PIC_REMAP_OFFSET = line.val := by
    unfold PIC_REMAP_OFFSET
    omega
  have hrange : 0 ≤ (line.val : Int) ∧ (line.val : Int) < 16 := by omega
  rw [IrqMachine.isrHandler, h.irq v (by omega) (by omega)]
  dsimp only [IrqMachine.irqHandler]
  rw [← h.handler]
  simp only [hirq, hrange, Int.toNat_natCast, and_self, dif_pos]

theorem Routes.withPic (h : Routes C s A) {m : BitVec 16} {irr1 irr2 : BitVec 8}
    {readIsr1 readIsr2 : Bool} {unmasked : Fin 16 → Bool}
    (hwaits : I8259.waits irr1 irr2 = A.pending)
    (hmask : ∀ l : Fin 16, m.getLsbD l.val = !unmasked l) :
    Routes C { s with pic := I8259.running m irr1 irr2 readIsr1 readIsr2 }
      { A with unmasked := unmasked } :=
  { h with pic := ⟨m, irr1, irr2, readIsr1, readIsr2, rfl, hwaits, hmask⟩ }

theorem Routes.interrupt (h : Routes C s A) (hisr : Function.Injective C.isr) :
    (s.step C .interrupt = none ∧ A.step .interrupt = none) ∨
      ∃ a t B, s.step C .interrupt = some (a, t) ∧ A.step .interrupt = some (a, B) ∧
        Routes C t B := by
  obtain ⟨m, irr1, irr2, readIsr1, readIsr2, hpic, hwaits, hmask⟩ := h.pic
  have hlines : I8259.lines m irr1 irr2 = A.arbiter := by
    have hpasses : I8259.passes m = fun l => A.unmasked l && (l.val < 8 || A.unmasked 2) := by
      funext l
      have htwo : m.getLsbD 2 = !A.unmasked 2 := hmask 2
      rw [I8259.passes, hmask, htwo, Bool.not_not, Bool.not_not]
    rw [I8259.lines, IrqLines.arbiter, hwaits, hpasses]
  have hwired : irr1.getLsbD 2 = false := by
    have htwo := h.wired
    rw [← hwaits] at htwo
    exact htwo
  cases hflag : A.interruptFlag with
  | false =>
    refine .inl ⟨?_, ?_⟩
    · rw [IrqMachine.step, h.interruptFlag, hflag]
      rfl
    · rw [IrqLines.step, hflag]
      rfl
  | true =>
    obtain ⟨hgrant, hintr⟩ | ⟨line, k, irr1', irr2', hgrant, hintr, hack, hwaits'⟩ :=
      I8259.acknowledge_running m irr1 irr2 readIsr1 readIsr2 hwired
    · have hnone : s.pic.intr = none := by rw [hpic]; exact hintr
      refine .inl ⟨?_, ?_⟩
      · rw [IrqMachine.step, hnone, Option.map_none, ite_self]
      · rw [IrqLines.step, ← hlines, hgrant, Option.map_none, ite_self]
    · have hsome : s.pic.intr = some k := by rw [hpic]; exact hintr
      have hline := line.isLt
      let t : IrqMachine η κ := { s with pic := I8259.running m irr1' irr2' readIsr1 readIsr2 }
      let B : IrqLines η κ := { A with pending := Function.update A.pending line false }
      have htied : Routes C t B :=
        { h with
          pic := ⟨m, irr1', irr2', readIsr1, readIsr2, rfl, by rw [hwaits', hwaits], hmask⟩
          wired := by
            by_cases hl : line = 2
            · exact hl ▸ Function.update_self ..
            · exact (Function.update_of_ne (Ne.symm hl) ..).trans h.wired }
      have htake : s.take C k = (.ran (.irq line (A.handler line)), t.enterGate) := by
        have hdispatch : t.dispatch C (BitVec.ofNat 8 (0x20 + line.val)) =
            .irq line (A.handler line) := by
          rw [dispatch_eq hisr htied.gated]
          refine isrHandler_irq htied line _ ?_
          change (BitVec.ofNat 8 (0x20 + line.val)).toNat = 32 + line.val
          rw [BitVec.toNat_ofNat]
          omega
        rw [IrqMachine.take, hpic, hack, ← hdispatch]
        rfl
      refine .inr ⟨.ran (.irq line (A.handler line)), t.enterGate, B.enterGate, ?_, ?_, ?_⟩
      · rw [IrqMachine.step, if_pos (h.interruptFlag.trans hflag), hsome, Option.map_some, htake]
      · rw [IrqLines.step, if_pos hflag, ← hlines, hgrant]
        rfl
      · refine { htied with interruptFlag := rfl, frames := ?_ }
        rw [IrqMachine.enterGate, IrqLines.enterGate, htied.interruptFlag, htied.frames]

/-- The machine and the sixteen lines can do the same, show the same and stay tied. -/
theorem Routes.step (h : Routes C s A) (hisr : Function.Injective C.isr) (e : IrqEvent η κ)
    (hok : e.Ok) : (s.step C e = none ∧ A.step e = none) ∨
      ∃ a t B, s.step C e = some (a, t) ∧ A.step e = some (a, B) ∧ Routes C t B := by
  obtain ⟨m, irr1, irr2, readIsr1, readIsr2, hpic, hwaits, hmask⟩ := h.pic
  cases e with
  | edge line =>
    obtain ⟨irr1', irr2', hedge, hwaits'⟩ :=
      I8259.edge_running m irr1 irr2 readIsr1 readIsr2 line
    refine .inr ⟨.latched (A.pending line), { s with pic := s.pic.edge line },
      { A with pending := Function.update A.pending line true }, ?_, rfl, ?_⟩
    · rw [IrqMachine.step, ← hwaits, hpic]
      rfl
    · rw [hpic, hedge]
      refine { h with pic := ⟨_, _, _, _, _, rfl, ?_, hmask⟩, wired := ?_ }
      · rw [hwaits', hwaits]
      · exact (Function.update_of_ne (Ne.symm hok) ..).trans h.wired
  | interrupt => exact h.interrupt hisr
  | exception vector =>
    have hv : (⟨(BitVec.ofNat 8 vector.val).toNat, (BitVec.ofNat 8 vector.val).isLt⟩ : Fin 256) =
        ⟨vector.val, by omega⟩ := by
      apply Fin.ext
      change (BitVec.ofNat 8 vector.val).toNat = vector.val
      rw [BitVec.toNat_ofNat]
      have := vector.isLt
      omega
    refine .inr ⟨_, s.enterGate, A.enterGate, rfl, ?_,
      { h with interruptFlag := rfl, frames := ?_ }⟩
    · rw [IrqLines.step, dispatch_eq hisr h.gated, hv, IrqMachine.isrHandler, h.fault _ vector.isLt]
      cases A.fault ⟨vector.val, by omega⟩ with
      | none =>
        have hlow : ¬vector.val ≥ 32 := Nat.not_le.mpr vector.isLt
        simp only [Option.map_none, if_neg hlow]
      | some handler => rfl
    · rw [IrqMachine.enterGate, IrqLines.enterGate, h.interruptFlag, h.frames]
  | iret =>
    cases hframes : A.frames with
    | nil =>
      refine .inl ⟨?_, ?_⟩
      · rw [IrqMachine.step, h.frames, hframes]
      · rw [IrqLines.step, hframes]
    | cons flag frames =>
      refine .inr ⟨.silent, { s with interruptFlag := flag, frames := frames },
        { A with interruptFlag := flag, frames := frames }, ?_, ?_, ?_⟩
      · rw [IrqMachine.step, h.frames, hframes]
      · rw [IrqLines.step, hframes]
      · exact { h with interruptFlag := rfl, frames := rfl }
  | enableInts => exact .inr ⟨_, _, _, rfl, rfl, { h with interruptFlag := rfl }⟩
  | disableInts => exact .inr ⟨_, _, _, rfl, rfl, { h with interruptFlag := rfl }⟩
  | mask irq =>
    obtain ⟨m', hnew, hbits⟩ :=
      I8259.mask_running m irr1 irr2 readIsr1 readIsr2 irq
    refine .inr ⟨_, _, _, rfl, rfl, ?_⟩
    rw [hpic, hnew]
    refine h.withPic hwaits fun l => ?_
    rw [hbits _ l.isLt, hmask]
    by_cases hl : l.val = irq <;> simp [hl]
  | unmask irq =>
    obtain ⟨m', hnew, hbits⟩ :=
      I8259.unmask_running m irr1 irr2 readIsr1 readIsr2 irq
    refine .inr ⟨_, _, _, rfl, rfl, ?_⟩
    rw [hpic, hnew]
    refine h.withPic hwaits fun l => ?_
    rw [hbits _ l.isLt, hmask]
    by_cases hl : l.val = irq <;> simp [hl]
  | disable =>
    refine .inr ⟨_, _, _, rfl, rfl, ?_⟩
    rw [hpic, I8259.disable_running]
    refine h.withPic hwaits fun l => ?_
    have hall : ∀ l : Fin 16, (0xFFFF#16).getLsbD l.val = true := by decide
    exact hall l
  | sendEndOfInt irq =>
    refine .inr ⟨_, _, _, rfl, rfl, ?_⟩
    rw [hpic, I8259.sendEndOfInt_running]
    exact h.withPic hwaits hmask
  | readIRQRequestRegister =>
    refine .inr ⟨_, _, _, rfl, rfl, ?_⟩
    rw [hpic, I8259.readIRQRequestRegister_running]
    exact h.withPic hwaits hmask
  | readInServiceRegister =>
    refine .inr ⟨_, _, _, rfl, rfl, ?_⟩
    rw [hpic, I8259.readInServiceRegister_running]
    exact h.withPic hwaits hmask
  | irqRegisterHandler irq handler =>
    refine .inr ⟨_, _, _, rfl, rfl, { h with handler := ?_ }⟩
    rw [h.handler]
  | isrRegisterHandler number handler =>
    refine .inr ⟨_, _, _, rfl, rfl,
      { h with gated := h.gated.enableGate number, irq := ?_, fault := ?_ }⟩
    · intro v hlow hhigh
      have hne : v ≠ number := by
        rintro rfl
        rcases hok with hok | hok <;> omega
      exact (Function.update_of_ne hne ..).trans (h.irq v hlow hhigh)
    · intro v hlow
      change Function.update s.isrHandlers number _ v =
        (Function.update A.fault number (some handler) v).map .other
      by_cases hv : v = number
      · rw [hv, Function.update_self, Function.update_self]
        rfl
      · rw [Function.update_of_ne hv, Function.update_of_ne hv]
        exact h.fault v hlow

end SplongleOS
