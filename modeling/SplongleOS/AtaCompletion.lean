import SplongleOS.Ata
set_option autoImplicit false

/-! Whether the ATA calls come to an end on a device that keeps to the PIO protocol. The
polls copied from the request phase wait for DRQ where the device is done. -/

namespace SplongleOS
open FuelProg

/-- Status reads until BSY clears, and data words of the current transfer still to move. -/
structure Phase where
  busy : Nat
  pending : Nat
  deriving DecidableEq

def Phase.idle : Phase := ⟨0, 0⟩

def Phase.tick (p : Phase) : Phase := ⟨p.busy - 1, p.pending⟩

variable {δ : Type}

/-- A PIO device behind the ports of `ata`, `view` being the phase it is in. -/
structure Conforms (hw : Hardware δ) (ata : Ata) (view : δ → Phase) : Prop where
  bsy : ∀ d, (hw.inb ata.commandPort d).1 &&& 0x80#8 ≠ 0#8 ↔ 0 < (view d).busy
  drq : ∀ d, (view d).busy = 0 →
    ((hw.inb ata.commandPort d).1 &&& 0x08#8 ≠ 0#8 ↔ 0 < (view d).pending)
  err : ∀ d, view d = .idle → (hw.inb ata.commandPort d).1 &&& 0x01#8 = 0#8
  status : ∀ d, view (hw.inb ata.commandPort d).2 = (view d).tick
  alternate : ∀ d, view (hw.inb ata.controlPort d).2 = view d ∨
    view (hw.inb ata.controlPort d).2 = (view d).tick
  signature : ∀ port ∈ [ata.lbaMidPort, ata.lbaHighPort], ∀ d, view (hw.inb port d).2 = view d
  register : ∀ port ∈ [ata.errorPort, ata.sectorCountPort, ata.lbaLowPort, ata.lbaMidPort,
    ata.lbaHighPort, ata.devicePort, ata.controlPort], ∀ v d, view (hw.outb port v d) = view d
  transfer : ∀ v ∈ [0xEC#8, 0x20#8, 0x30#8], ∀ d, view d = .idle →
    (view (hw.outb ata.commandPort v d)).pending = 256
  readWord : ∀ d n, view d = ⟨0, n + 1⟩ → view (hw.inw ata.dataPort d).2 = ⟨0, n⟩
  writeWord : ∀ d n w, view d = ⟨0, n + 1⟩ → view (hw.outw ata.dataPort w d) = ⟨0, n⟩
  flush : ∀ d, view d = .idle → (view (hw.outb ata.commandPort 0xE7#8 d)).pending = 0

section
variable {hw : Hardware δ} {ata : Ata} {view : δ → Phase} {E : Machine δ → Prop}

def InPhase (view : δ → Phase) (p : Phase) (s : Machine δ) : Prop := view s.device = p

def Pending (view : δ → Phase) (n : Nat) (s : Machine δ) : Prop := (view s.device).pending = n

def Polled (view : δ → Phase) (n : Nat) (status : BitVec 8) (s : Machine δ) : Prop :=
  ∃ busy, view s.device = ⟨busy - 1, n⟩ ∧ (status &&& 0x80#8 ≠ 0#8 ↔ 0 < busy) ∧
    (busy = 0 → (status &&& 0x08#8 ≠ 0#8 ↔ 0 < n)) ∧
    (busy = 0 → n = 0 → status &&& 0x01#8 = 0#8)

def Settled (view : δ → Phase) (n : Nat) (status : BitVec 8) (s : Machine δ) : Prop :=
  view s.device = ⟨0, n⟩ ∧ (status &&& 0x08#8 ≠ 0#8 ↔ 0 < n) ∧ (n = 0 → status &&& 0x01#8 = 0#8)

theorem inb_polled (h : Conforms hw ata view) (n : Nat) :
    Triple (Pending view n) (inb hw ata.commandPort) (Polled view n) E := by
  refine ⟨fun s hn => ⟨(view s.device).busy, ?_, h.bsy _, fun hb => ?_, fun hb h0 => ?_⟩⟩
  · rw [← hn]
    exact h.status s.device
  · rw [← hn]
    exact h.drq _ hb
  · have hidle : view s.device = .idle := by
      have heq : view s.device = ⟨(view s.device).busy, (view s.device).pending⟩ := rfl
      rw [heq, hb, hn, h0]
      rfl
    exact h.err _ hidle

theorem Polled.pending {n : Nat} {status : BitVec 8} {s : Machine δ} (h : Polled view n status s) :
    Pending view n s := by
  obtain ⟨busy, hview, _⟩ := h
  rw [Pending, hview]

theorem inb_polled_idle (h : Conforms hw ata view) :
    Triple (InPhase view .idle) (inb hw ata.commandPort) (Polled view 0) E :=
  (inb_polled h 0).imp (fun _ hs => congrArg Phase.pending hs) fun _ _ hs => hs

theorem pollBsy_settled (h : Conforms hw ata view) (n fuel : Nat) (status : BitVec 8) :
    Triple (Polled view n status) (pollBsy hw ata fuel status) (Settled view n) fun _ => True := by
  induction fuel generalizing status with
  | zero => exact .outOfFuel fun _ _ => trivial
  | succ fuel ih =>
    refine .ite (fun _ => ?_) fun hclear => .pure fun s hs => ?_
    · exact .bind ((inb_polled h n).imp (fun _ hs => hs.pending) fun _ _ hs => hs) fun st => ih st
    · obtain ⟨busy, hview, hbsy, hdrq, herr⟩ := hs
      have hzero : busy = 0 := by
        have hnot := hbsy.not.mp hclear
        omega
      subst hzero
      exact ⟨hview, hdrq rfl, herr rfl⟩

theorem pollDrq_ready {n : Nat} (hn : 0 < n) (error : String) (fuel : Nat)
    (status : BitVec 8) : Triple (Settled view n status) (pollDrq hw ata error fuel status)
      (fun ready s => ready = true ∧ InPhase view ⟨0, n⟩ s) fun _ => True := by
  cases fuel with
  | zero => exact .outOfFuel fun _ _ => trivial
  | succ fuel =>
    refine .ite (fun hclear => ⟨fun s hs => ?_⟩) fun _ => .pure fun s hs => ⟨rfl, hs.1⟩
    exact absurd hclear (hs.2.1.mpr hn)

theorem pollDrqIgnoring_ready {n : Nat} (hn : 0 < n) (fuel : Nat)
    (pollsIgnored status : BitVec 8) :
    Triple (Settled view n status) (pollDrqIgnoring hw ata fuel pollsIgnored status)
      (fun ready s => ready = true ∧ InPhase view ⟨0, n⟩ s) fun _ => True := by
  cases fuel with
  | zero => exact .outOfFuel fun _ _ => trivial
  | succ fuel =>
    refine .ite (fun hclear => ⟨fun s hs => ?_⟩) fun _ => .pure fun s hs => ⟨rfl, hs.1⟩
    exact absurd hclear (hs.2.1.mpr hn)

theorem inb_settled (h : Conforms hw ata view) :
    Triple (InPhase view .idle) (inb hw ata.commandPort) (Settled view 0) E := by
  refine ⟨fun s hs => ⟨?_, ?_, fun _ => h.err s.device hs⟩⟩
  · exact (h.status s.device).trans (congrArg Phase.tick hs)
  · have hdrq := h.drq s.device (congrArg Phase.busy hs)
    rwa [hs] at hdrq

theorem pollDrq_stuck (h : Conforms hw ata view) (error : String) (fuel : Nat) (status : BitVec 8) :
    Triple (Settled view 0 status) (pollDrq hw ata error fuel status) (fun _ _ => False)
      fun _ => True := by
  induction fuel generalizing status with
  | zero => exact .outOfFuel fun _ _ => trivial
  | succ fuel ih =>
    refine .ite (fun _ => .ite (fun herr => ⟨fun s hs => absurd (hs.2.2 rfl) herr⟩) fun _ => ?_)
      fun hset => ⟨fun s hs => absurd (hs.2.1.mp hset) (Nat.lt_irrefl 0)⟩
    exact .bind ((inb_settled h).imp (fun _ hs => hs.1) fun _ _ hs => hs) fun st => ih st

/-- `polls_ignored` is unsigned, so the error branch is dead. -/
theorem pollDrqIgnoring_stuck (h : Conforms hw ata view) (fuel : Nat) (pollsIgnored status : BitVec 8) :
    Triple (Settled view 0 status) (pollDrqIgnoring hw ata fuel pollsIgnored status)
      (fun _ _ => False) fun _ => True := by
  induction fuel generalizing pollsIgnored status with
  | zero => exact .outOfFuel fun _ _ => trivial
  | succ fuel ih =>
    refine .ite (fun _ => .ite (fun herr => absurd herr.2 (by omega)) fun _ => ?_)
      fun hset => ⟨fun s hs => absurd (hs.2.1.mp hset) (Nat.lt_irrefl 0)⟩
    exact .bind ((inb_settled h).imp (fun _ hs => hs.1) fun _ _ hs => hs) fun st => ih _ st

theorem outb_register (h : Conforms hw ata view) {p : Phase} (port : BitVec 16) (value : BitVec 8)
    (hport : port ∈ [ata.errorPort, ata.sectorCountPort, ata.lbaLowPort, ata.lbaMidPort,
      ata.lbaHighPort, ata.devicePort, ata.controlPort]) :
    Triple (InPhase view p) (outb hw port value) (fun _ => InPhase view p) E :=
  .modify fun s hs => (h.register port hport value s.device).trans hs

theorem outb_transfer (h : Conforms hw ata view) {value : BitVec 8}
    (hvalue : value ∈ [0xEC#8, 0x20#8, 0x30#8]) :
    Triple (InPhase view .idle) (outb hw ata.commandPort value) (fun _ => Pending view 256) E :=
  .modify fun s hs => h.transfer value hvalue s.device hs

theorem delay_pending (h : Conforms hw ata view) {n : Nat} :
    Triple (Pending view n) (ata420nsDelay hw ata.controlPort) (fun _ => Pending view n) E := by
  refine skip_keeps (.bind (Q := fun _ => Pending view n) ⟨fun s hs => ?_⟩ fun _ => .keep _) 15
  rcases h.alternate s.device with heq | heq
  · exact (congrArg Phase.pending heq).trans hs
  · exact (congrArg Phase.pending heq).trans hs

theorem delay_idle (h : Conforms hw ata view) : Triple (InPhase view .idle)
    (ata420nsDelay hw ata.controlPort) (fun _ => InPhase view .idle) E := by
  refine skip_keeps (.bind (Q := fun _ => InPhase view .idle) ⟨fun s hs => ?_⟩ fun _ => .keep _) 15
  rcases h.alternate s.device with heq | heq
  · exact heq.trans hs
  · exact heq.trans (congrArg Phase.tick hs)

theorem selectDevice_idle (h : Conforms hw ata view) (device : BitVec 8) : Triple (InPhase view .idle)
    (selectDevice hw ata device) (fun _ => InPhase view .idle) E := by
  have hlast : Triple (InPhase view .idle) (getLastDevice (δ := δ)) (fun _ => InPhase view .idle) E :=
    ⟨fun _ hs => hs⟩
  unfold selectDevice ataDevSelect
  exact .bind hlast fun _ => .cases (.bind (outb_register h _ _ (by simp)) fun _ =>
    .bind (delay_idle h) fun _ => .modify fun _ hs => hs) (.keep _)

theorem sendLba_idle (h : Conforms hw ata view) (sector : BitVec 32) : Triple (InPhase view .idle)
    (sendLba hw ata sector) (fun _ => InPhase view .idle) E :=
  .bind (outb_register h _ _ (by simp)) fun _ => .bind (outb_register h _ _ (by simp)) fun _ =>
    outb_register h _ _ (by simp)

theorem printData_inPhase {p : Phase} (i : BitVec 16) (count : BitVec 32) (rdata : BitVec 16) :
    Triple (InPhase view p) (printData (δ := δ) i count rdata) (fun _ => InPhase view p) E :=
  .cases (.bind (.modify fun _ hs => hs) fun _ => .cases (.modify fun _ hs => hs) (.keep _)) (.keep _)

theorem readSector_idle (h : Conforms hw ata view) (count : BitVec 32) (n : Nat) (i : BitVec 16) :
    Triple (InPhase view ⟨0, n⟩) (readSector hw ata count n i) (fun _ => InPhase view .idle) E := by
  induction n generalizing i with
  | zero => exact .keep _
  | succ n ih =>
    exact .bind (Q := fun _ => InPhase view ⟨0, n⟩) ⟨fun s hs => h.readWord s.device n hs⟩ fun _ =>
      .bind (printData_inPhase _ _ _) fun _ => ih _

theorem writeSector_idle (h : Conforms hw ata view) (data : Nat → BitVec 8) (count : BitVec 32)
    (n : Nat) (i : BitVec 16) : Triple (InPhase view ⟨0, n⟩) (writeSector hw ata data count n i)
      (fun _ => InPhase view .idle) E := by
  induction n generalizing i with
  | zero => exact .keep _
  | succ n ih =>
    exact .bind (Q := fun _ => InPhase view ⟨0, n⟩) ⟨fun s hs => h.writeWord s.device n _ hs⟩
      fun _ => ih _

theorem readFinish_stuck (h : Conforms hw ata view) (fuel : Nat) :
    Triple (InPhase view .idle) (readFinish hw fuel ata) (fun _ _ => False) fun _ => True := by
  unfold readFinish
  refine .bind (delay_idle h) fun _ => .bind (inb_polled_idle h) fun _ =>
    .bind (pollBsy_settled h 0 fuel _) fun _ => .bind (pollDrq_stuck h _ fuel _) fun _ => ?_
  exact .pure fun _ hs => hs

/-- The data phase of a command that moved all its words leads to a poll that never ends. -/
theorem afterRequest_stuck {ready : Bool} {m : Io δ Unit}
    (hm : Triple (InPhase view ⟨0, 256⟩) m (fun _ _ => False) fun _ => True) :
    Triple (fun s => ready = true ∧ InPhase view ⟨0, 256⟩ s) (if ready then m else pure ())
      (fun _ _ => False) fun _ => True := by
  cases ready with
  | true => exact hm.imp (fun _ hs => hs.2) fun _ _ hs => hs
  | false => exact .pure fun _ hs => Bool.noConfusion hs.1

theorem readTransfer_stuck (h : Conforms hw ata view) (hwords : ata.words = 256) (fuel : Nat)
    (count : BitVec 32) : Triple (Pending view 256) (readTransfer hw fuel count ata)
      (fun _ _ => False) fun _ => True := by
  unfold readTransfer
  refine .bind (inb_polled h 256) fun _ => .bind (pollBsy_settled h 256 fuel _) fun _ =>
    .bind (pollDrqIgnoring_ready (by decide) fuel _ _) fun _ => afterRequest_stuck ?_
  rw [hwords]
  exact .bind (readSector_idle h count 256 _) fun _ => readFinish_stuck h fuel

theorem writeFinish_stuck (h : Conforms hw ata view) (fuel : Nat) :
    Triple (InPhase view .idle) (writeFinish hw fuel ata) (fun _ _ => False) fun _ => True := by
  unfold writeFinish
  refine .bind (delay_idle h) fun _ => .bind (inb_polled_idle h) fun _ =>
    .bind (pollBsy_settled h 0 fuel _) fun _ => .bind (pollDrqIgnoring_stuck h fuel _ _) fun _ => ?_
  exact ⟨fun _ hs => hs.elim⟩

theorem writeTransfer_stuck (h : Conforms hw ata view) (hwords : ata.words = 256) (fuel : Nat)
    (data : Nat → BitVec 8) (count : BitVec 32) : Triple (Pending view 256)
      (writeTransfer hw fuel data count ata) (fun _ _ => False) fun _ => True := by
  unfold writeTransfer
  refine .bind (delay_pending h) fun _ => .bind (inb_polled h 256) fun _ =>
    .bind (pollBsy_settled h 256 fuel _) fun _ =>
      .bind (pollDrqIgnoring_ready (by decide) fuel _ _) fun _ => afterRequest_stuck ?_
  rw [hwords]
  exact .bind (writeSector_idle h data count 256 _) fun _ => writeFinish_stuck h fuel

end

section
variable {hw : Hardware δ} {portBase : BitVec 16} {view : δ → Phase}

theorem ataRead28_stuck (h : Conforms hw (ataInit portBase) view) (fuel : Nat)
    {sector count : BitVec 32} (hvalid : AtaCall.Valid (.read28 sector count portBase)) :
    Triple (InPhase view .idle) (ataRead28 hw fuel sector count (ataInit portBase))
      (fun _ _ => False) fun _ => True := by
  obtain ⟨hbig, hmuch⟩ := not_refused portBase hvalid
  unfold ataRead28
  rw [if_neg hbig, if_neg hmuch]
  exact .bind (selectDevice_idle h _) fun _ => .bind (outb_register h _ _ (by simp)) fun _ =>
    .bind (sendLba_idle h sector) fun _ => .bind (outb_transfer h (by simp)) fun _ =>
      readTransfer_stuck h (ataInit_words _) fuel count

theorem ataWrite28_stuck (h : Conforms hw (ataInit portBase) view) (fuel : Nat)
    {sector count : BitVec 32} {data : Nat → BitVec 8}
    (hvalid : AtaCall.Valid (.write28 sector data count portBase)) :
    Triple (InPhase view .idle) (ataWrite28 hw fuel sector data count (ataInit portBase))
      (fun _ _ => False) fun _ => True := by
  obtain ⟨hbig, hmuch⟩ := not_refused portBase hvalid
  unfold ataWrite28
  rw [if_neg hbig, if_neg hmuch]
  exact .bind (selectDevice_idle h _) fun _ => .bind (outb_register h _ _ (by simp)) fun _ =>
    .bind (outb_register h _ _ (by simp)) fun _ => .bind (sendLba_idle h sector) fun _ =>
      .bind (outb_transfer h (by simp)) fun _ => writeTransfer_stuck h (ataInit_words _) fuel data count

def Unfinished (view : δ → Phase) (s : Machine δ) : Prop := (view s.device).pending ≠ 0

variable {E : Machine δ → Prop} {ata : Ata}

theorem skipWords (h : Conforms hw ata view) (k n : Nat) : Triple (InPhase view ⟨0, n + k⟩)
    (skip (do let _ ← inw hw ata.dataPort) n) (fun _ => InPhase view ⟨0, k⟩) E := by
  induction n with
  | zero => rw [Nat.zero_add]; exact .keep _
  | succ n ih =>
    rw [Nat.add_right_comm]
    exact .bind (.bind (Q := fun _ => InPhase view ⟨0, n + k⟩)
      ⟨fun s hs => h.readWord s.device (n + k) hs⟩ fun _ => .keep _) fun _ => ih

theorem readModel_words (h : Conforms hw ata view) (k n : Nat) : Triple (InPhase view ⟨0, n + k⟩)
    (readModel hw ata n) (fun _ => InPhase view ⟨0, k⟩) E := by
  induction n with
  | zero => rw [Nat.zero_add]; exact .keep _
  | succ n ih =>
    rw [Nat.add_right_comm]
    exact .bind (Q := fun _ => InPhase view ⟨0, n + k⟩)
      ⟨fun s hs => h.readWord s.device (n + k) hs⟩ fun _ => .bind ih fun _ => .keep _

theorem printModel_inPhase {p : Phase} (model : List (BitVec 8)) :
    Triple (InPhase view p) (printModel (δ := δ) model) (fun _ => InPhase view p) E := by
  induction model with
  | nil => exact .keep _
  | cons c cs ih => exact .bind (.modify fun _ hs => hs) fun _ => ih

/-- 47 of the 256 words are read. -/
theorem identifyModel_unfinished (h : Conforms hw ata view) :
    Triple (InPhase view ⟨0, 256⟩) (identifyModel hw ata) (fun _ => Unfinished view) E := by
  unfold identifyModel
  refine .bind (skipWords h 229 27) fun _ => .bind (readModel_words h 209 20) fun _ =>
    .bind (Q := fun _ => InPhase view ⟨0, 209⟩) (.modify fun _ hs => hs) fun _ =>
      .bind (printModel_inPhase _) fun _ => .modify fun s hs => ?_
  have hpending : (view s.device).pending = 209 := congrArg Phase.pending hs
  rw [Unfinished, hpending]
  decide

theorem unfinished_of_pending {s : Machine δ} (h : Pending view 256 s) : Unfinished view s := by
  rw [Unfinished, h]
  decide

theorem identifyCommand_unfinished (h : Conforms hw ata view) (fuel : Nat) :
    Triple (InPhase view .idle) (identifyCommand hw fuel ata) (fun _ => Unfinished view)
      fun _ => True := by
  have hprint : ∀ status text, Triple (Polled view 256 status) (printk (δ := δ) text [])
      (fun _ => Unfinished view) fun _ => True :=
    fun _ _ => .modify fun s hs => unfinished_of_pending (Polled.pending hs)
  unfold identifyCommand
  refine .bind (outb_transfer h (by simp)) fun _ => .bind (inb_polled h 256) fun status =>
    .cases (hprint _ _) ?_
  have hsign : ∀ port ∈ [ata.lbaMidPort, ata.lbaHighPort], Triple (Polled view 256 status)
      (inb hw port) (fun _ => Polled view 256 status) fun _ => True := by
    refine fun port hport => ⟨fun s hs => ?_⟩
    obtain ⟨busy, hview, hrest⟩ := hs
    exact ⟨busy, (h.signature port hport s.device).trans hview, hrest⟩
  refine .bind (hsign _ (by simp)) fun _ => .bind (hsign _ (by simp)) fun _ => .cases (hprint _ _) ?_
  refine .bind (pollBsy_settled h 256 fuel _) fun _ => .bind (pollDrq_ready (by decide) _ fuel _)
    fun ready => .ite (fun _ => ?_) fun hready => ⟨fun s hs => absurd hs.1 hready⟩
  exact (identifyModel_unfinished h).imp (fun _ hs => hs.2) fun _ _ hs => hs

theorem ataIdentify_unfinished (h : Conforms hw ata view) (fuel : Nat) :
    Triple (InPhase view .idle) (ataIdentify hw fuel ata) (fun _ => Unfinished view)
      fun _ => True := by
  have hstatus : Triple (InPhase view .idle) (inb hw ata.commandPort)
      (fun status s => status &&& 0x80#8 = 0#8 ∧ InPhase view .idle s) fun _ => True := by
    refine ⟨fun s hs => ⟨?_, (h.status s.device).trans (congrArg Phase.tick hs)⟩⟩
    have hbsy := h.bsy s.device
    rw [hs] at hbsy
    exact not_not.mp (hbsy.not.mpr (Nat.lt_irrefl 0))
  unfold ataIdentify
  refine .bind (selectDevice_idle h _) fun _ => .bind (outb_register h _ _ (by simp)) fun _ =>
    .bind hstatus fun status => .ite (fun hfloat => ⟨fun s hs => ?_⟩) fun _ => ?_
  · rw [hfloat] at hs
    exact absurd hs.1 (by decide)
  · refine Triple.imp ?_ (fun s hs => hs.2) fun _ _ hs => hs
    exact .bind (outb_register h _ _ (by simp)) fun _ => .bind (outb_register h _ _ (by simp)) fun _ =>
      .bind (outb_register h _ _ (by simp)) fun _ => .bind (outb_register h _ _ (by simp)) fun _ =>
        identifyCommand_unfinished h fuel

def AllComplete (hw : Hardware δ) (view : δ → Phase) : List AtaCall → Machine δ → Prop
  | [], _ => True
  | c :: cs, s => ∃ fuel t, callAta hw fuel c s = (some (), t) ∧ view t.device = .idle ∧
      AllComplete hw view cs t

theorem callAta_not_complete (h : Conforms hw (ataInit portBase) view) {s t : Machine δ}
    (hidle : view s.device = .idle) {c : AtaCall} (hvalid : c.Valid) (hport : c.portBase = portBase)
    {fuel : Nat} (hret : callAta hw fuel c s = (some (), t)) : view t.device ≠ .idle := by
  subst hport
  have hstart : InPhase view .idle { s with call := some c } := hidle
  cases c with
  | identify _ =>
    intro hdone
    exact (ataIdentify_unfinished h fuel).returned hstart hret (congrArg Phase.pending hdone)
  | read28 _ _ _ => exact ((ataRead28_stuck h fuel hvalid).returned hstart hret).elim
  | write28 _ _ _ _ => exact ((ataWrite28_stuck h fuel hvalid).returned hstart hret).elim

/-- On a conforming device only the empty sequence of calls completes: IDENTIFY returns with
209 words pending, a read or a write waits forever for DRQ from an idle device. -/
theorem ata_completes_iff (h : Conforms hw (ataInit portBase) view) {s : Machine δ}
    (hidle : view s.device = .idle) {calls : List AtaCall}
    (hvalid : ∀ c ∈ calls, c.Valid ∧ c.portBase = portBase) :
    AllComplete hw view calls s ↔ calls = [] := by
  cases calls with
  | nil => exact iff_of_true trivial rfl
  | cons c cs =>
    refine iff_of_false ?_ (List.cons_ne_nil c cs)
    rintro ⟨fuel, t, hret, hdone, _⟩
    obtain ⟨hv, hport⟩ := hvalid c List.mem_cons_self
    exact callAta_not_complete h hidle hv hport hret hdone

end

def Phase.statusByte (p : Phase) : BitVec 8 :=
  if 0 < p.busy then 0x80#8 else if 0 < p.pending then 0x08#8 else 0#8

def primaryDrive : Hardware Phase where
  inb port p := if port = 0x1F7#16 then (p.statusByte, p.tick) else (0#8, p)
  inw port p := if port = 0x1F0#16 then (0#16, ⟨p.busy, p.pending - 1⟩) else (0#16, p)
  outb port v p := if port = 0x1F7#16 then ⟨3, if v = 0xE7#8 then 0 else 256⟩ else p
  outw port _ p := if port = 0x1F0#16 then ⟨p.busy, p.pending - 1⟩ else p

theorem conforms_primaryDrive : Conforms primaryDrive (ataInit 0x1F0#16) id where
  bsy p := by
    change p.statusByte &&& 0x80#8 ≠ 0#8 ↔ 0 < p.busy
    unfold Phase.statusByte
    split
    · simp_all
    · split <;> simp_all
  drq p hp := by
    change p.statusByte &&& 0x08#8 ≠ 0#8 ↔ 0 < p.pending
    replace hp : p.busy = 0 := hp
    unfold Phase.statusByte
    rw [hp, if_neg (by decide)]
    split <;> simp_all
  err p hp := by
    obtain rfl : p = .idle := hp
    decide
  status p := rfl
  alternate p := Or.inl rfl
  signature port hport p := by
    have hne : port ≠ 0x1F7#16 := by
      rintro rfl
      exact absurd hport (by decide)
    simp [primaryDrive, hne]
  register port hport v p := by
    have hne : port ≠ 0x1F7#16 := by
      rintro rfl
      exact absurd hport (by decide)
    simp [primaryDrive, hne]
  transfer v hv p _ := by
    have hne : v ≠ 0xE7#8 := by
      rintro rfl
      exact absurd hv (by decide)
    simp [primaryDrive, ataInit, hne]
  readWord p n hp := by
    obtain rfl : p = ⟨0, n + 1⟩ := hp
    rfl
  writeWord p n w hp := by
    obtain rfl : p = ⟨0, n + 1⟩ := hp
    rfl
  flush p _ := rfl

def driveStart : Machine Phase := ⟨.idle, 0#8, fun _ => 0#8, [], none, []⟩

theorem ata_completes_iff_primary :
    AllComplete primaryDrive id [.read28 0#32 512#32 0x1F0#16] driveStart ↔
      [AtaCall.read28 0#32 512#32 0x1F0#16] = [] :=
  ata_completes_iff conforms_primaryDrive rfl (by
    intro c hc
    rw [List.mem_singleton] at hc
    subst hc
    exact ⟨⟨by decide, by decide⟩, rfl⟩)

theorem ata_incomplete_primary : ¬∀ (hw : Hardware Phase) (calls : List AtaCall) (s : Machine Phase),
    Conforms hw (ataInit 0x1F0#16) id → s.device = .idle →
      (∀ c ∈ calls, c.Valid ∧ c.portBase = 0x1F0#16) → AllComplete hw id calls s := by
  intro hall
  have hvalid : ∀ c ∈ [AtaCall.identify 0x1F0#16], c.Valid ∧ c.portBase = 0x1F0#16 := by
    intro c hc
    rw [List.mem_singleton] at hc
    subst hc
    exact ⟨trivial, rfl⟩
  obtain ⟨fuel, t, hret, hdone, _⟩ :=
    hall primaryDrive [.identify 0x1F0#16] driveStart conforms_primaryDrive rfl hvalid
  exact callAta_not_complete conforms_primaryDrive (s := driveStart) rfl
    (c := .identify 0x1F0#16) trivial rfl hret hdone

end SplongleOS
