import SplongleOS.Ata
import SplongleOS.Base.Runs
set_option autoImplicit false

/-! What the registers of a bus hold when a sector command is sent. `g_last_device` is one
variable for all buses, so a select is skipped on a bus that never saw it. -/

namespace SplongleOS
open FuelProg

/-- The device, LBA high, mid and low registers hold the drive-select bit of the handle and
the 28 bits of the sector. -/
def Holds28 (ports : BitVec 16 → BitVec 8) (ata : Ata) (sector : BitVec 32) : Prop :=
  ports ata.devicePort &&& 0x10#8 = (if ata.master then 0#8 else 0x10#8) ∧
    (ports ata.devicePort &&& 0x0F#8).toNat * 0x1000000 + (ports ata.lbaHighPort).toNat * 0x10000 +
      (ports ata.lbaMidPort).toNat * 0x100 + (ports ata.lbaLowPort).toNat = sector.toNat

def AtaCall.target : AtaCall → Option (BitVec 32 × BitVec 16)
  | .identify _ => none
  | .read28 sector _ portBase => some (sector, portBase)
  | .write28 sector _ _ portBase => some (sector, portBase)

def Sent.Addressed (e : Sent) : Prop :=
  ∀ sector portBase, e.call.bind AtaCall.target = some (sector, portBase) →
    e.port = (ataInit portBase).commandPort → e.value = 0x20#8 ∨ e.value = 0x30#8 →
      Holds28 e.before (ataInit portBase) sector

/-- The part of the device register that names the drive and the top of the sector. -/
def DeviceMatches (ports : BitVec 16 → BitVec 8) (ata : Ata) (sector : BitVec 32) : Prop :=
  ports ata.devicePort &&& 0x1F#8 = deviceFor ata sector &&& 0x1F#8

instance (ports : BitVec 16 → BitVec 8) (ata : Ata) (sector : BitVec 32) :
    Decidable (DeviceMatches ports ata sector) := inferInstanceAs (Decidable (_ = _))

variable {δ : Type} {hw : Hardware δ}

/-- The select is not skipped, or it has nothing to change. -/
def Machine.Selects (s : Machine δ) (sector : BitVec 32) (portBase : BitVec 16) : Prop :=
  s.lastDevice ≠ deviceFor (ataInit portBase) sector ∨
    DeviceMatches s.ports (ataInit portBase) sector

def Machine.Coherent (s : Machine δ) (c : AtaCall) : Prop :=
  c.Valid → ∀ sector portBase, c.target = some (sector, portBase) → s.Selects sector portBase

theorem select_bit (r : BitVec 8) : (r &&& 0x10#8 = 0#8 ↔ r.toNat % 32 < 16) ∧
    (r &&& 0x10#8 = 0x10#8 ↔ 16 ≤ r.toNat % 32) := by
  revert r
  decide

theorem and_low5 (r : BitVec 8) : (r &&& 0x1F#8).toNat = r.toNat % 32 := by
  rw [BitVec.toNat_and]
  exact Nat.and_two_pow_sub_one_eq_mod r.toNat 5

theorem and_low4 (r : BitVec 8) : (r &&& 0x0F#8).toNat = r.toNat % 16 := by
  rw [BitVec.toNat_and]
  exact Nat.and_two_pow_sub_one_eq_mod r.toNat 4

theorem or_low4 (r : BitVec 8) (h : r.toNat < 16) :
    (0xE0#8 ||| r).toNat = 0xE0 + r.toNat ∧ (0xF0#8 ||| r).toNat = 0xF0 + r.toNat := by
  revert r
  decide

theorem deviceFor_toNat (ata : Ata) (sector : BitVec 32) : (deviceFor ata sector).toNat =
    (if ata.master then 0xE0 else 0xF0) + sector.toNat / 0x1000000 % 16 := by
  have htop : (((sector >>> 24) &&& 0x0F#32).setWidth 8).toNat = sector.toNat / 0x1000000 % 16 := by
    have hand : ((sector >>> 24) &&& 0x0F#32).toNat = (sector >>> 24).toNat % 16 := by
      rw [BitVec.toNat_and]
      exact Nat.and_two_pow_sub_one_eq_mod _ 4
    rw [BitVec.toNat_setWidth, hand, BitVec.toNat_ushiftRight, Nat.shiftRight_eq_div_pow]
    omega
  have hor := or_low4 (((sector >>> 24) &&& 0x0F#32).setWidth 8) (by omega)
  unfold deviceFor
  split
  · rw [hor.1, htop]
  · rw [hor.2, htop]

theorem holds28_iff {ports : BitVec 16 → BitVec 8} (ata : Ata) {sector : BitVec 32}
    (hsector : sector.toNat ≤ 0x0FFFFFFF) (hlow : ports ata.lbaLowPort = sector.setWidth 8)
    (hmid : ports ata.lbaMidPort = (sector >>> 8).setWidth 8)
    (hhigh : ports ata.lbaHighPort = (sector >>> 16).setWidth 8) :
    Holds28 ports ata sector ↔ DeviceMatches ports ata sector := by
  obtain ⟨hmaster, hslave⟩ := select_bit (ports ata.devicePort)
  have hdevice := deviceFor_toNat ata sector
  have hmatch : DeviceMatches ports ata sector ↔
      (ports ata.devicePort).toNat % 32 = (deviceFor ata sector).toNat % 32 := by
    rw [DeviceMatches, ← BitVec.toNat_inj, and_low5, and_low5]
  rw [hmatch, Holds28, hlow, hmid, hhigh, and_low4]
  simp only [BitVec.toNat_setWidth, BitVec.toNat_ushiftRight, Nat.shiftRight_eq_div_pow]
  cases hm : ata.master with
  | true =>
    simp only [hm, ↓reduceIte] at hdevice ⊢
    rw [hmaster, hdevice]
    omega
  | false =>
    simp only [hm, Bool.false_eq_true, ↓reduceIte] at hdevice ⊢
    rw [hslave, hdevice]
    omega

def Stable (P : Machine δ → Prop) : Prop :=
  ∀ s d l c, P s → P { s with device := d, lastDevice := l, console := c }

section
variable {P E : Machine δ → Prop} (h : Stable P)
include h

theorem Stable.printk (format : String) (args : List Nat) :
    Triple P (printk format args) (fun _ => P) E :=
  .modify fun s hs => h s s.device s.lastDevice _ hs

theorem Stable.inb (port : BitVec 16) : Triple P (inb hw port) (fun _ => P) E :=
  ⟨fun s hs => h s _ s.lastDevice s.console hs⟩

theorem Stable.inw (port : BitVec 16) : Triple P (inw hw port) (fun _ => P) E :=
  ⟨fun s hs => h s _ s.lastDevice s.console hs⟩

theorem Stable.outw (port value : BitVec 16) : Triple P (outw hw port value) (fun _ => P) E :=
  ⟨fun s hs => h s _ s.lastDevice s.console hs⟩

theorem Stable.delay (controlPort : BitVec 16) :
    Triple P (ata420nsDelay hw controlPort) (fun _ => P) E :=
  skip_keeps (.bind (h.inb controlPort) fun _ => .keep _) 15

theorem Stable.pollBsy (ata : Ata) (fuel : Nat) (status : BitVec 8) :
    Keeps P (pollBsy hw ata fuel status) := by
  induction fuel generalizing status with
  | zero => exact .cut
  | succ fuel ih => exact .cases (.bind (h.inb _) fun _ => ih _) (.keep _)

theorem Stable.pollDrq (ata : Ata) (error : String) (fuel : Nat) (status : BitVec 8) :
    Keeps P (pollDrq hw ata error fuel status) := by
  induction fuel generalizing status with
  | zero => exact .cut
  | succ fuel ih =>
    exact .cases (.cases (.bind (h.printk _ _) fun _ => .keep _) (.bind (h.inb _) fun _ => ih _))
      (.keep _)

theorem Stable.pollDrqIgnoring (ata : Ata) (fuel : Nat) (pollsIgnored status : BitVec 8) :
    Keeps P (pollDrqIgnoring hw ata fuel pollsIgnored status) := by
  induction fuel generalizing pollsIgnored status with
  | zero => exact .cut
  | succ fuel ih =>
    exact .cases (.cases (.bind (h.printk _ _) fun _ => .keep _) (.bind (h.inb _) fun _ => ih _ _))
      (.keep _)

theorem Stable.printData (i : BitVec 16) (count : BitVec 32) (rdata : BitVec 16) :
    Keeps P (printData i count rdata) :=
  .cases (.bind (h.printk _ _) fun _ => .cases (h.printk _ _) (.keep _)) (.keep _)

theorem Stable.readSector (ata : Ata) (count : BitVec 32) (n : Nat) (i : BitVec 16) :
    Keeps P (readSector hw ata count n i) := by
  induction n generalizing i with
  | zero => exact .keep _
  | succ n ih => exact .bind (h.inw _) fun _ => .bind (h.printData _ _ _) fun _ => ih _

theorem Stable.writeSector (ata : Ata) (data : Nat → BitVec 8) (count : BitVec 32) (n : Nat)
    (i : BitVec 16) : Keeps P (writeSector hw ata data count n i) := by
  induction n generalizing i with
  | zero => exact .keep _
  | succ n ih => exact .bind (h.outw _ _) fun _ => ih _

theorem Stable.readTransfer (fuel : Nat) (count : BitVec 32) (ata : Ata) :
    Keeps P (readTransfer hw fuel count ata) := by
  unfold SplongleOS.readTransfer readFinish
  refine .bind (h.inb _) fun _ => .bind (h.pollBsy _ _ _) fun _ =>
    .bind (h.pollDrqIgnoring _ _ _ _) fun _ => .cases ?_ (.keep _)
  refine .bind (h.readSector _ _ _ _) fun _ => .bind (h.delay _) fun _ => .bind (h.inb _) fun _ => ?_
  exact .bind (h.pollBsy _ _ _) fun _ => .bind (h.pollDrq _ _ _ _) fun _ => .keep _

/-- The only byte a write sends after its command is the flush. -/
theorem Stable.writeTransfer (fuel : Nat) (data : Nat → BitVec 8) (count : BitVec 32) (ata : Ata)
    (hflush : Keeps P (outb hw ata.commandPort 0xE7#8)) :
    Keeps P (writeTransfer hw fuel data count ata) := by
  unfold SplongleOS.writeTransfer writeFinish writeFlush
  refine .bind (h.delay _) fun _ => .bind (h.inb _) fun _ => .bind (h.pollBsy _ _ _) fun _ =>
    .bind (h.pollDrqIgnoring _ _ _ _) fun _ => .cases ?_ (.keep _)
  refine .bind (h.writeSector _ _ _ _ _) fun _ => .bind (h.delay _) fun _ => .bind (h.inb _) fun _ =>
    .bind (h.pollBsy _ _ _) fun _ => .bind (h.pollDrqIgnoring _ _ _ _) fun _ => .cases ?_ (.keep _)
  exact .bind hflush fun _ => .bind (h.inb _) fun _ => .bind (h.pollBsy _ _ _) fun _ =>
    .bind (h.pollDrqIgnoring _ _ _ _) fun _ => .keep _

end

abbrev AllAddressed (s : Machine δ) : Prop := ∀ e ∈ s.sent, e.Addressed

theorem port_ne {portBase i j : BitVec 16} (h : i ≠ j) : portBase + i ≠ portBase + j := by
  intro heq
  exact h (by bv_omega)

theorem allAddressed_send {s : Machine δ} {c : AtaCall} {port : BitVec 16} {value : BitVec 8}
    (hcall : s.call = some c) (h : AllAddressed s)
    (hno : ∀ sector portBase, c.target = some (sector, portBase) →
      port = (ataInit portBase).commandPort → ¬(value = 0x20#8 ∨ value = 0x30#8)) :
    AllAddressed (s.send hw port value) := by
  refine List.forall_mem_cons.mpr ⟨fun sector portBase htarget hport hvalue => ?_, h⟩
  rw [hcall] at htarget
  exact absurd hvalue (hno sector portBase htarget hport)

section
variable {c : AtaCall} {sector : BitVec 32} {portBase : BitVec 16} {B : Prop}
variable {E : Machine δ → Prop}

structure Ready (c : AtaCall) (sector : BitVec 32) (portBase : BitVec 16) (B : Prop)
    (s : Machine δ) : Prop where
  call : s.call = some c
  sent : AllAddressed s
  device : DeviceMatches s.ports (ataInit portBase) sector ↔ B

theorem stable_ready : Stable (δ := δ) (Ready c sector portBase B) :=
  fun _ _ _ _ h => ⟨h.call, h.sent, h.device⟩

theorem Ready.send {s : Machine δ} (hc : c.target = some (sector, portBase)) {i : BitVec 16}
    (hdevice : i ≠ 6#16) (hcommand : i ≠ 7#16) (value : BitVec 8) (h : Ready c sector portBase B s) :
    Ready c sector portBase B (s.send hw (portBase + i) value) where
  call := h.call
  sent := allAddressed_send h.call h.sent fun sector' portBase' htarget hport => by
    rw [hc, Option.some.injEq, Prod.mk.injEq] at htarget
    obtain ⟨rfl, rfl⟩ := htarget
    exact absurd hport (port_ne hcommand)
  device := by
    rw [← h.device, DeviceMatches, DeviceMatches]
    simp only [Machine.send]
    rw [Function.update_of_ne]
    exact port_ne (Ne.symm hdevice)

theorem outb_ready (hc : c.target = some (sector, portBase)) {i : BitVec 16} (hdevice : i ≠ 6#16)
    (hcommand : i ≠ 7#16) (value : BitVec 8) : Triple (Ready c sector portBase B)
      (outb hw (portBase + i) value) (fun _ => Ready c sector portBase B) E :=
  .modify fun _ h => h.send hc hdevice hcommand value

structure Loaded (c : AtaCall) (sector : BitVec 32) (portBase : BitVec 16) (B : Prop)
    (s : Machine δ) : Prop extends Ready c sector portBase B s where
  low : s.ports (portBase + 3) = sector.setWidth 8
  mid : s.ports (portBase + 4) = (sector >>> 8).setWidth 8
  high : s.ports (portBase + 5) = (sector >>> 16).setWidth 8

theorem Ready.sendLba {s : Machine δ} (hc : c.target = some (sector, portBase))
    (h : Ready c sector portBase B s) : Loaded c sector portBase B
      (((s.send hw (portBase + 3) (sector.setWidth 8)).send hw (portBase + 4)
        ((sector >>> 8).setWidth 8)).send hw (portBase + 5) ((sector >>> 16).setWidth 8)) where
  toReady := ((h.send hc (by decide) (by decide) _).send hc (by decide) (by decide) _).send hc
    (by decide) (by decide) _
  low := by
    simp only [Machine.send]
    rw [Function.update_of_ne (port_ne (by decide)), Function.update_of_ne (port_ne (by decide)),
      Function.update_self]
  mid := by
    simp only [Machine.send]
    rw [Function.update_of_ne (port_ne (by decide)), Function.update_self]
  high := by
    simp only [Machine.send]
    rw [Function.update_self]

theorem sendLba_loads (hc : c.target = some (sector, portBase)) :
    Triple (Ready c sector portBase B) (sendLba hw (ataInit portBase) sector)
      (fun _ => Loaded c sector portBase B) E := ⟨fun _ h => h.sendLba hc⟩

structure Judged (c : AtaCall) (B : Prop) (s : Machine δ) : Prop where
  call : s.call = some c
  sent : AllAddressed s ↔ B

theorem stable_judged : Stable (δ := δ) (Judged c B) := fun _ _ _ _ h => ⟨h.call, h.sent⟩

theorem command_judged (hc : c.target = some (sector, portBase)) (hsector : sector.toNat ≤ 0x0FFFFFFF)
    {value : BitVec 8} (hvalue : value = 0x20#8 ∨ value = 0x30#8) :
    Triple (Loaded c sector portBase B) (outb hw (ataInit portBase).commandPort value)
      (fun _ => Judged c B) E := by
  refine .modify fun s h => ⟨h.call, ?_⟩
  have hholds := holds28_iff (ataInit portBase) hsector h.low h.mid h.high
  rw [← h.device, ← hholds]
  constructor
  · intro hall
    refine hall ⟨s.call, _, value, s.ports⟩ List.mem_cons_self sector portBase ?_ rfl hvalue
    simp only [h.call, Option.bind_some, hc]
  · intro hright
    refine List.forall_mem_cons.mpr ⟨fun sector' portBase' htarget _ _ => ?_, h.sent⟩
    rw [h.call, Option.bind_some, hc, Option.some.injEq, Prod.mk.injEq] at htarget
    obtain ⟨rfl, rfl⟩ := htarget
    exact hright

theorem flush_judged (port : BitVec 16) : Keeps (Judged (δ := δ) c B) (outb hw port 0xE7#8) := by
  refine .modify fun s h => ⟨h.call, ?_⟩
  rw [← h.sent]
  have hno : ¬(0xE7#8 = 0x20#8 ∨ 0xE7#8 = 0x30#8) := by decide
  exact List.forall_mem_cons.trans (and_iff_right fun _ _ _ _ hvalue => absurd hvalue hno)

structure Before (c : AtaCall) (sector : BitVec 32) (portBase : BitVec 16) (B : Prop)
    (s : Machine δ) : Prop where
  call : s.call = some c
  sent : AllAddressed s
  selects : s.Selects sector portBase ↔ B

theorem selectDevice_ready (hc : c.target = some (sector, portBase)) :
    Triple (Before c sector portBase B)
      (selectDevice hw (ataInit portBase) (deviceFor (ataInit portBase) sector))
      (fun _ => Ready c sector portBase B) E := by
  have hlast : Triple (Before c sector portBase B) (getLastDevice (δ := δ))
      (fun last s => Before c sector portBase B s ∧ s.lastDevice = last) E := ⟨fun s h => ⟨h, rfl⟩⟩
  refine .bind hlast fun last => .ite (fun hne => ?_) fun heq => .pure ?_
  · -- the register is written, so it holds the value
    have hwrite : Triple (fun s => Before c sector portBase B s ∧ s.lastDevice = last)
        (outb hw (ataInit portBase).devicePort (deviceFor (ataInit portBase) sector))
        (fun _ => Ready c sector portBase B) E := by
      refine .modify fun s h => ⟨h.1.call, ?_, ?_⟩
      · refine allAddressed_send h.1.call h.1.sent fun sector' portBase' htarget hport => ?_
        rw [hc, Option.some.injEq, Prod.mk.injEq] at htarget
        obtain ⟨rfl, rfl⟩ := htarget
        exact absurd hport (port_ne (by decide))
      · have hb : B := h.1.selects.mp (Or.inl (h.2 ▸ hne))
        refine iff_of_true ?_ hb
        simp only [DeviceMatches, Machine.send, Function.update_self]
    unfold ataDevSelect
    exact .bind hwrite fun _ => .bind (stable_ready.delay _) fun _ =>
      .modify fun s h => stable_ready s s.device _ s.console h
  · rintro s ⟨h, hlast⟩
    refine ⟨h.call, h.sent, ?_⟩
    rw [← h.selects, Machine.Selects, hlast, or_iff_right heq]

theorem read28_judged {count : BitVec 32} (fuel : Nat)
    (hvalid : AtaCall.Valid (.read28 sector count portBase)) :
    Triple (Before (δ := δ) (.read28 sector count portBase) sector portBase B)
      (ataRead28 hw fuel sector count (ataInit portBase))
      (fun _ => Judged (.read28 sector count portBase) B)
      (Judged (.read28 sector count portBase) B) := by
  obtain ⟨hbig, hmuch⟩ := not_refused portBase hvalid
  unfold ataRead28
  rw [if_neg hbig, if_neg hmuch]
  exact .bind (selectDevice_ready rfl) fun _ =>
    .bind (outb_ready rfl (by decide) (by decide) 1#8) fun _ => .bind (sendLba_loads rfl) fun _ =>
      .bind (command_judged rfl hvalid.1 (Or.inl rfl)) fun _ => stable_judged.readTransfer _ _ _

theorem write28_judged {data : Nat → BitVec 8} {count : BitVec 32} (fuel : Nat)
    (hvalid : AtaCall.Valid (.write28 sector data count portBase)) :
    Triple (Before (δ := δ) (.write28 sector data count portBase) sector portBase B)
      (ataWrite28 hw fuel sector data count (ataInit portBase))
      (fun _ => Judged (.write28 sector data count portBase) B)
      (Judged (.write28 sector data count portBase) B) := by
  obtain ⟨hbig, hmuch⟩ := not_refused portBase hvalid
  unfold ataWrite28
  rw [if_neg hbig, if_neg hmuch]
  exact .bind (selectDevice_ready rfl) fun _ =>
    .bind (outb_ready rfl (by decide) (by decide) 0#8) fun _ =>
      .bind (outb_ready rfl (by decide) (by decide) 1#8) fun _ => .bind (sendLba_loads rfl) fun _ =>
        .bind (command_judged rfl hvalid.1 (Or.inr rfl)) fun _ =>
          stable_judged.writeTransfer _ _ _ _ (flush_judged _)

end

structure Silent (s : Machine δ) : Prop where
  call : ∃ c, s.call = some c ∧ c.target = none
  sent : AllAddressed s

theorem stable_silent : Stable (δ := δ) Silent := fun _ _ _ _ h => ⟨h.call, h.sent⟩

theorem outb_silent (port : BitVec 16) (value : BitVec 8) {E : Machine δ → Prop} :
    Triple Silent (outb hw port value) (fun _ => Silent) E := by
  refine .modify fun s h => ⟨h.call, ?_⟩
  obtain ⟨c, hcall, hnone⟩ := h.call
  refine allAddressed_send hcall h.sent fun sector portBase htarget => ?_
  rw [hnone] at htarget
  contradiction

theorem selectDevice_silent (ata : Ata) (device : BitVec 8) {E : Machine δ → Prop} :
    Triple Silent (selectDevice hw ata device) (fun _ => Silent) E := by
  have hlast : Triple Silent (getLastDevice (δ := δ)) (fun _ => Silent) E := ⟨fun _ h => h⟩
  unfold selectDevice ataDevSelect
  exact .bind hlast fun _ => .cases (.bind (outb_silent _ _) fun _ =>
    .bind (stable_silent.delay _) fun _ => .modify fun s h => stable_silent s s.device _ s.console h)
      (.keep _)

theorem readModel_silent (ata : Ata) (n : Nat) : Keeps (Silent (δ := δ)) (readModel hw ata n) := by
  induction n with
  | zero => exact .keep _
  | succ n ih => exact .bind (stable_silent.inw _) fun _ => .bind ih fun _ => .keep _

theorem printModel_silent (model : List (BitVec 8)) : Keeps (Silent (δ := δ)) (printModel model) := by
  induction model with
  | nil => exact .keep _
  | cons c cs ih => exact .bind (stable_silent.printk _ _) fun _ => ih

theorem identifyModel_silent (ata : Ata) : Keeps (Silent (δ := δ)) (identifyModel hw ata) := by
  have hskip : Keeps (Silent (δ := δ)) (skip (do let _ ← inw hw ata.dataPort) 27) :=
    skip_keeps (.bind (stable_silent.inw _) fun _ => .keep _) 27
  unfold identifyModel
  exact .bind hskip fun _ => .bind (readModel_silent _ _) fun _ =>
    .bind (stable_silent.printk _ _) fun _ => .bind (printModel_silent _) fun _ =>
      stable_silent.printk _ _

theorem identify_silent (fuel : Nat) (ata : Ata) : Keeps (Silent (δ := δ)) (ataIdentify hw fuel ata) := by
  have hprint : ∀ format args, Keeps (Silent (δ := δ)) (printk format args) :=
    fun format args => stable_silent.printk format args
  have hcommand : Keeps (Silent (δ := δ)) (identifyCommand hw fuel ata) := by
    unfold identifyCommand
    refine .bind (outb_silent _ _) fun _ => .bind (stable_silent.inb _) fun _ => .cases (hprint _ _) ?_
    refine .bind (stable_silent.inb _) fun _ => .bind (stable_silent.inb _) fun _ =>
      .cases (hprint _ _) ?_
    exact .bind (stable_silent.pollBsy _ _ _) fun _ => .bind (stable_silent.pollDrq _ _ _ _) fun _ =>
      .cases (identifyModel_silent _) (.keep _)
  unfold ataIdentify
  refine .bind (selectDevice_silent _ _) fun _ => .bind (outb_silent _ _) fun _ =>
    .bind (stable_silent.inb _) fun _ => .cases (hprint _ _) ?_
  exact .bind (outb_silent _ _) fun _ => .bind (outb_silent _ _) fun _ =>
    .bind (outb_silent _ _) fun _ => .bind (outb_silent _ _) fun _ => hcommand

theorem before_call {s : Machine δ} {c : AtaCall} {sector : BitVec 32} {portBase : BitVec 16}
    (h : AllAddressed s) :
    Before c sector portBase (s.Selects sector portBase) { s with call := some c } :=
  ⟨rfl, h, Iff.rfl⟩

theorem ataRead28_refused (hw : Hardware δ) (fuel : Nat) {sector count : BitVec 32}
    (portBase : BitVec 16) (h : ¬(sector.toNat ≤ 0x0FFFFFFF ∧ count.toNat ≤ 512)) : ∃ format args,
      ataRead28 hw fuel sector count (ataInit portBase) = printk format args := by
  unfold ataRead28
  split
  · exact ⟨_, _, rfl⟩
  · rename_i hsector
    rw [gt_iff_lt, BitVec.lt_def] at hsector
    have hmuch : count.toNat > (ataInit portBase).bytesPerSector.toNat :=
      Nat.not_le.mp fun hle => h ⟨Nat.not_lt.mp hsector, hle⟩
    exact ⟨_, _, if_pos hmuch⟩

theorem ataWrite28_refused (hw : Hardware δ) (fuel : Nat) {sector count : BitVec 32}
    (data : Nat → BitVec 8) (portBase : BitVec 16)
    (h : ¬(sector.toNat ≤ 0x0FFFFFFF ∧ count.toNat ≤ 512)) : ∃ format args, ataWrite28 hw fuel sector data count (ataInit portBase) = printk format args := by
  unfold ataWrite28
  split
  · exact ⟨_, _, rfl⟩
  · rename_i hsector
    rw [gt_iff_lt, BitVec.lt_def] at hsector
    have hmuch : count.toNat > (ataInit portBase).bytesPerSector.toNat :=
      Nat.not_le.mp fun hle => h ⟨Nat.not_lt.mp hsector, hle⟩
    exact ⟨_, _, if_pos hmuch⟩

theorem selects_iff_coherent {s : Machine δ} {c : AtaCall} {sector : BitVec 32}
    {portBase : BitVec 16} (hc : c.target = some (sector, portBase)) (hvalid : c.Valid) :
    s.Selects sector portBase ↔ s.Coherent c := by
  constructor
  · intro hs _ sector' portBase' htarget
    rw [hc, Option.some.injEq, Prod.mk.injEq] at htarget
    obtain ⟨rfl, rfl⟩ := htarget
    exact hs
  · exact fun h => h hvalid sector portBase hc

theorem callAta_addressed_iff (fuel : Nat) (c : AtaCall) {s : Machine δ} (h : AllAddressed s) :
    AllAddressed (callAta hw fuel c s).2 ↔ s.Coherent c := by
  cases c with
  | identify portBase =>
    have hsilent : Silent { s with call := some (.identify portBase) } := ⟨⟨_, rfl, rfl⟩, h⟩
    refine iff_of_true ((identify_silent fuel (ataInit portBase)).stopped hsilent).sent ?_
    exact fun _ _ _ htarget => absurd htarget (by simp [AtaCall.target])
  | read28 sector count portBase =>
    by_cases hvalid : AtaCall.Valid (.read28 sector count portBase)
    · rw [← selects_iff_coherent rfl hvalid]
      exact ((read28_judged fuel hvalid).stopped (before_call h)).sent
    · obtain ⟨format, args, heq⟩ := ataRead28_refused hw fuel portBase hvalid
      refine iff_of_true ?_ fun hv => absurd hv hvalid
      rw [callAta, AtaCall.run, heq]
      exact h
  | write28 sector data count portBase =>
    by_cases hvalid : AtaCall.Valid (.write28 sector data count portBase)
    · rw [← selects_iff_coherent rfl hvalid]
      exact ((write28_judged fuel hvalid).stopped (before_call h)).sent
    · obtain ⟨format, args, heq⟩ := ataWrite28_refused hw fuel data portBase hvalid
      refine iff_of_true ?_ fun hv => absurd hv hvalid
      rw [callAta, AtaCall.run, heq]
      exact h

def callStep (hw : Hardware δ) (s : Machine δ) (a : AtaCall × Nat) : Option (Machine δ) :=
  match callAta hw a.2 a.1 s with
  | (some _, t) => some t
  | (none, _) => none

def Machine.Fresh (s : Machine δ) : Prop := s.lastDevice = 0#8 ∧ s.sent = []

def AtaRun (hw : Hardware δ) (ok : Machine δ → AtaCall → Prop) : Machine δ → Prop :=
  Runs.Reach (callStep hw) (fun s a => ok s a.1) Machine.Fresh

theorem callStep_some {s t : Machine δ} {a : AtaCall × Nat} (h : callStep hw s a = some t) :
    (callAta hw a.2 a.1 s).2 = t := by
  unfold callStep at h
  split at h
  · rename_i heq
    rw [heq]
    exact Option.some.inj h
  · contradiction

theorem AtaRun.allAddressed {s : Machine δ} (h : AtaRun hw Machine.Coherent s) : AllAddressed s := by
  refine Runs.Reach.invariant (I := AllAddressed) (fun s hs e he => ?_) (fun s a t hi hok hs => ?_) h
  · rw [hs.2] at he
    exact absurd he List.not_mem_nil
  · rw [← callStep_some hs]
    exact (callAta_addressed_iff a.2 a.1 hi).mpr hok

/-- After returned calls that met the condition, the next call, whether it returns or not,
sends no sector command to the wrong place if and only if it meets the condition too. -/
theorem ata_addressing {s : Machine δ} (h : AtaRun hw Machine.Coherent s) :
    AllAddressed s ∧
      ∀ c fuel, AllAddressed (callAta hw fuel c s).2 ↔ s.Coherent c :=
  ⟨h.allAddressed, fun c fuel => callAta_addressed_iff fuel c h.allAddressed⟩

def alwaysReady : Hardware Unit where
  inb _ d := (0x08#8, d)
  inw _ d := (0#16, d)
  outb _ _ d := d
  outw _ _ d := d

def ataStart : Machine Unit := ⟨(), 0#8, fun _ => 0#8, [], none, []⟩

def firstRead : AtaCall × Nat := (.read28 0#32 0#32 0x170#16, 1)

theorem firstRead_returns : ∃ t, callStep alwaysReady ataStart firstRead = some t ∧
    t.lastDevice = 0xF0#8 ∧ t.ports 0x1EE#16 = 0#8 := by
  have hsome : (callStep alwaysReady ataStart firstRead).any
      (fun t => t.lastDevice = 0xF0#8 ∧ t.ports 0x1EE#16 = 0#8) = true := by decide +kernel
  simpa [Option.any_eq_true] using hsome

theorem coherent_ataStart : ataStart.Coherent firstRead.1 := by
  intro _ sector portBase htarget
  simp only [firstRead, AtaCall.target, Option.some.injEq, Prod.mk.injEq] at htarget
  obtain ⟨rfl, rfl⟩ := htarget
  exact Or.inl (by decide)

theorem ata_addressing_first : ∃ t, callStep alwaysReady ataStart firstRead = some t ∧
    AllAddressed t ∧ ∀ c fuel, AllAddressed (callAta alwaysReady fuel c t).2 ↔ t.Coherent c := by
  obtain ⟨t, ht, _⟩ := firstRead_returns
  exact ⟨t, ht, ata_addressing (.next firstRead (.start ⟨rfl, rfl⟩) coherent_ataStart ht)⟩

/-- After a read from the bus at 0x170 one from 0x1E8 skips its select, and the device
register there still names drive 0. -/
theorem ata_misaddressed : ¬∀ (hw : Hardware Unit) (s : Machine Unit) (c : AtaCall) (fuel : Nat),
    AtaRun hw (fun _ _ => True) s → c.Valid → AllAddressed (callAta hw fuel c s).2 := by
  intro hall
  obtain ⟨t, ht, hlast, hport⟩ := firstRead_returns
  have hrun : AtaRun alwaysReady (fun _ _ => True) t := .next firstRead (.start ⟨rfl, rfl⟩) trivial ht
  have hfirst : AllAddressed t :=
    AtaRun.allAddressed (.next firstRead (.start ⟨rfl, rfl⟩) coherent_ataStart ht)
  have hcoherent := (callAta_addressed_iff 1 (.read28 0#32 0#32 0x1E8#16) hfirst).mp
    (hall _ _ _ 1 hrun ⟨by decide, by decide⟩)
  rcases hcoherent ⟨by decide, by decide⟩ 0#32 0x1E8#16 rfl with hne | hmatch
  · exact hne hlast
  · have hdevice : (ataInit 0x1E8#16).devicePort = 0x1EE#16 := by decide
    rw [DeviceMatches, hdevice, hport] at hmatch
    exact absurd hmatch (by decide)

end SplongleOS
