import SplongleOS.Pci
import SplongleOS.PrintedText
set_option autoImplicit false

/-! The enumeration of the PCI buses, pci.c, at boot and for `lspci`. -/

namespace SplongleOS
open Stdio

structure PCIDeviceDescriptor where
  portBase : BitVec 32
  interrupt : BitVec 32
  bus : BitVec 16
  device : BitVec 16
  function : BitVec 16
  vendorId : BitVec 16
  deviceId : BitVec 16
  classId : BitVec 8
  subclassId : BitVec 8
  interfaceId : BitVec 8
  revision : BitVec 8
  deriving DecidableEq, Repr

/-- `port_base` stays what it is on the stack. -/
def getDevDescriptor (portBase : BitVec 32) (s : Pci) (bus device function : BitVec 16) :
    PCIDeviceDescriptor × Pci :=
  let (vendorId, s) := pciRead s bus device function 0x00#32
  let (deviceId, s) := pciRead s bus device function 0x02#32
  let (classId, s) := pciRead s bus device function 0x0B#32
  let (subclassId, s) := pciRead s bus device function 0x0A#32
  let (interfaceId, s) := pciRead s bus device function 0x09#32
  let (revision, s) := pciRead s bus device function 0x08#32
  let (interrupt, s) := pciRead s bus device function 0x3C#32
  (⟨portBase, interrupt, bus, device, function, vendorId.setWidth 16, deviceId.setWidth 16,
    classId.setWidth 8, subclassId.setWidth 8, interfaceId.setWidth 8, revision.setWidth 8⟩, s)

def doYouHaveFunctions (s : Pci) (bus device : BitVec 16) : Bool × Pci :=
  let (header, s) := pciRead s bus device 0#16 0x0E#32
  (header &&& 1#32 <<< 7 ≠ 0#32, s)

structure DriverManager where
  drivers : Nat → BitVec 32
  numDrivers : Nat

def DriverManager.addDriver (m : DriverManager) (driver : BitVec 32) : DriverManager :=
  ⟨Function.update m.drivers m.numDrivers driver, m.numDrivers + 1⟩

/-- In no case of the two switches there is more than a `break`. -/
def getDriver (_dev : PCIDeviceDescriptor) : BitVec 32 := 0#32

/-- `manager` is the g_Manager of driver.c. The header makes it static, so hal.c and shell.c pass
`SelectDrivers` copies of their own, which nothing changes. -/
structure PciHost where
  pci : Pci
  manager : DriverManager
  console : Console

def PciHost.print (s : PciHost) (format : String) (v : BitVec 32) : PciHost :=
  let args : List Arg := [.number .none false v]
  let stack := fun i => (args.flatMap Arg.words).getD i 0#32
  { s with console := s.console.printk stack (fun _ => []) (format.toList.map ch) }

section

-- What the locals without a value find on the stack, at each function and BAR.
variable (portBase : Nat × Nat × Nat → BitVec 32)
  (garbage : Nat × Nat × Nat → Nat → BaseAddressRegister)

def PciHost.tryBar (garbage : Nat → BaseAddressRegister) (bus device function : BitVec 16) (x : PCIDeviceDescriptor × PciHost)
    (barNum : Nat) : PCIDeviceDescriptor × PciHost :=
  let (dev, s) := x
  let (bar, pci) := getBAR (garbage barNum) s.pci bus device function (BitVec.ofNat 16 barNum)
  let dev := if bar.address ≠ 0#32 ∧ bar.type = .inputOutput then
      { dev with portBase := bar.address } else dev
  let driver := getDriver dev
  (dev, { s with pci := pci, manager := if driver ≠ 0#32 then s.manager.addDriver driver
    else s.manager })

def PciHost.tryFunction (bus device : Nat) (s : PciHost) (function : Nat) : PciHost :=
  let (dev, pci) := getDevDescriptor (portBase (bus, device, function)) s.pci (BitVec.ofNat 16 bus)
    (BitVec.ofNat 16 device) (BitVec.ofNat 16 function)
  let s := { s with pci := pci }
  if dev.vendorId = 0x0000#16 ∨ dev.vendorId = 0xFFFF#16 then s
  else
    let (dev, s) := (List.range 6).foldl (PciHost.tryBar (garbage (bus, device, function))
      (BitVec.ofNat 16 bus) (BitVec.ofNat 16 device) (BitVec.ofNat 16 function)) (dev, s)
    let s := s.print "PCI BUS 0x%x " (BitVec.ofNat 32 bus)
    let s := s.print "DEVICE 0x%x " (BitVec.ofNat 32 device)
    let s := s.print "FUNCTION 0x%x " (BitVec.ofNat 32 function)
    let s := s.print "= VENDOR 0x%x " (dev.vendorId.setWidth 32)
    s.print "DEV ID 0x%x\n" (dev.deviceId.setWidth 32)

def PciHost.tryDevice (bus : Nat) (s : PciHost) (device : Nat) : PciHost :=
  let (multiple, pci) := doYouHaveFunctions s.pci (BitVec.ofNat 16 bus) (BitVec.ofNat 16 device)
  let s := { s with pci := pci }
  let numFunctions := if multiple then 8 else 1
  (List.range numFunctions).foldl (PciHost.tryFunction portBase garbage bus device) s

def selectDrivers (s : PciHost) : PciHost :=
  (List.range 8).foldl
    (fun s bus => (List.range 32).foldl (PciHost.tryDevice portBase garbage bus) s) s

end

def Pci.vendor (s : Pci) (bus device function : Nat) : BitVec 16 :=
  (s.register (BitVec.ofNat 16 bus) (BitVec.ofNat 16 device) (BitVec.ofNat 16 function)
    0x00#32).setWidth 16

def Pci.deviceId (s : Pci) (bus device function : Nat) : BitVec 16 :=
  (s.register (BitVec.ofNat 16 bus) (BitVec.ofNat 16 device) (BitVec.ofNat 16 function)
    0x00#32 >>> 16).setWidth 16

def Pci.multifunction (s : Pci) (bus device : Nat) : Bool :=
  (s.register (BitVec.ofNat 16 bus) (BitVec.ofNat 16 device) 0#16 0x0C#32).getLsbD 23

def Pci.present (s : Pci) (bus device function : Nat) : Bool :=
  s.vendor bus device function != 0x0000#16 && s.vendor bus device function != 0xFFFF#16

/-- The functions that are listed, by number. -/
def Pci.Listed (s : Pci) (place : Nat × Nat × Nat) : Prop :=
  place.1 < 8 ∧ place.2.1 < 32 ∧ place.2.2 < (if s.multifunction place.1 place.2.1 then 8 else 1) ∧
    s.vendor place.1 place.2.1 place.2.2 ≠ 0x0000#16 ∧
    s.vendor place.1 place.2.1 place.2.2 ≠ 0xFFFF#16

def field (label : String) (n : Nat) (c : Char) : List (BitVec 8) :=
  label.toList.map ch ++ (hexadecimal n ++ [ch c])

def Pci.row (s : Pci) (place : Nat × Nat × Nat) : List (BitVec 8) :=
  field "PCI BUS 0x" place.1 ' ' ++ (field "DEVICE 0x" place.2.1 ' ' ++
    (field "FUNCTION 0x" place.2.2 ' ' ++
    (field "= VENDOR 0x" (s.vendor place.1 place.2.1 place.2.2).toNat ' ' ++
    field "DEV ID 0x" (s.deviceId place.1 place.2.1 place.2.2).toNat '\n')))

def Earlier : Nat × Nat × Nat → Nat × Nat × Nat → Prop :=
  Prod.Lex (· < ·) (Prod.Lex (· < ·) (· < ·))

def Pci.listing (s : Pci) : List (Nat × Nat × Nat) :=
  (List.range 8).flatMap fun bus => (List.range 32).flatMap fun device =>
    (List.range (if s.multifunction bus device then 8 else 1)).flatMap fun function =>
      if s.present bus device function then [(bus, device, function)] else []

variable {s t u : PciHost} {text more : List (BitVec 8)}

/-- A part of the enumeration puts `text` on the console, and of the rest only the address that is
selected last is another. -/
structure Printed (s t : PciHost) (text : List (BitVec 8)) : Prop where
  config : t.pci.config = s.pci.config
  manager : t.manager = s.manager
  console : t.console = text.foldl Console.putc s.console

theorem Printed.refl (s : PciHost) : Printed s s [] := ⟨rfl, rfl, rfl⟩

theorem Printed.trans (h : Printed s t text) (h' : Printed t u more) : Printed s u (text ++ more) where
  config := h'.config.trans h.config
  manager := h'.manager.trans h.manager
  console := by rw [List.foldl_append, ← h.console, h'.console]

theorem Printed.loop {f : PciHost → Nat → PciHost} {shown : Nat → List (BitVec 8)} {is : List Nat}
    (h : ∀ t i, i ∈ is → t.pci.config = s.pci.config → Printed t (f t i) (shown i)) :
    Printed s (is.foldl f s) (is.flatMap shown) := by
  induction is generalizing s with
  | nil => exact .refl s
  | cons i is ih =>
    have hfirst := h s i List.mem_cons_self rfl
    rw [List.flatMap_cons]
    refine hfirst.trans (ih fun t j hj hconfig => ?_)
    exact h t j (List.mem_cons_of_mem _ hj) (hconfig.trans hfirst.config)

theorem printed_field (format label : String) (c : Char)
    (hformat : format.toList.map ch = lineFormat [(label, .hex 0#32)] (String.singleton c))
    (hplain : Plain label ∧ Plain (String.singleton c)) (s : PciHost) (v : BitVec 32) :
    Printed s (s.print format v) (field label v.toNat c) := by
  have hline := s.console.printk_line (fun _ => []) [(label, .hex v)] hformat
    (by simpa using hplain.1) hplain.2
  have hshown : lineShown (fun _ => []) [(label, .hex v)] (String.singleton c) =
      field label v.toNat c := by
    simp [lineShown, field, Slot.shown]
  rw [hshown] at hline
  exact ⟨rfl, rfl, hline⟩

theorem getBAR_config (garbage : BaseAddressRegister) (s : Pci) (bus device function bar : BitVec 16) :
    (getBAR garbage s bus device function bar).2.config = s.config := by
  unfold getBAR
  dsimp only
  split
  · rfl
  · split <;> rfl

theorem tryBar_spec (garbage : Nat → BaseAddressRegister) (bus device function : BitVec 16)
    (x : PCIDeviceDescriptor × PciHost) (is : List Nat) :
    let y := is.foldl (PciHost.tryBar garbage bus device function) x
    y.1.vendorId = x.1.vendorId ∧ y.1.deviceId = x.1.deviceId ∧ Printed x.2 y.2 [] := by
  induction is generalizing x with
  | nil => exact ⟨rfl, rfl, .refl _⟩
  | cons i is ih =>
    let x' := PciHost.tryBar garbage bus device function x i
    obtain ⟨hvendor, hdevice, hrest⟩ := ih x'
    have hturn : x'.1.vendorId = x.1.vendorId ∧ x'.1.deviceId = x.1.deviceId := by
      dsimp only [x', PciHost.tryBar]
      split <;> exact ⟨rfl, rfl⟩
    have hfirst : Printed x.2 x'.2 [] :=
      ⟨getBAR_config (garbage i) x.2.pci bus device function _, rfl, rfl⟩
    exact ⟨hvendor.trans hturn.1, hdevice.trans hturn.2, hfirst.trans hrest⟩

theorem getDevDescriptor_spec (portBase : BitVec 32) (s : Pci) (bus device function : Nat) :
    let found := getDevDescriptor portBase s (BitVec.ofNat 16 bus) (BitVec.ofNat 16 device)
      (BitVec.ofNat 16 function)
    found.1.vendorId = s.vendor bus device function ∧
      found.1.deviceId = s.deviceId bus device function ∧ found.2.config = s.config :=
  ⟨rfl, rfl, rfl⟩

theorem doYouHaveFunctions_spec (s : Pci) (bus device : Nat) :
    let asked := doYouHaveFunctions s (BitVec.ofNat 16 bus) (BitVec.ofNat 16 device)
    asked.1 = s.multifunction bus device ∧ asked.2.config = s.config := by
  have hread : (pciRead s (BitVec.ofNat 16 bus) (BitVec.ofNat 16 device) 0#16 0x0E#32).1 =
      s.register (BitVec.ofNat 16 bus) (BitVec.ofNat 16 device) 0#16 0x0C#32 >>> 16 := rfl
  have hbit (v : BitVec 32) : decide (v >>> 16 &&& 1#32 <<< 7 ≠ 0#32) = v.getLsbD 23 := by
    have hpow : 1#32 <<< 7 = BitVec.twoPow 32 7 := rfl
    rw [hpow, BitVec.and_twoPow, BitVec.getLsbD_ushiftRight]
    cases v.getLsbD 23 <;> rfl
  refine ⟨?_, rfl⟩
  rw [Pci.multifunction, ← hbit, ← hread]
  rfl

theorem Pci.congr {s t : Pci} (h : t.config = s.config) : t.present = s.present ∧ t.row = s.row ∧
    t.multifunction = s.multifunction := by
  cases s
  cases t
  subst h
  exact ⟨rfl, rfl, rfl⟩

section

variable (portBase : Nat × Nat × Nat → BitVec 32)
  (garbage : Nat × Nat × Nat → Nat → BaseAddressRegister)

theorem printed_function (s : PciHost)
    (bus device function : Nat) (hbus : bus < 8) (hdevice : device < 32) (hfunction : function < 8) :
    Printed s (s.tryFunction portBase garbage bus device function)
      (if s.pci.present bus device function then s.pci.row (bus, device, function) else []) := by
  obtain ⟨hvendor, hid, hconfig⟩ := getDevDescriptor_spec (portBase (bus, device, function)) s.pci
    bus device function
  unfold PciHost.tryFunction
  dsimp only
  generalize getDevDescriptor (portBase (bus, device, function)) s.pci (BitVec.ofNat 16 bus)
    (BitVec.ofNat 16 device) (BitVec.ofNat 16 function) = found at hvendor hid hconfig ⊢
  have hread : Printed s { s with pci := found.2 } [] := ⟨hconfig, rfl, rfl⟩
  by_cases habsent : found.1.vendorId = 0x0000#16 ∨ found.1.vendorId = 0xFFFF#16
  · have hnone : s.pci.present bus device function = false := by
      rw [Pci.present, ← hvendor]
      rcases habsent with h | h <;> rw [h] <;> rfl
    rw [if_pos habsent, hnone]
    exact hread
  · obtain ⟨hzero, hones⟩ := not_or.mp habsent
    have hthere : s.pci.present bus device function = true := by
      rw [Pci.present, ← hvendor, Bool.and_eq_true, bne_iff_ne, bne_iff_ne]
      exact ⟨hzero, hones⟩
    obtain ⟨hvendor', hid', hbars⟩ := tryBar_spec (garbage (bus, device, function))
      (BitVec.ofNat 16 bus) (BitVec.ofNat 16 device) (BitVec.ofNat 16 function) (found.1, { s with pci := found.2 })
      (List.range 6)
    rw [if_neg habsent, hthere]
    generalize (List.range 6).foldl _ _ = y at hvendor' hid' hbars ⊢
    have hrow := (hread.trans hbars).trans <|
      (printed_field "PCI BUS 0x%x " "PCI BUS 0x" ' ' (by decide) (by decide) _
        (BitVec.ofNat 32 bus)).trans <|
      (printed_field "DEVICE 0x%x " "DEVICE 0x" ' ' (by decide) (by decide) _
        (BitVec.ofNat 32 device)).trans <|
      (printed_field "FUNCTION 0x%x " "FUNCTION 0x" ' ' (by decide) (by decide) _
        (BitVec.ofNat 32 function)).trans <|
      (printed_field "= VENDOR 0x%x " "= VENDOR 0x" ' ' (by decide) (by decide) _
        (y.1.vendorId.setWidth 32)).trans <|
      printed_field "DEV ID 0x%x\n" "DEV ID 0x" '\n' (by decide) (by decide) _
        (y.1.deviceId.setWidth 32)
    have hnumber (n : Nat) (hn : n < 32) : (BitVec.ofNat 32 n).toNat = n := by
      rw [BitVec.toNat_ofNat, Nat.mod_eq_of_lt (by omega)]
    have hword (v : BitVec 16) : (v.setWidth 32).toNat = v.toNat := by
      rw [BitVec.toNat_setWidth, Nat.mod_eq_of_lt (by omega)]
    rw [hnumber bus (by omega), hnumber device hdevice, hnumber function (by omega), hword, hword,
      hvendor', hid', hvendor, hid, List.append_nil, List.nil_append] at hrow
    rw [if_pos rfl, hvendor', hid', hvendor, hid]
    exact hrow

theorem printed_device (s : PciHost) (bus device : Nat) (hbus : bus < 8) (hdevice : device < 32) :
    Printed s (s.tryDevice portBase garbage bus device)
      ((List.range (if s.pci.multifunction bus device then 8 else 1)).flatMap fun function =>
        if s.pci.present bus device function then s.pci.row (bus, device, function) else []) := by
  obtain ⟨hmultiple, hconfig⟩ := doYouHaveFunctions_spec s.pci bus device
  unfold PciHost.tryDevice
  dsimp only
  rw [hmultiple]
  generalize (doYouHaveFunctions s.pci (BitVec.ofNat 16 bus) (BitVec.ofNat 16 device)).2 = pci
    at hconfig ⊢
  have hread : Printed s { s with pci := pci } [] := ⟨hconfig, rfl, rfl⟩
  refine hread.trans (Printed.loop fun t function hmem hsame => ?_)
  have hfunction : function < 8 := by
    have hlt := List.mem_range.mp hmem
    split at hlt <;> omega
  obtain ⟨hpresent, hrow, -⟩ := Pci.congr (hsame.trans hconfig)
  rw [← hpresent, ← hrow]
  exact printed_function portBase garbage t bus device function hbus hdevice hfunction

theorem printed_drivers (s : PciHost) :
    Printed s (selectDrivers portBase garbage s) (s.pci.listing.flatMap s.pci.row) := by
  have hshow (b : Bool) (place : Nat × Nat × Nat) :
      (if b then [place] else []).flatMap s.pci.row = if b then s.pci.row place else [] := by
    cases b
    · rfl
    · exact List.append_nil _
  rw [Pci.listing, List.flatMap_assoc]
  refine Printed.loop fun t bus hbus hsame => ?_
  rw [List.flatMap_assoc]
  refine Printed.loop fun u device hdevice hthen => ?_
  rw [List.flatMap_assoc]
  simp only [hshow]
  obtain ⟨hpresent, hrow, hmultiple⟩ := Pci.congr (hthen.trans hsame)
  rw [← hpresent, ← hrow, ← hmultiple]
  exact printed_device portBase garbage u bus device (List.mem_range.mp hbus)
    (List.mem_range.mp hdevice)

end

theorem mem_listing (s : Pci) (place : Nat × Nat × Nat) : place ∈ s.listing ↔ s.Listed place := by
  obtain ⟨bus, device, function⟩ := place
  have hthere : s.present bus device function = true ↔
      s.vendor bus device function ≠ 0x0000#16 ∧ s.vendor bus device function ≠ 0xFFFF#16 := by
    rw [Pci.present, Bool.and_eq_true, bne_iff_ne, bne_iff_ne]
  have hone (b d f : Nat) : (bus, device, function) ∈
      (if s.present b d f then [(b, d, f)] else []) ↔
        s.present b d f = true ∧ bus = b ∧ device = d ∧ function = f := by
    cases s.present b d f <;> simp
  simp only [Pci.listing, List.mem_flatMap, List.mem_range, hone, Pci.Listed, ← hthere]
  constructor
  · rintro ⟨b, hb, d, hd, f, hf, hpresent, rfl, rfl, rfl⟩
    exact ⟨hb, hd, hf, hpresent⟩
  · rintro ⟨hb, hd, hf, hpresent⟩
    exact ⟨bus, hb, device, hd, function, hf, hpresent, rfl, rfl, rfl⟩

theorem pairwise_turns {n : Nat} {listed : Nat → List (Nat × Nat × Nat)}
    (hturn : ∀ i, (listed i).Pairwise Earlier)
    (hnext : ∀ i j, i < j → ∀ x ∈ listed i, ∀ y ∈ listed j, Earlier x y) :
    ((List.range n).flatMap listed).Pairwise Earlier :=
  List.pairwise_flatMap.mpr
    ⟨fun i _ => hturn i, List.pairwise_lt_range.imp fun h => hnext _ _ h⟩

theorem pairwise_listing (s : Pci) : s.listing.Pairwise Earlier := by
  have hone {b : Bool} {place x : Nat × Nat × Nat} (h : x ∈ if b then [place] else []) :
      x = place := by
    cases b
    · cases h
    · exact List.mem_singleton.mp h
  refine pairwise_turns (fun bus => pairwise_turns (fun device => pairwise_turns (fun function => ?_)
    fun f g hfg x hx y hy => ?_) fun d e hde x hx y hy => ?_) fun a b hab x hx y hy => ?_
  · split
    · exact List.pairwise_singleton ..
    · exact .nil
  · rw [hone hx, hone hy]
    exact .right _ (.right _ hfg)
  · obtain ⟨f, -, hf⟩ := List.mem_flatMap.mp hx
    obtain ⟨g, -, hg⟩ := List.mem_flatMap.mp hy
    rw [hone hf, hone hg]
    exact .right _ (.left _ _ hde)
  · obtain ⟨d, -, hd⟩ := List.mem_flatMap.mp hx
    obtain ⟨f, -, hf⟩ := List.mem_flatMap.mp hd
    obtain ⟨e, -, he⟩ := List.mem_flatMap.mp hy
    obtain ⟨g, -, hg⟩ := List.mem_flatMap.mp he
    rw [hone hf, hone hg]
    exact .left _ _ hab

/-- Whatever is on the stack, every function that is there is listed once, in order, no driver is
added and configuration space is left as it is. -/
theorem functions_listed (portBase : Nat × Nat × Nat → BitVec 32)
    (garbage : Nat × Nat × Nat → Nat → BaseAddressRegister) (s : PciHost) :
    ∃ places : List (Nat × Nat × Nat), places.Pairwise Earlier ∧
      (∀ place, place ∈ places ↔ s.pci.Listed place) ∧
      Printed s (selectDrivers portBase garbage s) (places.flatMap s.pci.row) :=
  ⟨s.pci.listing, pairwise_listing s.pci, mem_listing s.pci, printed_drivers portBase garbage s⟩

end SplongleOS
