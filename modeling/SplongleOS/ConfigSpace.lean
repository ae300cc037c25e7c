import Mathlib.Tactic.IntervalCases
import SplongleOS.Pci
set_option autoImplicit false

/-! What `PCI_write` does to configuration space, and what `PCI_read` returns after it. -/

namespace SplongleOS

structure InSpace (bus device function : BitVec 16) (registeroffset : BitVec 32) : Prop where
  bus : bus.toNat < 256
  device : device.toNat < 32
  function : function.toNat < 8
  registeroffset : registeroffset.toNat < 256

def dwordByte (v : BitVec 32) (i : Nat) : BitVec 8 := v.extractLsb' (8 * i) 8

variable {bus device function bus' device' function' : BitVec 16}
  {registeroffset registeroffset' value : BitVec 32} {s : Pci}

theorem pciId_bus : (pciId bus device function registeroffset).extractLsb' 16 8 = bus.setWidth 8 := by
  refine BitVec.eq_of_getLsbD_eq fun i hi => ?_
  interval_cases i <;> simp [pciId]

theorem pciId_device :
    (pciId bus device function registeroffset).extractLsb' 11 5 = device.setWidth 5 := by
  refine BitVec.eq_of_getLsbD_eq fun i hi => ?_
  interval_cases i <;> simp [pciId]

theorem pciId_function :
    (pciId bus device function registeroffset).extractLsb' 8 3 = function.setWidth 3 := by
  refine BitVec.eq_of_getLsbD_eq fun i hi => ?_
  interval_cases i <;> simp [pciId]

theorem pciId_offset :
    (pciId bus device function registeroffset).extractLsb' 2 6 = registeroffset.extractLsb' 2 6 := by
  refine BitVec.eq_of_getLsbD_eq fun i hi => ?_
  interval_cases i <;> simp [pciId]

theorem pciId_inj (h : InSpace bus device function registeroffset)
    (h' : InSpace bus' device' function' registeroffset')
    (heq : pciId bus device function registeroffset = pciId bus' device' function' registeroffset') :
    bus = bus' ∧ device = device' ∧ function = function' ∧
      registeroffset.toNat / 4 = registeroffset'.toNat / 4 := by
  have hbus := congrArg (BitVec.extractLsb' 16 8) heq
  have hdevice := congrArg (BitVec.extractLsb' 11 5) heq
  have hfunction := congrArg (BitVec.extractLsb' 8 3) heq
  have hoffset := congrArg (BitVec.extractLsb' 2 6) heq
  rw [pciId_bus, pciId_bus] at hbus
  rw [pciId_device, pciId_device] at hdevice
  rw [pciId_function, pciId_function] at hfunction
  rw [pciId_offset, pciId_offset] at hoffset
  have hbus := congrArg BitVec.toNat hbus
  have hdevice := congrArg BitVec.toNat hdevice
  have hfunction := congrArg BitVec.toNat hfunction
  have hoffset := congrArg BitVec.toNat hoffset
  simp only [BitVec.toNat_setWidth] at hbus hdevice hfunction
  simp only [BitVec.extractLsb'_toNat, Nat.shiftRight_eq_div_pow] at hoffset
  obtain ⟨hb, hd, hf, ho⟩ := h
  obtain ⟨hb', hd', hf', ho'⟩ := h'
  exact ⟨BitVec.eq_of_toNat_eq (by omega), BitVec.eq_of_toNat_eq (by omega),
    BitVec.eq_of_toNat_eq (by omega), by omega⟩

theorem byte_shift (v : BitVec 32) (registeroffset : BitVec 32) (i : Nat) :
    dwordByte (v >>> (8#32 * (registeroffset % 4#32))) i =
      dwordByte v (i + registeroffset.toNat % 4) := by
  have hshift : (8#32 * (registeroffset % 4#32)).toNat = 8 * (registeroffset.toNat % 4) := by
    simp only [BitVec.toNat_mul, BitVec.toNat_umod, BitVec.toNat_ofNat, Nat.reducePow, Nat.reduceMod]
    omega
  rw [BitVec.ushiftRight_eq', hshift]
  refine BitVec.eq_of_getLsbD_eq fun j hj => ?_
  have hindex : 8 * (registeroffset.toNat % 4) + (8 * i + j) =
      8 * (i + registeroffset.toNat % 4) + j := by omega
  simp only [dwordByte, BitVec.getLsbD_extractLsb', BitVec.getLsbD_ushiftRight, hindex]

/-- `s'` is `s` with the bytes of the value from the offset to the end of its dword: they are read
back, the bytes below the offset and all other registers are unchanged. -/
structure Faithful (s s' : Pci) (bus device function : BitVec 16) (registeroffset value : BitVec 32) :
    Prop where
  value : ∀ i, i < 4 - registeroffset.toNat % 4 →
    dwordByte (pciRead s' bus device function registeroffset).1 i = dwordByte value i
  below : ∀ i, i < registeroffset.toNat % 4 →
    dwordByte (s'.register bus device function registeroffset) i =
      dwordByte (s.register bus device function registeroffset) i
  others : ∀ b d f o, InSpace b d f o →
    (b, d, f, o.toNat / 4) ≠ (bus, device, function, registeroffset.toNat / 4) →
    s'.register b d f o = s.register b d f o

/-- What is written goes to the whole dword, unshifted. -/
theorem register_write : (pciWrite s bus device function registeroffset value).register bus device
    function registeroffset = value := by
  rw [Pci.register, pciWrite_config, Function.update_self]

theorem register_write_other (h : InSpace bus device function registeroffset)
    (h' : InSpace bus' device' function' registeroffset')
    (hne : (bus', device', function', registeroffset'.toNat / 4) ≠
      (bus, device, function, registeroffset.toNat / 4)) :
    (pciWrite s bus device function registeroffset value).register bus' device' function'
      registeroffset' = s.register bus' device' function' registeroffset' := by
  rw [Pci.register, pciWrite_config, Function.update_of_ne, Pci.register]
  intro heq
  obtain ⟨rfl, rfl, rfl, hoffset⟩ := pciId_inj h' h heq
  exact hne (by rw [hoffset])

/-- The value is the same moved down by the bytes below the offset, and has the bytes there that
the register has already. -/
def Coincides (s : Pci) (bus device function : BitVec 16) (registeroffset value : BitVec 32) : Prop :=
  (∀ i, i < 4 - registeroffset.toNat % 4 →
      dwordByte value (i + registeroffset.toNat % 4) = dwordByte value i) ∧
    ∀ i, i < registeroffset.toNat % 4 →
      dwordByte value i = dwordByte (s.register bus device function registeroffset) i

/-- A write is a faithful store at aligned offsets, and at others only where the whole dword
happens to be right. -/
theorem faithful_write_iff (h : InSpace bus device function registeroffset) :
    Faithful s (pciWrite s bus device function registeroffset value) bus device function
        registeroffset value ↔
      registeroffset.toNat % 4 = 0 ∨ Coincides s bus device function registeroffset value := by
  have hothers : ∀ b d f o, InSpace b d f o →
      (b, d, f, o.toNat / 4) ≠ (bus, device, function, registeroffset.toNat / 4) →
      (pciWrite s bus device function registeroffset value).register b d f o = s.register b d f o :=
    fun b d f o ho hne => register_write_other h ho hne
  have hread : ∀ i, dwordByte (pciRead (pciWrite s bus device function registeroffset value) bus device
      function registeroffset).1 i = dwordByte value (i + registeroffset.toNat % 4) := by
    intro i
    rw [pciRead_fst, register_write, byte_shift]
  constructor
  · intro hfaithful
    refine Or.inr ⟨fun i hi => ?_, fun i hi => ?_⟩
    · rw [← hread i, hfaithful.value i hi]
    · rw [← hfaithful.below i hi, register_write]
  · intro hcases
    cases hcases with
    | inl haligned =>
      refine ⟨fun i _ => ?_, fun i hi => absurd hi (by omega), hothers⟩
      rw [hread, haligned, Nat.add_zero]
    | inr hcoincides =>
      refine ⟨fun i hi => ?_, fun i hi => ?_, hothers⟩
      · rw [hread, hcoincides.1 i hi]
      · rw [register_write, hcoincides.2 i hi]

def uniformPci : Pci := ⟨0#32, fun _ => 0x11223344#32⟩

theorem faithful_write_iff_aligned :
    Faithful uniformPci (pciWrite uniformPci 0#16 3#16 0#16 0x10#32 5#32) 0#16 3#16 0#16 0x10#32 5#32 ↔
      (0x10#32).toNat % 4 = 0 ∨ Coincides uniformPci 0#16 3#16 0#16 0x10#32 5#32 :=
  faithful_write_iff ⟨by decide, by decide, by decide, by decide⟩

theorem not_faithful_write_middle :
    InSpace 0#16 3#16 0#16 0x0E#32 ∧
      (pciWrite uniformPci 0#16 3#16 0#16 0x0E#32 0xABCD#32).register 0#16 3#16 0#16 0x0E#32 =
        0xABCD#32 ∧
      (pciRead (pciWrite uniformPci 0#16 3#16 0#16 0x0E#32 0xABCD#32) 0#16 3#16 0#16 0x0E#32).1 = 0#32 ∧
      ¬Faithful uniformPci (pciWrite uniformPci 0#16 3#16 0#16 0x0E#32 0xABCD#32) 0#16 3#16 0#16
        0x0E#32 0xABCD#32 := by
  refine ⟨⟨by decide, by decide, by decide, by decide⟩, by decide, by decide, fun hfaithful => ?_⟩
  exact absurd (hfaithful.value 0 (by decide)) (by decide)

end SplongleOS
