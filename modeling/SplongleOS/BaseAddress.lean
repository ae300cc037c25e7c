import SplongleOS.Pci
set_option autoImplicit false

/-! What `GetBAR` returns. -/

namespace SplongleOS

def Pci.headerType (s : Pci) (bus device function : BitVec 16) : BitVec 32 :=
  (s.register bus device function 0x0C#32 >>> 16) &&& 0x7F#32

def Pci.barRegister (s : Pci) (bus device function bar : BitVec 16) : BitVec 32 :=
  s.register bus device function (0x10#32 + 4#32 * bar.setWidth 32)

def barCount (headertype : BitVec 32) : Nat :=
  if headertype = 0#32 then 6 else if headertype = 1#32 then 2 else 0

def barKind (register : BitVec 32) : BaseAddressRegisterType :=
  if register.getLsbD 0 then .inputOutput else .memoryMapping

def barAddress (register : BitVec 32) : BitVec 32 :=
  match barKind register with
  | .inputOutput => register &&& ~~~0x3#32
  | .memoryMapping => register &&& ~~~0xF#32

/-- A null BAR beyond the count, and else the kind, the address, and for memory the prefetchable
bit. -/
def Decodes (headertype register : BitVec 32) (bar : BitVec 16) (result : BaseAddressRegister) : Prop :=
  if barCount headertype ≤ bar.toNat then result.address = 0#32
  else result.type = barKind register ∧ result.address = barAddress register ∧
    (barKind register = .memoryMapping → result.prefetchable = register.getLsbD 3)

instance (headertype register : BitVec 32) (bar : BitVec 16) (result : BaseAddressRegister) :
    Decidable (Decodes headertype register bar result) := by
  delta Decodes
  exact inferInstance

/-- Whatever is on the stack, the result is what configuration space says. -/
def Determined (s : Pci) (bus device function bar : BitVec 16) : Prop :=
  ∀ garbage, Decodes (s.headerType bus device function) (s.barRegister bus device function bar) bar
    (getBAR garbage s bus device function bar).1

variable {s : Pci} {bus device function bar : BitVec 16} {headertype : BitVec 32}

/-- Where the 8 bits of `max_bars` have wrapped around to a positive number that is above `bar`. -/
def Wrapped (headertype : BitVec 32) (bar : BitVec 16) : Prop :=
  34 ≤ headertype.toNat ∧ headertype.toNat ≤ 65 ∧ bar.toNat + 4 * headertype.toNat < 262 ∨
    98 ≤ headertype.toNat ∧ bar.toNat + 4 * headertype.toNat < 518

theorem headerType_lt (s : Pci) (bus device function : BitVec 16) :
    (s.headerType bus device function).toNat < 128 := by
  rw [Pci.headerType, BitVec.toNat_and]
  exact Nat.lt_succ_of_le Nat.and_le_right

theorem maxBars_eq (h : headertype.toNat < 128) :
    maxBars headertype =
      if (518 - 4 * headertype.toNat) % 256 < 128 then ((518 - 4 * headertype.toNat) % 256 : Nat)
      else 0 := by
  have hbars : ((6#32 - 4#32 * headertype).setWidth 8).toNat = (518 - 4 * headertype.toNat) % 256 := by
    simp only [BitVec.toNat_setWidth, BitVec.toNat_sub, BitVec.toNat_mul, BitVec.toNat_ofNat,
      Nat.reducePow, Nat.reduceMod]
    omega
  have hint := BitVec.toInt_eq_toNat_cond ((6#32 - 4#32 * headertype).setWidth 8)
  rw [hbars] at hint
  rw [maxBars]
  split at hint <;> rw [hint] <;> split_ifs <;> omega

theorem lt_maxBars_iff (h : headertype.toNat < 128) :
    (bar.toNat : Int) < maxBars headertype ↔
      bar.toNat < barCount headertype ∨ Wrapped headertype bar := by
  have hzero : headertype = 0#32 ↔ headertype.toNat = 0 := by
    rw [← BitVec.toNat_inj]
    rfl
  have hone : headertype = 1#32 ↔ headertype.toNat = 1 := by
    rw [← BitVec.toNat_inj]
    rfl
  rw [maxBars_eq h, barCount, Wrapped, if_congr hzero rfl (if_congr hone rfl rfl)]
  generalize headertype.toNat = n at h
  split_ifs <;> omega

theorem pciRead_header : (pciRead s bus device function 0x0E#32).1 &&& 0x7F#32 =
    s.headerType bus device function := rfl

theorem pciRead_bar : (pciRead s bus device function (0x10#32 + 4#32 * bar.setWidth 32)).1 =
    s.barRegister bus device function bar := by
  have haligned : (0x10#32 + 4#32 * bar.setWidth 32) % 4#32 = 0#32 := by
    apply BitVec.eq_of_toNat_eq
    simp only [BitVec.toNat_umod, BitVec.toNat_add, BitVec.toNat_mul, BitVec.toNat_setWidth,
      BitVec.toNat_ofNat, Nat.reducePow, Nat.reduceMod]
    omega
  rw [pciRead_fst, haligned]
  simp [Pci.barRegister]

theorem and_one_eq (v : BitVec 32) : v &&& 0x1#32 = if v.getLsbD 0 then 1#32 else 0#32 := by
  rw [BitVec.and_one_eq_setWidth_ofBool_getLsbD]
  cases v.getLsbD 0 <;> rfl

theorem getBAR_fst (garbage : BaseAddressRegister) :
    (getBAR garbage s bus device function bar).1 =
      if (bar.toNat : Int) ≥ maxBars (s.headerType bus device function) then garbage
      else
        match barKind (s.barRegister bus device function bar) with
        | .inputOutput =>
          { garbage with
            type := .inputOutput
            address := s.barRegister bus device function bar &&& ~~~0x3#32
            prefetchable := false }
        | .memoryMapping =>
          { garbage with
            type := .memoryMapping
            prefetchable := (s.barRegister bus device function bar).getLsbD 3 } := by
  have hvalue : (pciRead (pciRead s bus device function 0x0E#32).2 bus device function
      (0x10#32 + 4#32 * bar.setWidth 32)).1 = s.barRegister bus device function bar := pciRead_bar
  rw [getBAR]
  dsimp only
  rw [pciRead_header, hvalue]
  generalize s.barRegister bus device function bar = v
  by_cases hnull : (bar.toNat : Int) ≥ maxBars (s.headerType bus device function)
  · rw [if_pos hnull, if_pos hnull]
  · rw [if_neg hnull, if_neg hnull, barKind, and_one_eq, and_one_eq, BitVec.getLsbD_ushiftRight]
    cases hkind : v.getLsbD 0 with
    | true => simp
    | false => cases v.getLsbD 3 <;> simp

theorem getBAR_size (garbage : BaseAddressRegister) :
    (getBAR garbage s bus device function bar).1.size = garbage.size := by
  rw [getBAR_fst]
  cases barKind (s.barRegister bus device function bar) <;>
    simp only [apply_ite BaseAddressRegister.size, ite_self]

theorem decodes_null {register : BitVec 32} {result : BaseAddressRegister}
    (h : ¬bar.toNat < barCount headertype) :
    Decodes headertype register bar result ↔ result.address = 0#32 := by
  rw [Decodes, if_pos (Nat.not_lt.mp h)]

theorem not_forall_address {P : BaseAddressRegister → Prop} {a : BitVec 32}
    (h : ∀ garbage, P garbage → garbage.address = a) : ¬∀ garbage, P garbage := by
  intro hall
  have hne := h ⟨false, a + 1#32, 0#32, .memoryMapping⟩ (hall _)
  simp at hne

/-- The result is determined for an I/O BAR below the count, and beyond it where the count has
wrapped around and the BAR is an I/O BAR of port 0. -/
theorem determined_iff (s : Pci) (bus device function bar : BitVec 16) :
    (Determined s bus device function bar ↔
      barKind (s.barRegister bus device function bar) = .inputOutput ∧
        (bar.toNat < barCount (s.headerType bus device function) ∨
          Wrapped (s.headerType bus device function) bar ∧
            s.barRegister bus device function bar &&& ~~~0x3#32 = 0#32)) ∧
      ∀ garbage, (getBAR garbage s bus device function bar).1.size = garbage.size := by
  refine ⟨?_, getBAR_size⟩
  have hlt : (bar.toNat : Int) < maxBars (s.headerType bus device function) ↔ _ :=
    lt_maxBars_iff (headerType_lt s bus device function)
  rw [Determined]
  simp only [getBAR_fst]
  generalize s.headerType bus device function = headertype at hlt
  generalize s.barRegister bus device function bar = register
  by_cases hmax : (bar.toNat : Int) < maxBars headertype
  · simp only [ge_iff_le, Int.not_le.mpr hmax, if_false]
    by_cases hcount : bar.toNat < barCount headertype
    · cases hkind : barKind register with
      | inputOutput =>
        refine iff_of_true (fun garbage => ?_) ⟨rfl, Or.inl hcount⟩
        rw [Decodes, if_neg (Nat.not_le.mpr hcount), barAddress, hkind]
        exact ⟨rfl, rfl, fun h => BaseAddressRegisterType.noConfusion h⟩
      | memoryMapping =>
        refine iff_of_false (not_forall_address (a := barAddress register) fun garbage h => ?_)
          fun h => BaseAddressRegisterType.noConfusion h.1
        rw [Decodes, if_neg (Nat.not_le.mpr hcount)] at h
        exact h.2.1
    · have hwrapped := (hlt.mp hmax).resolve_left hcount
      simp only [decodes_null hcount]
      cases barKind register with
      | inputOutput =>
        constructor
        · intro h
          exact ⟨rfl, Or.inr ⟨hwrapped, h ⟨false, 0#32, 0#32, .memoryMapping⟩⟩⟩
        · intro h _
          exact (h.2.resolve_left hcount).2
      | memoryMapping =>
        exact iff_of_false (not_forall_address (a := 0#32) fun garbage h => h)
          fun h => BaseAddressRegisterType.noConfusion h.1
  · have hnone := not_or.mp (hlt.not.mp hmax)
    simp only [ge_iff_le, Int.not_lt.mp hmax, if_true, decodes_null hnone.1]
    refine iff_of_false (not_forall_address (a := 0#32) fun garbage h => h) fun h => ?_
    cases h.2 with
    | inl hcount => exact hnone.1 hcount
    | inr hwrapped => exact hnone.2 hwrapped.1

def memoryPci : Pci := ⟨0#32, fun id => if id &&& 0xFF#32 = 0x0C#32 then 0#32 else 0xFEBC0000#32⟩

def onStack : BaseAddressRegister := ⟨true, 0xDEADBEEF#32, 0#32, .inputOutput⟩

/-- The address of a memory BAR is left over from the stack, and so is a null BAR. -/
theorem not_determined_memory :
    memoryPci.barRegister 0#16 2#16 0#16 0#16 = 0xFEBC0000#32 ∧
      (getBAR onStack memoryPci 0#16 2#16 0#16 0#16).1.address = 0xDEADBEEF#32 ∧
      ¬Determined memoryPci 0#16 2#16 0#16 0#16 ∧
      (getBAR onStack memoryPci 0#16 2#16 0#16 6#16).1 = onStack ∧
      ¬Determined memoryPci 0#16 2#16 0#16 6#16 := by
  refine ⟨by decide, by decide, fun h => ?_, by decide, fun h => ?_⟩
  · exact absurd (h onStack) (by decide)
  · exact absurd (h onStack) (by decide)

end SplongleOS
