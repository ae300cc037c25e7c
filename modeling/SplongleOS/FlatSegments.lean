import SplongleOS.Gdt
set_option autoImplicit false

/-! What i686_GDT_Initialize leaves: segments in which every address is itself. -/

namespace SplongleOS
open ByteMemory WordStack

theorem BytesAt.within {m m' : Mem} {a : Nat} {l : List (BitVec 8)} {S : Nat → Prop}
    (h : BytesAt m a l) (hw : Within S m m') (hout : ∀ x, a ≤ x → x < a + l.length → ¬S x) :
    BytesAt m' a l := by
  induction l generalizing a with
  | nil => exact trivial
  | cons v l ih =>
    rw [List.length_cons] at hout
    refine ⟨(hw a (hout a (Nat.le_refl a) (by omega))).trans h.1, ?_⟩
    exact ih h.2 fun x hx hlt => hout x (by omega) (by omega)

theorem BytesAt.append {m : Mem} {a : Nat} {l l' : List (BitVec 8)} (h : BytesAt m a (l ++ l')) :
    BytesAt m a l ∧ BytesAt m (a + l.length) l' := by
  induction l generalizing a with
  | nil => exact ⟨trivial, h⟩
  | cons v l ih =>
    obtain ⟨hl, hl'⟩ := ih h.2
    rw [List.length_cons, Nat.add_comm l.length 1, ← Nat.add_assoc]
    exact ⟨⟨h.1, hl⟩, hl'⟩

theorem BytesAt.entry {m : Mem} {a : Nat} {es : List GDTEntry}
    (h : BytesAt m a (es.flatMap GDTEntry.bytes)) (i : Nat) (hi : i < es.length) :
    BytesAt m (a + 8 * i) es[i].bytes := by
  induction es generalizing a i with
  | nil => exact absurd hi (Nat.not_lt_zero i)
  | cons e es ih =>
    rw [List.flatMap_cons] at h
    obtain ⟨he, hrest⟩ := h.append
    cases i with
    | zero => exact he
    | succ i =>
      have hnext := ih (a := a + 8) hrest i (Nat.lt_of_succ_lt_succ hi)
      rw [Nat.mul_succ, Nat.add_comm (8 * i) 8, ← Nat.add_assoc]
      exact hnext

theorem BytesAt.word {m : Mem} {a : Nat} {w : BitVec 32} (h : BytesAt m a (wordBytes w)) :
    load32 m a = w := by
  obtain ⟨h0, h1, h2, h3, _⟩ := h
  rw [load32, h3, h2, h1, h0, append_extractLsb]

theorem descriptor_store8 (m : Mem) (a : Nat) (v : BitVec 8) :
    descriptor (store8 m (a + 5) v) a = { descriptor m a with access := v } := by
  have hne : ∀ k, k ≠ 5 → store8 m (a + 5) v (a + k) = m (a + k) := by
    intro k hk
    have hx : a + k ≠ a + 5 := by omega
    exact if_neg hx
  have h0 : store8 m (a + 5) v a = m a := hne 0 (by decide)
  have h5 : store8 m (a + 5) v (a + 5) = v := if_pos rfl
  simp only [descriptor, hne 7 (by decide), hne 4 (by decide), hne 3 (by decide), hne 2 (by decide),
    hne 6 (by decide), hne 1 (by decide), h0, h5]

structure Descriptor.Flat (d : Descriptor) : Prop where
  base : d.base = 0#32
  limit : d.limit = 0xFFFFFFFF#32
  present : d.access.getLsbD 7 = true

def flatCode : Descriptor := ⟨0#32, 0xFFFFFFFF#32, 0x9B#8, 0xC#4⟩

def flatData : Descriptor := ⟨0#32, 0xFFFFFFFF#32, 0x93#8, 0xC#4⟩

theorem flat_flatCode : flatCode.Flat := ⟨rfl, rfl, rfl⟩

theorem flat_flatData : flatData.Flat := ⟨rfl, rfl, rfl⟩

variable {s t : SegCpu} {r : SegName}

theorem SegCpu.linear_flat {off : BitVec 32} {n : Nat} (h : (s.seg r).cache.Flat)
    (hfit : off.toNat + n ≤ 0x100000000) : s.linear r off n = some off.toNat := by
  have hlimit : (0xFFFFFFFF#32).toNat = 0xFFFFFFFF := rfl
  rw [SegCpu.linear, h.base, h.limit, BitVec.zero_add, if_pos ⟨h.present, by omega⟩]

theorem SegCpu.push_flat (h : (s.seg .ss).cache.Flat) (hroom : 4 ≤ s.esp.toNat) (v : BitVec 32) :
    s.push v = some { s with
      esp := (WordStack.push (s.esp, s.mem) v).1
      mem := (WordStack.push (s.esp, s.mem) v).2 } := by
  have hnat := push_toNat (p := (s.esp, s.mem)) (v := v) hroom
  have hlt := s.esp.isLt
  have hfit : (s.esp - 4#32).toNat + 4 ≤ 0x100000000 := by
    change (s.esp - 4#32).toNat = s.esp.toNat - 4 at hnat
    omega
  rw [SegCpu.push, SegCpu.linear_flat h hfit]
  rfl

theorem SegCpu.readWord_flat {off : BitVec 32} (h : (s.seg r).cache.Flat)
    (hfit : off.toNat + 4 ≤ 0x100000000) : s.readWord r off = some (load32 s.mem off.toNat) := by
  rw [SegCpu.readWord, SegCpu.linear_flat h hfit, Option.map_some]

theorem SegCpu.pop_flat (h : (s.seg .ss).cache.Flat) (hfit : s.esp.toNat + 4 ≤ 0x100000000) :
    s.pop = some (load32 s.mem s.esp.toNat, { s with esp := s.esp + 4#32 }) := by
  rw [SegCpu.pop, SegCpu.readWord_flat h hfit, Option.map_some]

theorem select_eq_some {selector : BitVec 16} {a : Nat} {d : Descriptor} :
    s.select selector = some (a, d) ↔
      (selector.getLsbD 2 = false ∧ (selector &&& 0xFFF8#16).toNat + 7 ≤ s.gdtrLimit.toNat) ∧
        a = (s.gdtrBase + (selector &&& 0xFFF8#16).setWidth 32).toNat ∧ d = descriptor s.mem a := by
  unfold SegCpu.select
  by_cases hin : selector.getLsbD 2 = false ∧
      (selector &&& 0xFFF8#16).toNat + 7 ≤ s.gdtrLimit.toNat
  · simp only [hin, and_self, ↓reduceIte, Option.some.injEq, Prod.mk.injEq, true_and]
    constructor
    · rintro ⟨rfl, rfl⟩
      exact ⟨rfl, rfl⟩
    · rintro ⟨rfl, rfl⟩
      exact ⟨rfl, rfl⟩
  · simp only [hin, ↓reduceIte, reduceCtorEq, false_and]

theorem descriptor_within {m m' : Mem} {a : Nat} {S : Nat → Prop} (hw : Within S m m')
    (hout : ∀ k < 8, ¬S (a + k)) : descriptor m' a = descriptor m a := by
  have h0 : m' a = m a := hw _ (hout 0 (by decide))
  simp only [descriptor, h0, hw _ (hout 1 (by decide)), hw _ (hout 2 (by decide)),
    hw _ (hout 3 (by decide)), hw _ (hout 4 (by decide)), hw _ (hout 5 (by decide)),
    hw _ (hout 6 (by decide)), hw _ (hout 7 (by decide))]

/-- The selector 0x10 names the data descriptor at `a`, marked as accessed or not. -/
def DataAt (s : SegCpu) (a : Nat) : Prop :=
  ∃ access, access ||| 1#8 = flatData.access ∧ s.select 0x10#16 = some (a, { flatData with access })

theorem forData_flatData (access : BitVec 8) (h : access ||| 1#8 = flatData.access) (r : SegName) :
    Descriptor.forData { flatData with access } r 0#2 0#2 = true := by
  have hall : ∀ v : BitVec 8, v ||| 1#8 = 0x93#8 → v = 0x93#8 ∨ v = 0x92#8 := by decide
  rcases hall access h with rfl | rfl <;> cases r <;> decide

theorem movSeg_data {a : Nat} (h : DataAt s a) (hcpl : s.cpl = 0#2) :
    ∃ mem, s.movSeg r 0x10#16 =
        some { s with seg := Function.update s.seg r ⟨0x10#16, flatData⟩, mem } ∧
      Within (· = a + 5) s.mem mem ∧
      SegCpu.select { s with seg := Function.update s.seg r ⟨0x10#16, flatData⟩, mem } 0x10#16 =
        some (a, flatData) := by
  obtain ⟨access, haccess, hselect⟩ := h
  obtain ⟨hin, ha, hd⟩ := select_eq_some.mp hselect
  have hrpl : (0x10#16).extractLsb' 0 2 = 0#2 := rfl
  refine ⟨store8 s.mem (a + 5) flatData.access, ?_, within_store8 s.mem _ rfl,
    select_eq_some.mpr ⟨hin, ha, ?_⟩⟩
  · rw [SegCpu.movSeg, if_neg (by decide), hselect, Option.bind_some]
    simp only [hcpl, hrpl, forData_flatData access haccess r, ↓reduceIte, SegCpu.load, haccess]
  · rw [descriptor_store8, ← hd]

theorem movSeg_again {a : Nat} (h : s.select 0x10#16 = some (a, flatData)) (hcpl : s.cpl = 0#2)
    (hr : s.seg r = ⟨0x10#16, flatData⟩) : s.movSeg r 0x10#16 = some s := by
  obtain ⟨_, _, hd⟩ := select_eq_some.mp h
  have hrpl : (0x10#16).extractLsb' 0 2 = 0#2 := rfl
  have hmark : flatData.access ||| 1#8 = flatData.access := by decide
  have hseg : Function.update s.seg r ⟨0x10#16, flatData⟩ = s.seg := by
    rw [← hr, Function.update_eq_self]
  have hmem : store8 s.mem (a + 5) flatData.access = s.mem := by
    funext x
    by_cases hx : x = a + 5
    · have hbyte : flatData.access = s.mem (a + 5) := congrArg Descriptor.access hd
      rw [store8, if_pos hx, hbyte, hx]
    · rw [store8, if_neg hx]
  rw [SegCpu.movSeg, if_neg (by decide), h, Option.bind_some]
  simp only [hcpl, hrpl, forData_flatData flatData.access hmark r, ↓reduceIte, SegCpu.load, hmark, hseg,
    hmem]

theorem foldlM_movSeg {a : Nat} (r : SegName) (rs : List SegName) (hcs : .cs ∉ r :: rs)
    (h : DataAt s a) (hcpl : s.cpl = 0#2) :
    ∃ mem, (r :: rs).foldlM (fun s r => s.movSeg r 0x10#16) s =
        some { s with
          seg := fun r' => if r' ∈ r :: rs then ⟨0x10#16, flatData⟩ else s.seg r'
          mem } ∧
      Within (· = a + 5) s.mem mem ∧
      SegCpu.select { s with
        seg := fun r' => if r' ∈ r :: rs then ⟨0x10#16, flatData⟩ else s.seg r'
        mem } 0x10#16 = some (a, flatData) := by
  obtain ⟨mem, hmov, hwithin, hselect⟩ := movSeg_data (r := r) h hcpl
  induction rs generalizing s r mem with
  | nil =>
    have hseg : Function.update s.seg r ⟨0x10#16, flatData⟩ =
        fun r' => if r' ∈ [r] then (⟨0x10#16, flatData⟩ : SegReg) else s.seg r' := by
      funext r'
      simp [Function.update_apply]
    rw [hseg] at hmov hselect
    exact ⟨mem, by rw [List.foldlM_cons, hmov]; rfl, hwithin, hselect⟩
  | cons r₂ rs ih =>
    obtain ⟨hr, hrs⟩ := not_or.mp (List.mem_cons.not.mp hcs)
    have hcpl' : SegCpu.cpl { s with
        seg := Function.update s.seg r ⟨0x10#16, flatData⟩
        mem } = 0#2 := by
      rw [← hcpl]
      simp only [SegCpu.cpl, Function.update_of_ne hr]
    have hdata : DataAt { s with
        seg := Function.update s.seg r ⟨0x10#16, flatData⟩
        mem } a := ⟨flatData.access, rfl, hselect⟩
    obtain ⟨mem₂, hmov₂, hwithin₂, hselect₂⟩ := movSeg_data (r := r₂) hdata hcpl'
    obtain ⟨mem', hmovs, hwithin', hselect'⟩ :=
      ih r₂ hrs hdata hcpl' mem₂ hmov₂ hwithin₂ hselect₂
    have hseg : (fun r' => if r' ∈ r₂ :: rs then ⟨0x10#16, flatData⟩
        else Function.update s.seg r ⟨0x10#16, flatData⟩ r') =
          fun r' => if r' ∈ r :: r₂ :: rs then (⟨0x10#16, flatData⟩ : SegReg) else s.seg r' := by
      funext r'
      by_cases heq : r' = r
      · subst heq
        simp
      · simp [heq]
    rw [hseg] at hmovs hselect'
    refine ⟨mem', ?_, hwithin.trans hwithin', hselect'⟩
    rw [List.foldlM_cons, hmov]
    exact hmovs

theorem SegCpu.pop_holds {w : BitVec 32} {ws : List (BitVec 32)} (hss : (s.seg .ss).cache.Flat)
    (hfit : s.esp.toNat + 4 < 0x100000000) (hstack : Holds s.mem s.esp.toNat (w :: ws)) :
    s.pop = some (w, { s with esp := s.esp + 4#32 }) ∧ (s.esp + 4#32).toNat = s.esp.toNat + 4 ∧
      Holds s.mem (s.esp + 4#32).toNat ws := by
  have hnext : (s.esp + 4#32).toNat = s.esp.toNat + 4 := by
    rw [BitVec.toNat_add, show (4#32).toNat = 4 from rfl, Nat.mod_eq_of_lt (by omega)]
  refine ⟨?_, hnext, ?_⟩
  · rw [SegCpu.pop_flat hss (by omega), hstack.1]
  · rw [hnext]
    exact hstack.2

theorem retf_code {a : Nat} {eip : BitVec 32} {ws : List (BitVec 32)}
    (hss : (s.seg .ss).cache.Flat) (hcpl : s.cpl = 0#2) (hfit : s.esp.toNat + 8 < 0x100000000)
    (hstack : Holds s.mem s.esp.toNat (eip :: 0x08#32 :: ws))
    (hselect : s.select 0x08#16 = some (a, { flatCode with access := 0x9A#8 })) :
    s.retf = some { s with
      esp := s.esp + 4#32 + 4#32
      eip
      seg := Function.update s.seg .cs ⟨0x08#16, flatCode⟩
      mem := store8 s.mem (a + 5) flatCode.access } := by
  obtain ⟨hpop, hnext, hstack⟩ := SegCpu.pop_holds hss (by omega) hstack
  obtain ⟨hpop', _, _⟩ := SegCpu.pop_holds (s := { s with esp := s.esp + 4#32 }) hss
    (by dsimp only; omega) hstack
  have hselect' : ({ s with esp := s.esp + 4#32 + 4#32 } : SegCpu).select 0x08#16 =
      some (a, { flatCode with access := 0x9A#8 }) := hselect
  have hcpl' : ({ s with esp := s.esp + 4#32 + 4#32 } : SegCpu).cpl = 0#2 := hcpl
  have hok : Descriptor.forCode { flatCode with access := 0x9A#8 } 0#2 ((0x08#16).extractLsb' 0 2) =
      true := by decide
  have hlimit : eip.toNat ≤ (0xFFFFFFFF#32).toNat := by
    have hlt := eip.isLt
    have hmax : (0xFFFFFFFF#32).toNat = 0xFFFFFFFF := rfl
    omega
  have hsel : (0x08#32).setWidth 16 = 0x08#16 := rfl
  have hnull : ¬0x08#16 &&& 0xFFFC#16 = 0#16 := by decide
  rw [SegCpu.retf, hpop, Option.bind_eq_bind, Option.bind_some]
  simp only [hpop', Option.bind_eq_bind, Option.bind_some, hsel, hnull, ↓reduceIte, hselect', hcpl']
  rw [if_pos ⟨hok, hlimit⟩]
  rfl

/-- The table and its descriptor, as the loader left them. -/
structure GdtReady (m : Mem) (desc table : BitVec 32) : Prop where
  entries : BytesAt m table.toNat (gGDT.flatMap GDTEntry.bytes)
  pointer : BytesAt m desc.toNat (gGDTDescriptor table)
  tableFits : table.toNat + 24 ≤ 0x100000000
  descFits : desc.toNat + 6 ≤ 0x100000000

theorem GdtReady.within {m m' : Mem} {desc table : BitVec 32} {S : Nat → Prop}
    (h : GdtReady m desc table) (hw : Within S m m')
    (htable : ∀ x, table.toNat ≤ x → x < table.toNat + 24 → ¬S x)
    (hdesc : ∀ x, desc.toNat ≤ x → x < desc.toNat + 6 → ¬S x) : GdtReady m' desc table :=
  ⟨h.entries.within hw htable, h.pointer.within hw hdesc, h.tableFits, h.descFits⟩

theorem GdtReady.code {m : Mem} {desc table : BitVec 32} (h : GdtReady m desc table) :
    descriptor m (table.toNat + 8) = { flatCode with access := 0x9A#8 } := by
  rw [descriptor_gdtEntry _ _ _ _ (h.entries.entry 1 (by decide))]
  rfl

theorem GdtReady.data {m : Mem} {desc table : BitVec 32} (h : GdtReady m desc table) :
    descriptor m (table.toNat + 16) = { flatData with access := 0x92#8 } := by
  rw [descriptor_gdtEntry _ _ _ _ (h.entries.entry 2 (by decide))]
  rfl

theorem GdtReady.lgdt {desc table : BitVec 32} (h : GdtReady s.mem desc table)
    (hds : (s.seg .ds).cache.Flat) :
    s.lgdt desc = some { s with gdtrLimit := 23#16, gdtrBase := table } := by
  obtain ⟨hlimit, hbase⟩ := BytesAt.append (l := halfBytes _) h.pointer
  obtain ⟨h0, h1, _⟩ := hlimit
  have haddress : load32 s.mem (desc.toNat + 2) = table := hbase.word
  have hsize : s.mem (desc.toNat + 1) ++ s.mem desc.toNat = 23#16 := by
    rw [h1, h0]
    rfl
  rw [SegCpu.lgdt, SegCpu.linear_flat hds h.descFits, Option.map_some, haddress, hsize]

theorem select_code {table : BitVec 32} {d : Descriptor} (hfits : table.toNat + 24 ≤ 0x100000000)
    (hbase : s.gdtrBase = table) (hlimit : s.gdtrLimit = 23#16)
    (hd : descriptor s.mem (table.toNat + 8) = d) :
    s.select 0x08#16 = some (table.toNat + 8, d) := by
  have ha : (table + (0x08#16 &&& 0xFFF8#16).setWidth 32).toNat = table.toNat + 8 := by
    rw [BitVec.toNat_add, show ((0x08#16 &&& 0xFFF8#16).setWidth 32).toNat = 8 from rfl,
      Nat.mod_eq_of_lt (by omega)]
  rw [select_eq_some, hbase, hlimit, ha]
  exact ⟨by decide, rfl, hd.symm⟩

theorem select_data {table : BitVec 32} {d : Descriptor} (hfits : table.toNat + 24 ≤ 0x100000000)
    (hbase : s.gdtrBase = table) (hlimit : s.gdtrLimit = 23#16)
    (hd : descriptor s.mem (table.toNat + 16) = d) :
    s.select 0x10#16 = some (table.toNat + 16, d) := by
  have ha : (table + (0x10#16 &&& 0xFFF8#16).setWidth 32).toNat = table.toNat + 16 := by
    rw [BitVec.toNat_add, show ((0x10#16 &&& 0xFFF8#16).setWidth 32).toNat = 16 from rfl,
      Nat.mod_eq_of_lt (by omega)]
  rw [select_eq_some, hbase, hlimit, ha]
  exact ⟨by decide, rfl, hd.symm⟩

theorem load32_low {m : Mem} {a : Nat} {w : BitVec 32} (h : load32 m a = w) :
    m (a + 1) ++ m a = w.setWidth 16 := by
  subst h
  refine BitVec.eq_of_getLsbD_eq fun i hi => ?_
  simp only [BitVec.getLsbD_setWidth, load32, BitVec.getLsbD_append]
  by_cases hlow : i < 8
  · simp [hlow, hi]
  · have hhigh : i - 8 < 8 := by omega
    simp [hlow, hi, hhigh]

theorem SegCpu.push_holds {ws : List (BitVec 32)} (hss : (s.seg .ss).cache.Flat)
    (hroom : 4 ≤ s.esp.toNat) (hstack : Holds s.mem s.esp.toNat ws) (v : BitVec 32) :
    ∃ mem, s.push v = some { s with esp := s.esp - 4#32, mem } ∧
      (s.esp - 4#32).toNat = s.esp.toNat - 4 ∧ Holds mem (s.esp - 4#32).toNat (v :: ws) ∧
      Within (fun x => s.esp.toNat - 4 ≤ x ∧ x < s.esp.toNat) s.mem mem := by
  have hnat : (s.esp - 4#32).toNat = s.esp.toNat - 4 := push_toNat (p := (s.esp, s.mem)) (v := v) hroom
  obtain ⟨hholds, hwithin⟩ := Holds.push (p := (s.esp, s.mem)) (v := v) hstack hroom
  refine ⟨_, SegCpu.push_flat hss hroom v, hnat, hholds, ?_⟩
  rw [← hnat]
  exact hwithin

theorem gdtLoadEntry_flat {desc table ret : BitVec 32} {ws : List (BitVec 32)} (reload : BitVec 32)
    (hss : (s.seg .ss).cache.Flat) (hds : (s.seg .ds).cache.Flat)
    (hroom : 12 ≤ s.esp.toNat) (hfit : s.esp.toNat + 16 < 0x100000000)
    (hstack : Holds s.mem s.esp.toNat (ret :: desc :: 0x08#32 :: ws))
    (hready : GdtReady s.mem desc table)
    (hdesc : ∀ x, desc.toNat ≤ x → x < desc.toNat + 6 → x < s.esp.toNat - 12 ∨ s.esp.toNat ≤ x)
    (htable : ∀ x, table.toNat ≤ x → x < table.toNat + 24 →
      x < s.esp.toNat - 12 ∨ s.esp.toNat ≤ x) :
    ∃ mem, gdtLoadEntry reload s = some
        { s with
          eax := 0x08#32
          ebp := s.esp - 4#32
          esp := s.esp - 4#32 - 4#32 - 4#32
          gdtrLimit := 23#16
          gdtrBase := table
          mem } ∧
      (s.esp - 4#32 - 4#32 - 4#32).toNat = s.esp.toNat - 12 ∧
      Holds mem (s.esp - 4#32 - 4#32 - 4#32).toNat
        (reload :: 0x08#32 :: s.ebp :: ret :: desc :: 0x08#32 :: ws) ∧
      Within (fun x => s.esp.toNat - 12 ≤ x ∧ x < s.esp.toNat) s.mem mem := by
  obtain ⟨eax, ebp, esp, eip, gdtrLimit, gdtrBase, seg, mem⟩ := s
  dsimp only at *
  obtain ⟨mem1, hpush1, hnat1, hholds1, hwithin1⟩ := SegCpu.push_holds
    (s := ⟨eax, ebp, esp, eip, gdtrLimit, gdtrBase, seg, mem⟩) hss (by dsimp only; omega) hstack ebp
  dsimp only at hpush1 hnat1 hwithin1
  have hready1 : GdtReady mem1 desc table := hready.within hwithin1
    (fun x hx hlt hS => by have h := htable x hx hlt; omega)
    fun x hx hlt hS => by have h := hdesc x hx hlt; omega
  have hread : ∀ (t : SegCpu) (i : Nat) (w : BitVec 32), (t.seg .ss).cache.Flat → t.mem = mem1 →
      (ebp :: ret :: desc :: 0x08#32 :: ws)[i]? = some w → i < 4 →
        t.readWord .ss (esp - 4#32 + BitVec.ofNat 32 (4 * i)) = some w := by
    intro t i w ht hmem hi hlt
    have hoff : (esp - 4#32 + BitVec.ofNat 32 (4 * i)).toNat = (esp - 4#32).toNat + 4 * i := by
      rw [BitVec.toNat_add, BitVec.toNat_ofNat, Nat.mod_eq_of_lt (by omega : 4 * i < 2 ^ 32),
        Nat.mod_eq_of_lt (by omega)]
    obtain ⟨hlen, hw⟩ := List.getElem?_eq_some_iff.mp hi
    rw [SegCpu.readWord_flat ht (by omega), hoff, hmem, hholds1.word i hlen, hw]
  have hword8 : SegCpu.readWord ⟨eax, esp - 4#32, esp - 4#32, eip, gdtrLimit, gdtrBase, seg, mem1⟩
      .ss (esp - 4#32 + 8#32) = some desc := hread _ 2 desc hss rfl rfl (by decide)
  have hlgdt := hready1.lgdt
    (s := ⟨desc, esp - 4#32, esp - 4#32, eip, gdtrLimit, gdtrBase, seg, mem1⟩) hds
  have hword12 : SegCpu.readWord ⟨desc, esp - 4#32, esp - 4#32, eip, 23#16, table, seg, mem1⟩
      .ss (esp - 4#32 + 12#32) = some 0x08#32 := hread _ 3 0x08#32 hss rfl rfl (by decide)
  obtain ⟨mem2, hpush2, hnat2, hholds2, hwithin2⟩ := SegCpu.push_holds
    (s := ⟨0x08#32, esp - 4#32, esp - 4#32, eip, 23#16, table, seg, mem1⟩) hss
    (by dsimp only; omega) hholds1 0x08#32
  dsimp only at hpush2 hnat2 hwithin2
  obtain ⟨mem3, hpush3, hnat3, hholds3, hwithin3⟩ := SegCpu.push_holds
    (s := ⟨0x08#32, esp - 4#32, esp - 4#32 - 4#32, eip, 23#16, table, seg, mem2⟩) hss
    (by dsimp only; omega) hholds2 reload
  dsimp only at hpush3 hnat3 hwithin3
  refine ⟨mem3, ?_, by omega, hholds3, ?_⟩
  · simp only [gdtLoadEntry, hpush1, hword8, hlgdt, hword12, hpush2, hpush3, Option.bind_eq_bind,
      Option.bind_some]
  · refine ((hwithin1.mono fun x hx => ?_).trans (hwithin2.mono fun x hx => ?_)).trans
      (hwithin3.mono fun x hx => ?_)
    all_goals omega

/-- The segment registers after the five moves. -/
def dataSegments (seg : SegName → SegReg) (r : SegName) : SegReg :=
  if r ∈ [SegName.ds, .es, .fs, .gs, .ss] then ⟨0x10#16, flatData⟩ else seg r

theorem reloadCs_flat {a : Nat} {ebp ret desc : BitVec 32}
    (hss : (s.seg .ss).cache.Flat) (hcpl : s.cpl = 0#2) (hesp : s.ebp = s.esp)
    (hfit : s.esp.toNat + 20 < 0x100000000)
    (hstack : Holds s.mem s.esp.toNat [ebp, ret, desc, 0x08#32, 0x10#32])
    (hdata : DataAt s a) (hapart : a + 5 < s.esp.toNat ∨ s.esp.toNat + 20 ≤ a + 5) :
    ∃ mem, reloadCs s = some
        { s with
          eax := s.eax.extractLsb' 16 16 ++ 0x10#16
          ebp
          esp := s.esp + 4#32 + 4#32
          eip := ret
          seg := dataSegments s.seg
          mem } ∧
      Within (· = a + 5) s.mem mem ∧
      SegCpu.select { s with seg := dataSegments s.seg, mem } 0x10#16 = some (a, flatData) := by
  obtain ⟨eax, ebp', esp, eip, gdtrLimit, gdtrBase, seg, mem⟩ := s
  dsimp only at *
  subst hesp
  have hoff : (ebp' + 16#32).toNat = ebp'.toNat + 4 * 4 := by
    rw [BitVec.toNat_add, show (16#32).toNat = 16 from rfl, Nat.mod_eq_of_lt (by omega)]
  have hhalf : SegCpu.readHalf ⟨eax, ebp', ebp', eip, gdtrLimit, gdtrBase, seg, mem⟩ .ss
      (ebp' + 16#32) = some 0x10#16 := by
    have hlow := load32_low (hstack.word 4 (by simp))
    rw [SegCpu.readHalf, SegCpu.linear_flat hss (by omega), Option.map_some, hoff]
    exact congrArg some hlow
  have hdata' : DataAt ⟨eax.extractLsb' 16 16 ++ 0x10#16, ebp', ebp', eip, gdtrLimit, gdtrBase, seg,
      mem⟩ a := hdata
  obtain ⟨mem', hmovs, hwithin, hselect⟩ :=
    foldlM_movSeg .ds [.es, .fs, .gs, .ss] (by decide) hdata' hcpl
  dsimp only at hmovs hwithin
  have hstack' : Holds mem' ebp'.toNat [ebp, ret, desc, 0x08#32, 0x10#32] := by
    refine hstack.within hwithin fun x hx hlt heq => ?_
    change x < ebp'.toNat + 20 at hlt
    omega
  have hss' : (dataSegments seg .ss).cache.Flat := flat_flatData
  obtain ⟨hpop, hnext, hstack'⟩ := SegCpu.pop_holds
    (s := ⟨eax.extractLsb' 16 16 ++ 0x10#16, ebp', ebp', eip, gdtrLimit, gdtrBase, dataSegments seg,
      mem'⟩) hss' (by dsimp only; omega) hstack'
  dsimp only at hpop hnext hstack'
  obtain ⟨hpop', _, _⟩ := SegCpu.pop_holds
    (s := ⟨eax.extractLsb' 16 16 ++ 0x10#16, ebp, ebp' + 4#32, eip, gdtrLimit, gdtrBase,
      dataSegments seg, mem'⟩) hss' (by dsimp only; omega) hstack'
  dsimp only at hpop'
  have hmovs' : [SegName.ds, .es, .fs, .gs, .ss].foldlM (fun s r => SegCpu.movSeg s r 0x10#16)
      ⟨eax.extractLsb' 16 16 ++ 0x10#16, ebp', ebp', eip, gdtrLimit, gdtrBase, seg, mem⟩ =
        some ⟨eax.extractLsb' 16 16 ++ 0x10#16, ebp', ebp', eip, gdtrLimit, gdtrBase,
          dataSegments seg, mem'⟩ := hmovs
  refine ⟨mem', ?_, hwithin, hselect⟩
  simp only [reloadCs, hhalf, hmovs', hpop, hpop', Option.bind_eq_bind, Option.bind_some,
    Option.pure_def]

def flatSegments (r : SegName) : SegReg :=
  if r = .cs then ⟨0x08#16, flatCode⟩ else ⟨0x10#16, flatData⟩

theorem dataSegments_update (seg : SegName → SegReg) :
    dataSegments (Function.update seg .cs ⟨0x08#16, flatCode⟩) = flatSegments := by
  funext r
  cases r <;> rfl

theorem i686GdtLoad_flat {desc table ret : BitVec 32} (reload : BitVec 32)
    (hss : (s.seg .ss).cache.Flat) (hds : (s.seg .ds).cache.Flat) (hcpl : s.cpl = 0#2)
    (hroom : 12 ≤ s.esp.toNat) (hfit : s.esp.toNat + 16 < 0x100000000)
    (hstack : Holds s.mem s.esp.toNat [ret, desc, 0x08#32, 0x10#32])
    (hready : GdtReady s.mem desc table)
    (htable : ∀ x, table.toNat ≤ x → x < table.toNat + 24 →
      x < s.esp.toNat - 12 ∨ s.esp.toNat + 16 ≤ x)
    (hdesc : ∀ x, desc.toNat ≤ x → x < desc.toNat + 6 → x < s.esp.toNat - 12 ∨ s.esp.toNat ≤ x) :
    ∃ mem, i686GdtLoad reload s =
        some ⟨0x10#32, s.ebp, s.esp + 4#32, ret, 23#16, table, flatSegments, mem⟩ ∧
      Within (fun x => (s.esp.toNat - 12 ≤ x ∧ x < s.esp.toNat) ∨ x = table.toNat + 13 ∨
        x = table.toNat + 21) s.mem mem ∧
      descriptor mem (table.toNat + 8) = flatCode ∧ descriptor mem (table.toNat + 16) = flatData := by
  obtain ⟨mem1, hentry, hnat, hholds, hwithin⟩ := gdtLoadEntry_flat reload hss hds hroom
    hfit hstack hready hdesc fun x hx hlt => by have h := htable x hx hlt; omega
  have hready1 : GdtReady mem1 desc table := hready.within hwithin
    (fun x hx hlt hS => by have h := htable x hx hlt; omega)
    fun x hx hlt hS => by have h := hdesc x hx hlt; omega
  have hfits := hready.tableFits
  obtain ⟨eax, ebp, esp, eip, gdtrLimit, gdtrBase, seg, mem⟩ := s
  dsimp only at *
  have hretf := retf_code
    (s := ⟨0x08#32, esp - 4#32, esp - 4#32 - 4#32 - 4#32, eip, 23#16, table, seg, mem1⟩) hss hcpl
    (by dsimp only; omega) hholds (select_code hfits rfl rfl hready1.code)
  have hback : esp - 4#32 - 4#32 - 4#32 + 4#32 + 4#32 = esp - 4#32 := by
    rw [BitVec.sub_add_cancel, BitVec.sub_add_cancel]
  dsimp only at hretf
  rw [hback] at hretf
  have hnat4 : (esp - 4#32).toNat = esp.toNat - 4 := push_toNat (p := (esp, mem)) (v := ebp) (by dsimp only; omega)
  have hmark : Within (· = table.toNat + 8 + 5) mem1
      (store8 mem1 (table.toNat + 8 + 5) flatCode.access) := within_store8 mem1 _ rfl
  have hstack' : Holds mem1 (esp - 4#32).toNat [ebp, ret, desc, 0x08#32, 0x10#32] := by
    have htail := hholds.2.2
    rwa [hnat, show esp.toNat - 12 + 4 + 4 = (esp - 4#32).toNat by omega] at htail
  have hdata : DataAt ⟨0x08#32, esp - 4#32, esp - 4#32, reload, 23#16, table,
      Function.update seg .cs ⟨0x08#16, flatCode⟩,
      store8 mem1 (table.toNat + 8 + 5) flatCode.access⟩ (table.toNat + 16) := by
    refine ⟨0x92#8, rfl, select_data hfits rfl rfl ?_⟩
    rw [descriptor_within hmark fun k hk => by omega]
    exact hready1.data
  have hcpl' : SegCpu.cpl ⟨0x08#32, esp - 4#32, esp - 4#32, reload, 23#16, table,
      Function.update seg .cs ⟨0x08#16, flatCode⟩,
      store8 mem1 (table.toNat + 8 + 5) flatCode.access⟩ = 0#2 := by
    simp only [SegCpu.cpl, Function.update_self]
    decide
  obtain ⟨mem2, hreload, hwithin2, hselect⟩ := reloadCs_flat
    (s := ⟨0x08#32, esp - 4#32, esp - 4#32, reload, 23#16, table,
      Function.update seg .cs ⟨0x08#16, flatCode⟩,
      store8 mem1 (table.toNat + 8 + 5) flatCode.access⟩) hss hcpl' rfl (by dsimp only; omega)
    (hstack'.within hmark fun x hx hlt => by
      have h := htable (table.toNat + 8 + 5) (by omega) (by omega)
      change x < (esp - 4#32).toNat + 20 at hlt
      omega) hdata (by
      have h := htable (table.toNat + 16 + 5) (by omega) (by omega)
      dsimp only
      omega)
  dsimp only at hreload hwithin2
  rw [dataSegments_update, BitVec.sub_add_cancel] at hreload
  refine ⟨mem2, ?_, ?_, ?_, ?_⟩
  · simp only [i686GdtLoad, hentry, hretf, hreload, Option.bind_eq_bind, Option.bind_some]
    rfl
  · refine ((hwithin.mono fun x hx => Or.inl hx).trans (hmark.mono fun x hx => ?_)).trans
      (hwithin2.mono fun x hx => ?_)
    all_goals omega
  · rw [descriptor_within hwithin2 fun k hk => by omega, descriptor_store8, hready1.code]
  · exact (select_eq_some.mp hselect).2.2.symm

/-- After i686_GDT_Initialize an address of 32 bits is itself in every segment, the selectors
0x08 and 0x10 are in place, so that 0x10 can be loaded again without a change, and the caller goes
on with its stack. The two entries read back as flat segments and are marked as accessed. -/
theorem gdtInitialize_flat {desc table : BitVec 32} (ret reload : BitVec 32)
    (hss : (s.seg .ss).cache.Flat) (hds : (s.seg .ds).cache.Flat) (hcpl : s.cpl = 0#2)
    (hroom : 28 ≤ s.esp.toNat) (hready : GdtReady s.mem desc table)
    (htable : ∀ x, table.toNat ≤ x → x < table.toNat + 24 →
      x < s.esp.toNat - 28 ∨ s.esp.toNat ≤ x)
    (hdesc : ∀ x, desc.toNat ≤ x → x < desc.toNat + 6 → x < s.esp.toNat - 28 ∨ s.esp.toNat ≤ x) :
    ∃ t, i686GdtInitialize desc ret reload s = some t ∧
      (∀ r (off : BitVec 32) n, off.toNat + n ≤ 0x100000000 → t.linear r off n = some off.toNat) ∧
      (∀ r, (t.seg r).selector = if r = .cs then 0x08#16 else 0x10#16) ∧
      (∀ r, r ≠ .cs → t.movSeg r 0x10#16 = some t) ∧
      t.cpl = 0#2 ∧ (t.esp, t.ebp, t.eip) = (s.esp, s.ebp, ret) ∧
      (descriptor t.mem (table.toNat + 8) = flatCode ∧
        descriptor t.mem (table.toNat + 16) = flatData) ∧
      (t.mem (table.toNat + 13) = s.mem (table.toNat + 13) ||| 1#8 ∧
        t.mem (table.toNat + 21) = s.mem (table.toNat + 21) ||| 1#8) ∧
      Within (fun x => (s.esp.toNat - 28 ≤ x ∧ x < s.esp.toNat) ∨ x = table.toNat + 13 ∨
        x = table.toNat + 21) s.mem t.mem := by
  have hlt := s.esp.isLt
  obtain ⟨mem1, hpush1, hnat1, hholds1, hwithin1⟩ := SegCpu.push_holds hss (by omega)
    (show Holds s.mem s.esp.toNat [] from trivial) (i686GdtDataSegment.setWidth 32)
  obtain ⟨eax, ebp, esp, eip, gdtrLimit, gdtrBase, seg, mem⟩ := s
  dsimp only at *
  obtain ⟨mem2, hpush2, hnat2, hholds2, hwithin2⟩ := SegCpu.push_holds
    (s := ⟨eax, ebp, esp - 4#32, eip, gdtrLimit, gdtrBase, seg, mem1⟩) hss (by dsimp only; omega)
    hholds1 (i686GdtCodeSegment.setWidth 32)
  obtain ⟨mem3, hpush3, hnat3, hholds3, hwithin3⟩ := SegCpu.push_holds
    (s := ⟨eax, ebp, esp - 4#32 - 4#32, eip, gdtrLimit, gdtrBase, seg, mem2⟩) hss
    (by dsimp only at hnat2 ⊢; omega) hholds2 desc
  obtain ⟨mem4, hpush4, hnat4, hholds4, hwithin4⟩ := SegCpu.push_holds
    (s := ⟨eax, ebp, esp - 4#32 - 4#32 - 4#32, eip, gdtrLimit, gdtrBase, seg, mem3⟩) hss
    (by dsimp only at hnat2 hnat3 ⊢; omega) hholds3 ret
  dsimp only at hpush2 hpush3 hpush4 hnat2 hnat3 hnat4 hwithin2 hwithin3 hwithin4
  have hpushes : Within (fun x => esp.toNat - 28 ≤ x ∧ x < esp.toNat) mem mem4 := by
    refine (((hwithin1.mono fun x hx => ?_).trans (hwithin2.mono fun x hx => ?_)).trans
      (hwithin3.mono fun x hx => ?_)).trans (hwithin4.mono fun x hx => ?_)
    all_goals omega
  have hready4 : GdtReady mem4 desc table := hready.within hpushes
    (fun x hx hlt' hS => by have h := htable x hx hlt'; omega)
    fun x hx hlt' hS => by have h := hdesc x hx hlt'; omega
  obtain ⟨mem5, hload, hwithin5, hcode, hdata⟩ := i686GdtLoad_flat reload
    (s := ⟨eax, ebp, esp - 4#32 - 4#32 - 4#32 - 4#32, eip, gdtrLimit, gdtrBase, seg, mem4⟩) hss hds
    hcpl (by dsimp only; omega) (by dsimp only; omega) hholds4 hready4
    (fun x hx hlt' => by have h := htable x hx hlt'; dsimp only; omega)
    fun x hx hlt' => by have h := hdesc x hx hlt'; dsimp only; omega
  dsimp only at hload hwithin5
  have hesp : esp - 4#32 - 4#32 - 4#32 - 4#32 + 4#32 + 12#32 = esp := by bv_omega
  have hcpl' : SegCpu.cpl ⟨0x10#32, ebp, esp, ret, 23#16, table, flatSegments, mem5⟩ = 0#2 := by
    simp only [SegCpu.cpl, flatSegments, ↓reduceIte]
    decide
  have hcodeByte : mem5 (table.toNat + 13) = mem (table.toNat + 13) ||| 1#8 := by
    have hold : mem (table.toNat + 13) = 0x9A#8 := congrArg Descriptor.access hready.code
    have hnew : mem5 (table.toNat + 13) = 0x9B#8 := congrArg Descriptor.access hcode
    rw [hold, hnew]
    rfl
  have hdataByte : mem5 (table.toNat + 21) = mem (table.toNat + 21) ||| 1#8 := by
    have hold : mem (table.toNat + 21) = 0x92#8 := congrArg Descriptor.access hready.data
    have hnew : mem5 (table.toNat + 21) = 0x93#8 := congrArg Descriptor.access hdata
    rw [hold, hnew]
    rfl
  refine ⟨⟨0x10#32, ebp, esp, ret, 23#16, table, flatSegments, mem5⟩, ?_, ?_, ?_, ?_, ?_, rfl,
    ⟨hcode, hdata⟩, ⟨hcodeByte, hdataByte⟩, ?_⟩
  · simp only [i686GdtInitialize, hpush1, hpush2, hpush3, hpush4, hload, hesp, Option.bind_eq_bind,
      Option.bind_some, Option.pure_def]
  · intro r off n hfit
    refine SegCpu.linear_flat ?_ hfit
    cases r <;> first | exact flat_flatCode | exact flat_flatData
  · intro r
    cases r <;> rfl
  · intro r hr
    exact movSeg_again (select_data hready.tableFits rfl rfl hdata) hcpl' (if_neg hr)
  · exact hcpl'
  · refine (hpushes.mono fun x hx => Or.inl hx).trans (hwithin5.mono fun x hx => ?_)
    omega

instance (m : Mem) : (a : Nat) → (l : List (BitVec 8)) → Decidable (BytesAt m a l)
  | _, [] => .isTrue trivial
  | a, v :: l =>
    have : Decidable (BytesAt m (a + 1) l) := instDecidableBytesAt m (a + 1) l
    inferInstanceAs (Decidable (m a = v ∧ BytesAt m (a + 1) l))

def gdtImage : Mem := fun x =>
  if x < 0x2000 then (gGDT.flatMap GDTEntry.bytes).getD (x - 0x1000) 0#8
  else (gGDTDescriptor 0x1000#32).getD (x - 0x2000) 0#8

theorem gdtReady_gdtImage : GdtReady gdtImage 0x2000#32 0x1000#32 where
  entries := by decide
  pointer := by decide
  tableFits := by decide
  descFits := by decide

/-- What a boot loader leaves: flat segments, with other selectors than the kernel's. -/
def loaderCpu : SegCpu where
  eax := 0#32
  ebp := 0#32
  esp := 0x9000#32
  eip := 0#32
  gdtrLimit := 0#16
  gdtrBase := 0#32
  seg := fun _ => ⟨0x18#16, flatData⟩
  mem := gdtImage

theorem gdtInitialize_flat_loader :
    ∃ t, i686GdtInitialize 0x2000#32 0x100000#32 0x100100#32 loaderCpu = some t ∧
      t.linear .es 0xB8000#32 2 = some 0xB8000 ∧ (t.seg .cs).selector = 0x08#16 := by
  obtain ⟨t, ht, hlinear, hselectors, _⟩ := gdtInitialize_flat (s := loaderCpu) 0x100000#32
    0x100100#32 flat_flatData flat_flatData (by decide) (by decide) gdtReady_gdtImage
    (fun x _ hlt => Or.inl (by
      change x < 0x1000 + 24 at hlt
      change x < 0x9000 - 28
      omega))
    fun x _ hlt => Or.inl (by
      change x < 0x2000 + 6 at hlt
      change x < 0x9000 - 28
      omega)
  exact ⟨t, ht, hlinear .es 0xB8000#32 2 (by decide), hselectors .cs⟩

end SplongleOS
