import SplongleOS.Vga
set_option autoImplicit false

/-! What VGAWriteRegisters leaves in the adapter, and what is drawn then. -/

namespace SplongleOS
open ByteMemory CountedLoop RegisterBank

/-- What the registers of the CRT controller get: the table, but that the retrace registers stay
accessible and registers 0 to 7 stay open. -/
def crtTable (registers : Nat → BitVec 8) (i : Nat) : BitVec 8 :=
  if i = 0x11 then registers (6 + 0x11) &&& ~~~0x80#8
  else if i = 0x03 then registers (6 + 0x03) ||| 0x80#8
  else registers (6 + i)

/-- The table is in the registers, every other register is as it was, and the palette is in use. -/
structure Programmed (registers : Nat → BitVec 8) (s t : Vga) : Prop where
  misc : t.misc = registers 0
  sequencer : t.sequencer.register = overwrite 5 (fun i => registers (1 + i)) s.sequencer.register
  crt : t.crt.register = overwrite 25 (crtTable registers) s.crt.register
  graphics : t.graphics.register = overwrite 9 (fun i => registers (31 + i)) s.graphics.register
  attributes : t.attributes.register =
    overwrite 21 (fun i => registers (40 + i)) s.attributes.register
  palette : t.attributes.index = 0x20#8

variable {s : Vga} {registers table : Nat → BitVec 8}

theorem bank_loop (put : Bank → Vga) {i d : BitVec 16}
    (hindex : ∀ b v, (put b).outb i v = put (b.select v))
    (hdata : ∀ b v, (put b).outb d v = put (b.write v)) (table : Nat → BitVec 8) {n : Nat}
    (hn : n ≤ 256) (b : Bank) : ∃ last,
    (List.range n).foldl (fun s k => (s.outb i (BitVec.ofNat 8 k)).outb d (table k)) (put b)
      = put ⟨last, overwrite n table b.register⟩ :=
  load put _ table n hn rfl fun k _ _ => by rw [hindex, hdata]

theorem outb_crtIndex (hcolor : s.color = true) (v : BitVec 8) :
    s.outb 0x3D4#16 v = { s with crt := s.crt.select v } := by
  have hport : s.crtPort = 0x3D4#16 := by rw [Vga.crtPort, hcolor]; rfl
  rw [Vga.outb, hport]
  rfl

theorem outb_crtData (hcolor : s.color = true) (v : BitVec 8) : s.outb 0x3D5#16 v = s.writeCrt v := by
  have hport : s.crtPort = 0x3D4#16 := by rw [Vga.crtPort, hcolor]; rfl
  rw [Vga.outb, hport]
  rfl

theorem inb_crtData (hcolor : s.color = true) : s.inb 0x3D5#16 = (s.crt.read, s) := by
  have hport : s.crtPort = 0x3D4#16 := by rw [Vga.crtPort, hcolor]; rfl
  rw [Vga.inb, hport]
  rfl

theorem inb_reset (hcolor : s.color = true) :
    s.inb 0x3DA#16 = (s.status, { s with addressed := false }) := by
  have hport : s.crtPort = 0x3D4#16 := by rw [Vga.crtPort, hcolor]; rfl
  have hreset : s.resetPort = 0x3DA#16 := by rw [Vga.resetPort, hcolor]; rfl
  rw [Vga.inb, hport, hreset]
  rfl

theorem writeCrt_open (h : (s.crt.register 0x11#8).getLsbD 7 = false) (v : BitVec 8) :
    s.writeCrt v = { s with crt := s.crt.write v } := by
  rw [Vga.writeCrt, h]
  rfl

/-- With the registers open before and after, every write of the loop arrives. -/
theorem crt_loop (hcolor : s.color = true) (hopen : (s.crt.register 0x11#8).getLsbD 7 = false)
    (htable : (table 0x11).getLsbD 7 = false) : ∃ i,
    (List.range 25).foldl (fun s i => (s.outb 0x3D4#16 (BitVec.ofNat 8 i)).outb 0x3D5#16 (table i)) s
      = { s with crt := ⟨i, overwrite 25 table s.crt.register⟩ } := by
  let put (b : Bank) : Vga := { s with crt := b }
  refine load put _ table 25 (by decide) rfl fun n i hn => ?_
  have hstill : (overwrite n table s.crt.register 0x11#8).getLsbD 7 = false := by
    rw [overwrite]
    split
    · exact htable
    · exact hopen
  have hselected := outb_crtIndex (s := put ⟨i, overwrite n table s.crt.register⟩) hcolor
    (BitVec.ofNat 8 n)
  have hdata := outb_crtData (s := put ⟨BitVec.ofNat 8 n, overwrite n table s.crt.register⟩) hcolor
    (table n)
  have hwrite := writeCrt_open (s := put ⟨BitVec.ofNat 8 n, overwrite n table s.crt.register⟩)
    hstill (table n)
  rw [hselected]
  change Vga.outb (put ⟨BitVec.ofNat 8 n, overwrite n table s.crt.register⟩) 0x3D5#16 (table n) = _
  rw [hdata, hwrite]
  rfl

theorem writeAttribute_pair (haddressed : s.addressed = false) {v : BitVec 8}
    (hv : v.getLsbD 5 = false ∧ v &&& 0x1F#8 = v) (w : BitVec 8) :
    (s.writeAttribute v).writeAttribute w =
      { s with attributes := (s.attributes.select v).write w } := by
  have hindex : s.writeAttribute v =
      { s with attributes := s.attributes.select v, addressed := true } := by
    rw [Vga.writeAttribute, haddressed]
    rfl
  have hplain : ¬(v.getLsbD 5 = true ∧ (v &&& 0x1F#8).toNat < 16) := fun h => by
    rw [hv.1] at h
    cases h.1
  rw [hindex, Vga.writeAttribute, if_pos rfl]
  refine (if_neg hplain).trans ?_
  dsimp only [Bank.select]
  rw [hv.2, ← haddressed]
  rfl

/-- The controller is reset before each pair, so it does not matter where it stood. -/
theorem attributes_loop (table : Nat → BitVec 8) (hcolor : s.color = true) : ∃ i,
    (List.range 21).foldl (fun s i =>
      ((s.inb 0x3DA#16).2.outb 0x3C0#16 (BitVec.ofNat 8 i)).outb 0x3C0#16 (table i)) s
      = { s with attributes := ⟨i, overwrite 21 table s.attributes.register⟩, addressed := false } := by
  let put (b : Bank) : Vga := { s with attributes := b, addressed := false }
  have hstart : (s.inb 0x3DA#16).2 = ((put s.attributes).inb 0x3DA#16).2 := by
    rw [inb_reset hcolor, inb_reset (s := put s.attributes) hcolor]
  have hrange : List.range 21 = 0 :: List.range' 1 20 := rfl
  rw [hrange, List.foldl_cons, hstart, ← List.foldl_cons (f := fun s i =>
    ((Vga.inb s 0x3DA#16).2.outb 0x3C0#16 (BitVec.ofNat 8 i)).outb 0x3C0#16 (table i)), ← hrange]
  refine load put _ table 21 (by decide) rfl fun n i hn => ?_
  have hreset := inb_reset (s := put ⟨i, overwrite n table s.attributes.register⟩) hcolor
  have hindex : (BitVec.ofNat 8 n).getLsbD 5 = false ∧
      BitVec.ofNat 8 n &&& 0x1F#8 = BitVec.ofNat 8 n := by
    have hall : ∀ k : Fin 21, (BitVec.ofNat 8 k.val).getLsbD 5 = false ∧
        BitVec.ofNat 8 k.val &&& 0x1F#8 = BitVec.ofNat 8 k.val := by decide
    exact hall ⟨n, hn⟩
  rw [hreset]
  exact writeAttribute_pair (s := put ⟨i, overwrite n table s.attributes.register⟩) rfl hindex _

def unlock (s : Vga) : Vga :=
  let s := s.outb 0x3D4#16 0x03#8
  let s := (s.inb 0x3D5#16).2.outb 0x3D5#16 ((s.inb 0x3D5#16).1 ||| 0x80#8)
  let s := s.outb 0x3D4#16 0x11#8
  (s.inb 0x3D5#16).2.outb 0x3D5#16 ((s.inb 0x3D5#16).1 &&& ~~~0x80#8)

/-- Register 0x11 is never protected itself, so this opens the others. -/
theorem unlock_spec (hcolor : s.color = true) : ∃ i old, unlock s = { s with crt := ⟨i, old⟩ } ∧
    (old 0x11#8).getLsbD 7 = false ∧
    ∀ j : BitVec 8, j ≠ 0x03#8 → j ≠ 0x11#8 → old j = s.crt.register j := by
  let put (b : Bank) : Vga := { s with crt := b }
  have hwrite (i v : BitVec 8) (old : BitVec 8 → BitVec 8) : ∃ next,
      (put ⟨i, old⟩).writeCrt v = put ⟨i, next⟩ ∧ ∀ j, j ≠ i → next j = old j := by
    rw [Vga.writeCrt]
    split
    · split
      · exact ⟨_, rfl, fun j hj => Function.update_of_ne hj ..⟩
      · exact ⟨old, rfl, fun j _ => rfl⟩
    · exact ⟨_, rfl, fun j hj => Function.update_of_ne hj ..⟩
  obtain ⟨next, hnext, hkept⟩ := hwrite 0x03#8 (s.crt.register 0x03#8 ||| 0x80#8) s.crt.register
  have hlast (v : BitVec 8) : (put ⟨0x11#8, next⟩).writeCrt v =
      put ⟨0x11#8, Function.update next 0x11#8 v⟩ := by
    have hhigh : ¬(0x11#8).toNat < 8 := by decide
    rw [Vga.writeCrt, if_neg fun h => hhigh h.2]
    rfl
  refine ⟨0x11#8, Function.update next 0x11#8 (next 0x11#8 &&& ~~~0x80#8), ?_, ?_, fun j h3 h11 => ?_⟩
  · have hindex (b : Bank) (i : BitVec 8) : (put b).outb 0x3D4#16 i = put (b.select i) :=
      outb_crtIndex (s := put b) hcolor i
    have hread (b : Bank) : (put b).inb 0x3D5#16 = (b.read, put b) := inb_crtData (s := put b) hcolor
    have hdata (b : Bank) (v : BitVec 8) : (put b).outb 0x3D5#16 v = (put b).writeCrt v :=
      outb_crtData (s := put b) hcolor v
    change unlock (put s.crt) = _
    have hopened : ((put s.crt).outb 0x3D4#16 0x03#8).inb 0x3D5#16 =
        (s.crt.register 0x03#8, put ⟨0x03#8, s.crt.register⟩) := by
      rw [hindex, hread]
      rfl
    have hselected : ((put ⟨0x03#8, next⟩).outb 0x3D4#16 0x11#8).inb 0x3D5#16 =
        (next 0x11#8, put ⟨0x11#8, next⟩) := by
      rw [hindex, hread]
      rfl
    rw [unlock, hopened]
    dsimp only
    rw [hdata, hnext, hselected]
    dsimp only
    rw [hdata]
    exact hlast _
  · rw [Function.update_self, BitVec.getLsbD_and]
    simp
  · rw [Function.update_of_ne h11, hkept j h3]

def unlockedTable (registers : Nat → BitVec 8) : Nat → BitVec 8 :=
  let registers := Function.update registers (6 + 0x03) (registers (6 + 0x03) ||| 0x80#8)
  Function.update registers (6 + 0x11) (registers (6 + 0x11) &&& ~~~0x80#8)

theorem unlockedTable_crt (registers : Nat → BitVec 8) (i : Nat) :
    unlockedTable registers (6 + i) = crtTable registers i := by
  unfold unlockedTable crtTable
  by_cases hlast : i = 0x11
  · rw [if_pos hlast, hlast, Function.update_self, Function.update_of_ne (by decide)]
  · rw [if_neg hlast, Function.update_of_ne (by omega)]
    by_cases hfirst : i = 0x03
    · rw [if_pos hfirst, hfirst, Function.update_self]
    · rw [if_neg hfirst, Function.update_of_ne (by omega)]

theorem unlockedTable_rest (registers : Nat → BitVec 8) {i : Nat} (hi : 31 ≤ i) :
    unlockedTable registers i = registers i := by
  unfold unlockedTable
  rw [Function.update_of_ne (by omega), Function.update_of_ne (by omega)]

theorem vgaWriteRegisters_eq (s : Vga) (registers : Nat → BitVec 8) :
    vgaWriteRegisters vgaPorts s registers =
      let s := s.outb 0x3C2#16 (registers 0)
      let s := (List.range 5).foldl (fun s i =>
        (s.outb 0x3C4#16 (BitVec.ofNat 8 i)).outb 0x3C5#16 (registers (1 + i))) s
      let s := (List.range 25).foldl (fun s i =>
        (s.outb 0x3D4#16 (BitVec.ofNat 8 i)).outb 0x3D5#16 (crtTable registers i)) (unlock s)
      let s := (List.range 9).foldl (fun s i =>
        (s.outb 0x3CE#16 (BitVec.ofNat 8 i)).outb 0x3CF#16 (registers (31 + i))) s
      let s := (List.range 21).foldl (fun s i =>
        ((s.inb 0x3DA#16).2.outb 0x3C0#16 (BitVec.ofNat 8 i)).outb 0x3C0#16
          (registers (40 + i))) s
      (s.inb 0x3DA#16).2.outb 0x3C0#16 0x20#8 := by
  have hgraphics (i : Nat) := unlockedTable_rest registers (i := 31 + i) (by omega)
  have hattributes (i : Nat) := unlockedTable_rest registers (i := 40 + i) (by omega)
  simp only [← unlockedTable_crt, ← hgraphics, ← hattributes]
  rfl

theorem programmed_of_color (s : Vga) (hcolor : (registers 0).getLsbD 0 = true) :
    Programmed registers s (vgaWriteRegisters vgaPorts s registers) := by
  let s1 : Vga := { s with misc := registers 0 }
  obtain ⟨i, hsequencer⟩ := bank_loop (fun b => { s1 with sequencer := b }) (i := 0x3C4#16)
    (d := 0x3C5#16) (fun _ _ => rfl) (fun _ _ => rfl) (fun i => registers (1 + i))
    (by decide : 5 ≤ 256) s.sequencer
  let s2 : Vga := { s1 with sequencer := ⟨i, overwrite 5 (fun i => registers (1 + i))
    s.sequencer.register⟩ }
  obtain ⟨j, old, hunlock, hopen, hold⟩ := unlock_spec (s := s2) hcolor
  let s3 : Vga := { s2 with crt := ⟨j, old⟩ }
  have htable : (crtTable registers 0x11).getLsbD 7 = false := by
    rw [crtTable, if_pos rfl, BitVec.getLsbD_and]
    simp
  obtain ⟨k, hcrt⟩ := crt_loop (s := s3) hcolor hopen htable
  let s4 : Vga := { s3 with crt := ⟨k, overwrite 25 (crtTable registers) old⟩ }
  obtain ⟨l, hgraphics⟩ := bank_loop (fun b => { s4 with graphics := b }) (i := 0x3CE#16)
    (d := 0x3CF#16) (fun _ _ => rfl) (fun _ _ => rfl) (fun i => registers (31 + i))
    (by decide : 9 ≤ 256) s.graphics
  let s5 : Vga := { s4 with graphics := ⟨l, overwrite 9 (fun i => registers (31 + i))
    s.graphics.register⟩ }
  obtain ⟨m, hattributes⟩ := attributes_loop (s := s5) (fun i => registers (40 + i)) hcolor
  let s6 : Vga := { s5 with
    attributes := ⟨m, overwrite 21 (fun i => registers (40 + i)) s.attributes.register⟩
    addressed := false }
  have hwhole : vgaWriteRegisters vgaPorts s registers = s6.outb 0x3C0#16 0x20#8 := by
    have h1 : s.outb 0x3C2#16 (registers 0) = s1 := rfl
    have h2 : _ = s2 := hsequencer
    have h3 : unlock s2 = s3 := hunlock
    have h4 : _ = s4 := hcrt
    have h5 : _ = s5 := hgraphics
    have h6 : _ = s6 := hattributes
    have hreset : (s6.inb 0x3DA#16).2 = s6 := by rw [inb_reset (s := s6) hcolor]
    rw [vgaWriteRegisters_eq, h1]
    dsimp only
    rw [h2, h3, h4, h5, h6, hreset]
  rw [hwhole]
  refine ⟨rfl, rfl, ?_, rfl, rfl, rfl⟩
  change overwrite 25 (crtTable registers) old = _
  funext n
  rw [overwrite, overwrite]
  by_cases hn : n.toNat < 25
  · rw [if_pos hn, if_pos hn]
  · rw [if_neg hn, if_neg hn]
    exact hold n (fun h => hn (h ▸ by decide)) (fun h => hn (h ▸ by decide))

/-- With the ports of a monochrome adapter nothing reaches the CRT controller. -/
def Deaf (s t : Vga) : Prop := t.color = false ∧ t.crt = s.crt

theorem Deaf.outb {t : Vga} (h : Deaf s t) (port : BitVec 16)
    (hport : port ≠ 0x3C2#16 ∧ port ≠ 0x3B4#16 ∧ port ≠ 0x3B5#16) (v : BitVec 8) :
    Deaf s (t.outb port v) := by
  obtain ⟨hmisc, hindex, hdata⟩ := hport
  have hcrt : t.crtPort = 0x3B4#16 := by rw [Vga.crtPort, h.1]; rfl
  unfold Vga.outb
  have hnext : 0x3B4#16 + 1#16 = 0x3B5#16 := rfl
  rw [hcrt, hnext, if_neg hmisc, if_neg hindex, if_neg hdata]
  split
  · unfold Vga.writeAttribute
    split
    · split <;> exact h
    · exact h
  · repeat' split
    all_goals exact h

theorem Deaf.inb {t : Vga} (h : Deaf s t) (port : BitVec 16) : Deaf s (t.inb port).2 := by
  unfold Vga.inb
  split
  · exact h
  · split
    · exact h
    · split <;> exact h

theorem Deaf.unlock {t : Vga} (h : Deaf s t) : Deaf s (unlock t) :=
  ((((((h.outb 0x3D4#16 (by decide) _).inb 0x3D5#16).outb 0x3D5#16 (by decide) _).outb 0x3D4#16
    (by decide) _).inb 0x3D5#16).outb 0x3D5#16 (by decide) _)

theorem Deaf.pairs {t : Vga} (h : Deaf s t) {i d : BitVec 16}
    (hi : i ≠ 0x3C2#16 ∧ i ≠ 0x3B4#16 ∧ i ≠ 0x3B5#16)
    (hd : d ≠ 0x3C2#16 ∧ d ≠ 0x3B4#16 ∧ d ≠ 0x3B5#16) (n : Nat) (values : Nat → BitVec 8) :
    Deaf s ((List.range n).foldl
      (fun s k => (s.outb i (BitVec.ofNat 8 k)).outb d (values k)) t) :=
  range_invariant (P := fun _ => Deaf s) h fun _ _ _ h => (h.outb i hi _).outb d hd _

theorem deaf_of_mono (s : Vga) (hmono : (registers 0).getLsbD 0 = false) :
    Deaf s (vgaWriteRegisters vgaPorts s registers) := by
  have hmisc : Deaf s (s.outb 0x3C2#16 (registers 0)) := ⟨hmono, rfl⟩
  rw [vgaWriteRegisters_eq]
  have hsequencer := hmisc.pairs (i := 0x3C4#16) (d := 0x3C5#16) (by decide) (by decide) 5
    fun k => registers (1 + k)
  have hcrt := hsequencer.unlock.pairs (i := 0x3D4#16) (d := 0x3D5#16) (by decide) (by decide) 25
    (crtTable registers)
  have hgraphics := hcrt.pairs (i := 0x3CE#16) (d := 0x3CF#16) (by decide) (by decide) 9
    fun k => registers (31 + k)
  refine (Deaf.inb ?_ _).outb _ (by decide) _
  exact range_invariant (P := fun _ => Deaf s) hgraphics fun _ _ _ h =>
    ((h.inb _).outb _ (by decide) _).outb _ (by decide) _

/-- The ports are those of a color adapter, so that the first byte of the table decides. The state
of the adapter does not matter. -/
theorem vgaWriteRegisters_programs (s : Vga) (registers : Nat → BitVec 8) :
    ((registers 0).getLsbD 0 = true →
      Programmed registers s (vgaWriteRegisters vgaPorts s registers)) ∧
    ((registers 0).getLsbD 0 = false →
      (vgaWriteRegisters vgaPorts s registers).crt = s.crt ∧
      (overwrite 25 (crtTable registers) s.crt.register ≠ s.crt.register →
        ¬Programmed registers s (vgaWriteRegisters vgaPorts s registers))) := by
  refine ⟨programmed_of_color s, fun hmono => ?_⟩
  have hcrt : (vgaWriteRegisters vgaPorts s registers).crt = s.crt := (deaf_of_mono s hmono).2
  exact ⟨hcrt, fun hnew h => hnew (h.crt.symm.trans (congrArg Bank.register hcrt))⟩

def textMode : Vga :=
  ⟨0x67#8, ⟨0#8, fun _ => 0#8⟩, ⟨0#8, fun i => if i = 0x11#8 then 0x8E#8 else 0#8⟩,
    ⟨0#8, fun _ => 0#8⟩, ⟨0x20#8, fun _ => 0#8⟩, true, 0#8⟩

theorem vgaWriteRegisters_programs_textMode :
    let registers (i : Nat) := mode320x200x256.getD i 0#8
    Programmed registers textMode (vgaWriteRegisters vgaPorts textMode registers) ∧
    ¬Programmed (Function.update registers 0 0x62#8) textMode
      (vgaWriteRegisters vgaPorts textMode (Function.update registers 0 0x62#8)) := by
  intro registers
  refine ⟨(vgaWriteRegisters_programs textMode registers).1 (by decide), ?_⟩
  refine ((vgaWriteRegisters_programs textMode (Function.update registers 0 0x62#8)).2
    (by decide)).2 fun h => ?_
  have hfirst := congrFun h 0#8
  revert hfirst
  decide

theorem vgaInit_programs (s : Vga) : (vgaInit s).1 = true ∧ (vgaInit s).2.1 = vgaPorts ∧
    Programmed (fun i => mode320x200x256.getD i 0#8) s (vgaInit s).2.2 :=
  ⟨rfl, rfl, programmed_of_color s rfl⟩

/-- `n` bytes from 0xA0000 on are drawn, and of the adapter only the graphics index differs. -/
def Drawn (t : Vga) (m : Mem) (n : Nat) (s : Vga × Mem) : Prop :=
  (∃ i, s.1 = { t with graphics := ⟨i, t.graphics.register⟩ }) ∧ s.2 = fill m 0xA0000 n 1#8

theorem store8_fill (m : Mem) (a n : Nat) (v : BitVec 8) :
    store8 (fill m a n v) (a + n) v = fill m a (n + 1) v := by
  funext x
  simp only [store8, fill]
  by_cases hx : x = a + n
  · rw [if_pos hx, if_pos (by omega)]
  · rw [if_neg hx]
    by_cases hin : a ≤ x ∧ x < a + n
    · rw [if_pos hin, if_pos (by omega)]
    · rw [if_neg hin, if_neg (by omega)]

theorem Drawn.pixel {t : Vga} {m : Mem} {s : Vga × Mem} {x y : Nat} (left : BitVec 8)
    (hmap : t.graphics.register 0x06#8 = 0x05#8) (hx : x < 320) (hy : y < 200)
    (h : Drawn t m (320 * y + x) s) :
    Drawn t m (320 * y + (x + 1)) (putPixel left vgaPorts (BitVec.ofNat 32 x) (BitVec.ofNat 32 y)
      0x00#8 0x00#8 0xA8#8 s) := by
  obtain ⟨vga, mem⟩ := s
  obtain ⟨⟨i, rfl⟩, rfl⟩ := h
  let u : Vga := { t with graphics := ⟨0x06#8, t.graphics.register⟩ }
  have hsegment : getFrameBufferSegment vgaPorts { t with graphics := ⟨i, t.graphics.register⟩ } =
      (0xA0000#32, u) := by
    have hindex : Vga.outb { t with graphics := ⟨i, t.graphics.register⟩ } vgaPorts.graphicsIndexPort
        0x06#8 = u := rfl
    have hread : u.inb vgaPorts.graphicsDataPort = (0x05#8, u) := Prod.ext hmap rfl
    rw [getFrameBufferSegment, hindex, hread]
    rfl
  have haddress : (0xA0000#32 + 320#32 * BitVec.ofNat 32 y + BitVec.ofNat 32 x).toNat =
      0xA0000 + (320 * y + x) := by
    simp only [BitVec.toNat_add, BitVec.toNat_mul, BitVec.toNat_ofNat]
    omega
  rw [putPixel, putPixelWithIndex, hsegment]
  refine ⟨⟨0x06#8, rfl⟩, ?_⟩
  dsimp only
  rw [haddress]
  exact store8_fill m 0xA0000 (320 * y + x) 1#8

/-- After VGA_Init, whatever the adapter was like before, the rectangle of main.c fills the
320 times 200 bytes of the screen and no other byte. -/
theorem rectangle_fills (left : BitVec 8) (s : Vga) (m : Mem) :
    (drawRect left (vgaInit s).2.1 ((vgaInit s).2.2, m)).2 = fill m 0xA0000 64000 1#8 := by
  obtain ⟨-, hports, hprogrammed⟩ := vgaInit_programs s
  generalize (vgaInit s).2.2 = t at hprogrammed
  have hmap : t.graphics.register 0x06#8 = 0x05#8 := by
    rw [hprogrammed.graphics]
    rfl
  have hstart : Drawn t m (320 * 0) (t, m) := by
    refine ⟨⟨t.graphics.index, rfl⟩, ?_⟩
    funext x
    rw [fill, if_neg (by omega)]
  rw [hports]
  refine (range_invariant (P := fun y => Drawn t m (320 * y)) hstart fun y s hy hrow => ?_).2
  exact range_invariant (P := fun x => Drawn t m (320 * y + x)) hrow fun x s hx => Drawn.pixel left hmap hx hy

end SplongleOS
