import SplongleOS.Console
set_option autoImplicit false

/-! What writing, blanking and scrolling leave at every offset of the screen buffer. -/

namespace SplongleOS.Stdio
open CountedLoop

/-- Only the buffer has changed, to `buffer`, and only inside the text screen. -/
structure Repainted (s t : Console) (buffer : Nat → BitVec 8) : Prop where
  screenX : t.screenX = s.screenX
  screenY : t.screenY = s.screenY
  defaultColor : t.defaultColor = s.defaultColor
  screenBuffer : ∀ i, t.screenBuffer i = buffer i
  writes : ∀ i ∈ t.writes, i ∈ s.writes ∨ i < 4000

variable {s t u : Console} {buffer buffer' : Nat → BitVec 8}

theorem Repainted.refl (s : Console) : Repainted s s s.screenBuffer :=
  ⟨rfl, rfl, rfl, fun _ => rfl, fun _ h => Or.inl h⟩

theorem Repainted.trans (h : Repainted s t buffer) (h' : Repainted t u buffer') :
    Repainted s u buffer' where
  screenX := h'.screenX.trans h.screenX
  screenY := h'.screenY.trans h.screenY
  defaultColor := h'.defaultColor.trans h.defaultColor
  screenBuffer := h'.screenBuffer
  writes i hi := by
    cases h'.writes i hi with
    | inl hmem => exact h.writes i hmem
    | inr hlt => exact Or.inr hlt

theorem Repainted.congr (h : Repainted s t buffer) (heq : ∀ i, buffer i = buffer' i) :
    Repainted s t buffer' :=
  { h with screenBuffer := fun i => (h.screenBuffer i).trans (heq i) }

theorem cellIndex_natCast {x y : Nat} (hx : x ≤ 80) (hy : y ≤ 25) :
    cellIndex x y = 2 * (80 * y + x) := by
  unfold cellIndex toUnsigned
  omega

theorem repainted_write {i : Nat} (hi : i < 4000) (v : BitVec 8) :
    Repainted s (s.write i v) fun j => if j = i then v else s.screenBuffer j := by
  refine ⟨rfl, rfl, rfl, fun j => ?_, fun j hj => ?_⟩
  · simp [Console.write, Function.update_apply]
  · simp only [Console.write, List.mem_cons] at hj
    cases hj with
    | inl heq => exact Or.inr (heq ▸ hi)
    | inr hmem => exact Or.inl hmem

theorem repainted_putchr {x y : Nat} (hx : x < 80) (hy : y < 25) (c : BitVec 8) :
    Repainted s (s.putchr x y c) fun j => if j = 2 * (80 * y + x) then c else s.screenBuffer j := by
  rw [Console.putchr, cellIndex_natCast (by omega) (by omega)]
  exact repainted_write (by omega) c

theorem repainted_putcolor {x y : Nat} (hx : x < 80) (hy : y < 25) (color : BitVec 8) :
    Repainted s (s.putcolor x y color) fun j =>
      if j = 2 * (80 * y + x) + 1 then color else s.screenBuffer j := by
  have hindex : (2 * (80 * y + x) + 1) % 0x100000000 = 2 * (80 * y + x) + 1 :=
    Nat.mod_eq_of_lt (by omega)
  rw [Console.putcolor, cellIndex_natCast (by omega) (by omega), hindex]
  exact repainted_write (by omega) color

theorem repainted_cell {x y : Nat} (hx : x < 80) (hy : y < 25) (c color : BitVec 8) :
    Repainted s ((s.putchr x y c).putcolor x y color) fun j =>
      if j = 2 * (80 * y + x) then c
      else if j = 2 * (80 * y + x) + 1 then color
      else s.screenBuffer j := by
  have hchr := repainted_putchr (s := s) hx hy c
  refine (hchr.trans (repainted_putcolor hx hy color)).congr fun j => ?_
  rw [hchr.screenBuffer]
  grind

def InRow (y k j : Nat) : Prop := 160 * y ≤ j ∧ j < 160 * y + 2 * k

instance (y k j : Nat) : Decidable (InRow y k j) := inferInstanceAs (Decidable (_ ∧ _))

def blankAt (s : Console) (j : Nat) : BitVec 8 := if j % 2 = 0 then ch ' ' else s.defaultColor

theorem forColumns_invariant {P : Nat → Console → Prop} {body : Console → Int → Console}
    (hstep : ∀ (k : Nat) (t : Console), k < 80 → P k t → P (k + 1) (body t k)) (h : P 0 s) :
    P 80 (forColumns body s) :=
  below_invariant (by decide) hstep 80 (Nat.zero_le _) (by omega) h

theorem forRows_invariant {P : Nat → Console → Prop} {body : Console → Int → Console} (lo : Nat)
    (hlo : lo ≤ 25) (hstep : ∀ (y : Nat) (t : Console), y < 25 → P y t → P (y + 1) (body t y))
    (h : P lo s) : P 25 (forRows lo body s) :=
  below_invariant (by decide) hstep 25 hlo (by omega) h

theorem repainted_blankRow {y : Nat} (hy : y < 25) : Repainted s (s.blankRow y) fun j =>
    if InRow y 80 j then blankAt s j else s.screenBuffer j := by
  have hstart : Repainted s s fun j => if InRow y 0 j then blankAt s j else s.screenBuffer j := by
    refine (Repainted.refl s).congr fun j => ?_
    rw [if_neg (by unfold InRow; omega)]
  refine forColumns_invariant (P := fun k t => Repainted s t fun j =>
    if InRow y k j then blankAt s j else s.screenBuffer j) (fun k t hk h => ?_) hstart
  refine (h.trans (repainted_cell hk hy (ch ' ') t.defaultColor)).congr fun j => ?_
  rw [h.screenBuffer, h.defaultColor]
  grind [InRow, blankAt]

theorem repainted_blankRows (lo : Nat) (hlo : lo ≤ 25) :
    Repainted s (forRows lo Console.blankRow s) fun j =>
      if 160 * lo ≤ j ∧ j < 4000 then blankAt s j else s.screenBuffer j := by
  have hstart : Repainted s s fun j =>
      if 160 * lo ≤ j ∧ j < 160 * lo then blankAt s j else s.screenBuffer j := by
    refine (Repainted.refl s).congr fun j => ?_
    rw [if_neg (by omega)]
  refine forRows_invariant (P := fun y t => lo ≤ y ∧ Repainted s t fun j =>
    if 160 * lo ≤ j ∧ j < 160 * y then blankAt s j else s.screenBuffer j) lo hlo
    (fun y t hy h => ?_) ⟨le_rfl, hstart⟩ |>.2
  obtain ⟨hle, h⟩ := h
  refine ⟨by omega, (h.trans (repainted_blankRow hy)).congr fun j => ?_⟩
  rw [h.screenBuffer, blankAt, h.defaultColor]
  grind [InRow, blankAt]

/-- A row is read before the row above is written, so the rows move up by one. -/
theorem repainted_moveRow {y : Nat} (hpos : 0 < y) (hy : y < 25) :
    Repainted s (s.moveRow 1 y) fun j =>
      if InRow (y - 1) 80 j then s.screenBuffer (j + 160) else s.screenBuffer j := by
  have hup : (y : Int) - 1 = ((y - 1 : Nat) : Int) := by omega
  have hstart : Repainted s s fun j =>
      if InRow (y - 1) 0 j then s.screenBuffer (j + 160) else s.screenBuffer j := by
    refine (Repainted.refl s).congr fun j => ?_
    rw [if_neg (by unfold InRow; omega)]
  refine forColumns_invariant (P := fun k t => Repainted s t fun j =>
    if InRow (y - 1) k j then s.screenBuffer (j + 160) else s.screenBuffer j)
    (fun k t hk h => ?_) hstart
  have hchr : t.getchr k y = s.screenBuffer (2 * (80 * (y - 1) + k) + 160) := by
    rw [Console.getchr, cellIndex_natCast (by omega) (by omega), h.screenBuffer,
      if_neg (by unfold InRow; omega)]
    congr 1
    omega
  have hcolor : (t.putchr k (y - 1 : Nat) (t.getchr k y)).getcolor k y
      = s.screenBuffer (2 * (80 * (y - 1) + k) + 1 + 160) := by
    have hindex : (2 * (80 * y + k) + 1) % 0x100000000 = 2 * (80 * (y - 1) + k) + 1 + 160 := by omega
    rw [Console.getcolor, cellIndex_natCast (by omega) (by omega), hindex,
      (repainted_putchr hk (by omega) _).screenBuffer, if_neg (by omega), h.screenBuffer,
      if_neg (by unfold InRow; omega)]
  dsimp only
  rw [hup, hcolor, hchr]
  refine (h.trans (repainted_cell hk (by omega) _ _)).congr fun j => ?_
  rw [h.screenBuffer]
  grind [InRow]

theorem scrollback_one : Repainted { s with screenY := s.screenY - 1 } (s.scrollback 1) fun j =>
    if j < 3840 then s.screenBuffer (j + 160)
    else if j < 4000 then blankAt s j
    else s.screenBuffer j := by
  have hstart : Repainted s s fun j =>
      if j < 160 * (1 - 1) then s.screenBuffer (j + 160) else s.screenBuffer j := by
    refine (Repainted.refl s).congr fun j => ?_
    rw [if_neg (by omega)]
  have hmoved : Repainted s (forRows 1 (Console.moveRow 1) s) fun j =>
      if j < 3840 then s.screenBuffer (j + 160) else s.screenBuffer j := by
    refine forRows_invariant (P := fun y t => 0 < y ∧ Repainted s t fun j =>
      if j < 160 * (y - 1) then s.screenBuffer (j + 160) else s.screenBuffer j) 1 (by decide)
      (fun y t hy h => ?_) ⟨by decide, hstart⟩ |>.2
    obtain ⟨hpos, h⟩ := h
    refine ⟨by omega, (h.trans (repainted_moveRow hpos hy)).congr fun j => ?_⟩
    rw [h.screenBuffer, h.screenBuffer]
    grind [InRow]
  have hblank := repainted_blankRows (s := forRows 1 (Console.moveRow 1) s) 24 (by decide)
  have h : Repainted s (forRows (24 : Nat) Console.blankRow (forRows 1 (Console.moveRow 1) s))
      fun j => if j < 3840 then s.screenBuffer (j + 160)
        else if j < 4000 then blankAt s j else s.screenBuffer j := by
    refine (hmoved.trans hblank).congr fun j => ?_
    rw [hmoved.screenBuffer, blankAt, hmoved.defaultColor]
    grind [blankAt]
  have hlast : (25 : Int) - 1 = (24 : Nat) := rfl
  rw [Console.scrollback, hlast]
  generalize forRows (24 : Nat) Console.blankRow (forRows 1 (Console.moveRow 1) s) = u at h ⊢
  exact ⟨h.screenX, congrArg (· - 1) h.screenY, h.defaultColor, h.screenBuffer, h.writes⟩

end SplongleOS.Stdio
