import Mathlib.Data.List.GetD
import SplongleOS.ConsoleBounds
set_option autoImplicit false

/-! What `putc` of printable characters leaves on the screen, as long as nothing scrolls. -/

namespace SplongleOS.Stdio
open CountedLoop

def Printable (c : BitVec 8) : Prop := 0x20#8 ≤ c ∧ c ≤ 0x7E#8

instance (c : BitVec 8) : Decidable (Printable c) := inferInstanceAs (Decidable (_ ∧ _))

/-- `putc` of a character that the switch has no case for finds the row past the last one. -/
def Console.Scrolls (s : Console) : Prop :=
  25 ≤ toUnsigned (if 80 ≤ toUnsigned (s.screenX + 1) then s.screenY + 1 else s.screenY)

instance (s : Console) : Decidable s.Scrolls := inferInstanceAs (Decidable (25 ≤ _))

def Console.NoScroll : Console → List (BitVec 8) → Prop
  | _, [] => True
  | s, c :: str => ¬s.Scrolls ∧ NoScroll (s.putc c) str

/-- The number of the cell at the position, in row-major order. -/
def Console.place (s : Console) : Int := 80 * s.screenY + s.screenX

def painted (p : Nat) (color : BitVec 8) (str : List (BitVec 8)) (buffer : Nat → BitVec 8) (i : Nat) :
    BitVec 8 :=
  if 2 * p ≤ i ∧ i < 2 * (p + str.length) then
    if i % 2 = 0 then str.getD (i / 2 - p) 0#8 else color
  else buffer i

variable {s u v : Console} {c : BitVec 8} {str str' : List (BitVec 8)}

theorem painted_append (p : Nat) (color : BitVec 8) (str str' : List (BitVec 8))
    (buffer : Nat → BitVec 8) (i : Nat) :
    painted (p + str.length) color str' (painted p color str buffer) i =
      painted p color (str ++ str') buffer i := by
  unfold painted
  rw [List.length_append]
  by_cases hlast : 2 * (p + str.length) ≤ i ∧ i < 2 * (p + str.length + str'.length)
  · have hall : 2 * p ≤ i ∧ i < 2 * (p + (str.length + str'.length)) := by omega
    rw [if_pos hlast, if_pos hall, List.getD_append_right _ _ _ _ (by omega), ← Nat.sub_add_eq]
  · rw [if_neg hlast]
    by_cases hfirst : 2 * p ≤ i ∧ i < 2 * (p + str.length)
    · have hall : 2 * p ≤ i ∧ i < 2 * (p + (str.length + str'.length)) := by omega
      rw [if_pos hfirst, if_pos hall, List.getD_append _ _ _ _ (by omega)]
    · have hnone : ¬(2 * p ≤ i ∧ i < 2 * (p + (str.length + str'.length))) := by omega
      rw [if_neg hfirst, if_neg hnone]

theorem painted_singleton (p : Nat) (color c : BitVec 8) (buffer : Nat → BitVec 8) (i : Nat) :
    Function.update (Function.update buffer (2 * p) c) (2 * p + 1) color i =
      painted p color [c] buffer i := by
  rw [painted, List.length_singleton, Function.update_apply, Function.update_apply]
  by_cases heven : i = 2 * p
  · have hzero : i / 2 - p = 0 := by omega
    rw [if_neg (by omega), if_pos heven, if_pos (by omega), if_pos (by omega), hzero]
    rfl
  · rw [if_neg heven]
    by_cases hodd : i = 2 * p + 1
    · rw [if_pos hodd, if_pos (by omega), if_neg (by omega)]
    · rw [if_neg hodd, if_neg (by omega)]

/-- The next cells hold `str`, and the position is behind them. -/
structure Typed (s u : Console) (str : List (BitVec 8)) : Prop where
  start : 0 ≤ s.place
  screenX : 0 ≤ u.screenX ∧ u.screenX < 80
  screenY : 0 ≤ u.screenY ∧ u.screenY < 25
  place : u.place = s.place + str.length
  defaultColor : u.defaultColor = s.defaultColor
  screenBuffer : ∀ i,
    u.screenBuffer i = painted s.place.toNat s.defaultColor str s.screenBuffer i
  writes : ∃ new, u.writes = new ++ s.writes ∧
    ∀ k : Nat, 2 * k ∈ new ↔ s.place ≤ k ∧ k < s.place + str.length

theorem Typed.refl (hx : 0 ≤ s.screenX ∧ s.screenX < 80) (hy : 0 ≤ s.screenY ∧ s.screenY < 25) :
    Typed s s [] where
  start := by
    rw [Console.place]
    omega
  screenX := hx
  screenY := hy
  place := by simp
  defaultColor := rfl
  screenBuffer i := (if_neg (by simp)).symm
  writes := ⟨[], rfl, fun k => by simp⟩

theorem Typed.trans (h : Typed s u str) (h' : Typed u v str') : Typed s v (str ++ str') := by
  have hstart := h.start
  have hplace := h.place
  have hplace' := h'.place
  have hnat : u.place.toNat = s.place.toNat + str.length := by omega
  obtain ⟨new, hnew, hmem⟩ := h.writes
  obtain ⟨new', hnew', hmem'⟩ := h'.writes
  refine ⟨hstart, h'.screenX, h'.screenY, ?_, h'.defaultColor.trans h.defaultColor, fun i => ?_,
    ⟨new' ++ new, ?_, fun k => ?_⟩⟩
  · rw [List.length_append]
    omega
  · have hbuffer : u.screenBuffer = painted s.place.toNat s.defaultColor str s.screenBuffer :=
      funext h.screenBuffer
    rw [h'.screenBuffer, hnat, hbuffer, h.defaultColor, painted_append]
  · rw [hnew', hnew, List.append_assoc]
  · rw [List.mem_append, List.length_append, hmem, hmem']
    omega

theorem Typed.other (h : Typed s u str) {k : Nat} (hk : ¬(s.place ≤ k ∧ k < s.place + str.length)) :
    u.screenBuffer (2 * k) = s.screenBuffer (2 * k) := by
  have hstart := h.start
  rw [h.screenBuffer, painted, if_neg (by omega)]

theorem putcDefault_of_not_scrolls {p : Nat} (hp : p < 2000)
    (hcell : cellIndex s.screenX s.screenY = 2 * p) (h : ¬s.Scrolls) :
    s.putcDefault c = ((s.write (2 * p) c).write (2 * p + 1) s.defaultColor).pointTo
      (if 80 ≤ toUnsigned (s.screenX + 1) then 0 else s.screenX + 1)
      (if 80 ≤ toUnsigned (s.screenX + 1) then s.screenY + 1 else s.screenY) := by
  have hodd : (2 * p + 1) % 0x100000000 = 2 * p + 1 := Nat.mod_eq_of_lt (by omega)
  rw [Console.Scrolls] at h
  by_cases hcol : 80 ≤ toUnsigned (s.screenX + 1)
  · rw [if_pos hcol] at h
    simp [Console.putcDefault, Console.wrap, Console.pointTo, Console.moveTo, Console.putchr,
      Console.putcolor, Console.write, hcell, hodd, hcol, h]
  · rw [if_neg hcol] at h
    simp [Console.putcDefault, Console.wrap, Console.pointTo, Console.moveTo, Console.putchr,
      Console.putcolor, Console.write, hcell, hodd, hcol, h]

theorem putc_printable (hc : Printable c) (s : Console) : s.putc c = s.putcDefault c := by
  have hne : ∀ d : BitVec 8, d < 0x20#8 → c ≠ d := by
    intro d hd heq
    have hlow := hc.1
    bv_omega
  rw [Console.putc, if_neg (hne _ (by decide)), if_neg (hne _ (by decide)), if_neg (hne _ (by decide))]

theorem typed_putc (hx : 0 ≤ s.screenX ∧ s.screenX < 80) (hy : 0 ≤ s.screenY ∧ s.screenY < 25)
    (hc : Printable c) (h : ¬s.Scrolls) : Typed s (s.putc c) [c] := by
  obtain ⟨x, hx'⟩ := Int.eq_ofNat_of_zero_le hx.1
  obtain ⟨y, hy'⟩ := Int.eq_ofNat_of_zero_le hy.1
  have hplace : s.place = ((80 * y + x : Nat) : Int) := by
    rw [Console.place]
    omega
  have hcell : cellIndex s.screenX s.screenY = 2 * (80 * y + x) := by
    rw [hx', hy', cellIndex_natCast (by omega) (by omega)]
  have hcol : 80 ≤ toUnsigned (s.screenX + 1) ↔ 80 ≤ s.screenX + 1 := by
    unfold toUnsigned
    omega
  have hlast : ¬(80 ≤ s.screenX + 1 ∧ 25 ≤ s.screenY + 1) := by
    intro hall
    apply h
    rw [Console.Scrolls, if_pos (hcol.mpr hall.1)]
    unfold toUnsigned
    omega
  rw [putc_printable hc, putcDefault_of_not_scrolls (by omega) hcell h, if_congr hcol rfl rfl,
    if_congr hcol rfl rfl]
  refine ⟨by omega, ?_, ?_, ?_, rfl, fun i => ?_,
    ⟨[2 * (80 * y + x) + 1, 2 * (80 * y + x)], rfl, fun k => ?_⟩⟩
  · dsimp only [Console.pointTo, Console.moveTo, Console.setcursor]
    split_ifs <;> omega
  · dsimp only [Console.pointTo, Console.moveTo, Console.setcursor]
    split_ifs <;> omega
  · dsimp only [Console.place, Console.pointTo, Console.moveTo, Console.setcursor]
    rw [List.length_singleton]
    split_ifs <;> omega
  · have hnat : s.place.toNat = 80 * y + x := by omega
    dsimp only [Console.pointTo, Console.moveTo, Console.setcursor, Console.write]
    rw [hnat, painted_singleton]
  · simp only [List.mem_cons, List.not_mem_nil, or_false, List.length_singleton]
    omega

theorem typed_foldl_putc (hx : 0 ≤ s.screenX ∧ s.screenX < 80)
    (hy : 0 ≤ s.screenY ∧ s.screenY < 25) (hstr : ∀ c ∈ str, Printable c) (h : s.NoScroll str) :
    Typed s (str.foldl Console.putc s) str := by
  induction str generalizing s with
  | nil => exact Typed.refl hx hy
  | cons c str ih =>
    have hfirst := typed_putc hx hy (hstr c List.mem_cons_self) h.1
    have hrest := ih hfirst.screenX hfirst.screenY (fun d hd => hstr d (List.mem_cons_of_mem c hd)) h.2
    exact hfirst.trans hrest

theorem Console.Scrolls.place_eq (hx : 0 ≤ s.screenX ∧ s.screenX < 80)
    (hy : 0 ≤ s.screenY ∧ s.screenY < 25) (h : s.Scrolls) : s.place = 1999 := by
  rw [Console.Scrolls] at h
  unfold toUnsigned at h
  rw [Console.place]
  split_ifs at h <;> omega

theorem noScroll_of_place (hx : 0 ≤ s.screenX ∧ s.screenX < 80)
    (hy : 0 ≤ s.screenY ∧ s.screenY < 25) (hstr : ∀ c ∈ str, Printable c)
    (h : s.place + str.length < 2000) : s.NoScroll str := by
  induction str generalizing s with
  | nil => exact trivial
  | cons c str ih =>
    rw [List.length_cons] at h
    have hstay : ¬s.Scrolls := fun hscrolls => by
      have hlast := hscrolls.place_eq hx hy
      omega
    have hfirst := typed_putc hx hy (hstr c List.mem_cons_self) hstay
    have hplace : (s.putc c).place = s.place + 1 := hfirst.place
    exact ⟨hstay, ih hfirst.screenX hfirst.screenY (fun d hd => hstr d (List.mem_cons_of_mem c hd))
      (by omega)⟩

end SplongleOS.Stdio
