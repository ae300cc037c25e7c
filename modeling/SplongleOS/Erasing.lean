import Mathlib.Logic.Function.Iterate
import SplongleOS.Typing
set_option autoImplicit false

/-! Typing characters and erasing them again. -/

namespace SplongleOS.Stdio
open CountedLoop

/-- From `s` to `u` offset `i` was written. -/
def Wrote (s u : Console) (i : Nat) : Prop := ∃ new, u.writes = new ++ s.writes ∧ i ∈ new

/-- `u` has the position of `s`, and its characters but for blanks where `typed` was written.
If anything was, the cursor registers show the position too. -/
structure Undone (s typed u : Console) : Prop where
  screenX : u.screenX = s.screenX
  screenY : u.screenY = s.screenY
  pointed : typed.writes ≠ s.writes → u.Pointed
  blank : ∀ k, Wrote s typed (2 * k) → u.screenBuffer (2 * k) = ch ' '
  other : ∀ k, k < 2000 → ¬Wrote s typed (2 * k) → u.screenBuffer (2 * k) = s.screenBuffer (2 * k)

variable {s u : Console} {str : List (BitVec 8)} {n : Nat}

theorem Typed.wrote_iff (h : Typed s u str) (k : Nat) :
    Wrote s u (2 * k) ↔ s.place ≤ k ∧ k < s.place + str.length := by
  obtain ⟨new, hnew, hmem⟩ := h.writes
  rw [← hmem]
  constructor
  · intro hw
    obtain ⟨new', hnew', hk⟩ := hw
    rwa [List.append_cancel_right (hnew.symm.trans hnew')]
  · intro hk
    exact ⟨new, hnew, hk⟩

theorem eatc_iterate (hy : 0 ≤ s.screenY ∧ s.screenY < 25) (hx : s.screenX ≤ 80) (hn : n ≤ s.screenX) :
    (Console.eatc^[n] s).screenX = s.screenX - n ∧ (Console.eatc^[n] s).screenY = s.screenY ∧
      ∀ k : Nat, (Console.eatc^[n] s).screenBuffer (2 * k) =
        if s.place - n ≤ k ∧ k < s.place then ch ' ' else s.screenBuffer (2 * k) := by
  induction n with
  | zero =>
    refine ⟨by simp, rfl, fun k => (if_neg ?_).symm⟩
    omega
  | succ n ih =>
    obtain ⟨hcol, hrow, hcell⟩ := ih (by omega)
    rw [Function.iterate_succ_apply']
    generalize Console.eatc^[n] s = u at hcol hrow hcell ⊢
    obtain ⟨x, hx'⟩ := Int.eq_ofNat_of_zero_le (show 0 ≤ u.screenX - 1 by omega)
    obtain ⟨y, hy'⟩ := Int.eq_ofNat_of_zero_le hy.1
    have hplace : s.place = 80 * y + (x + 1 + n) := by
      rw [Console.place]
      omega
    have hindex : cellIndex x y = 2 * (80 * y + x) := cellIndex_natCast (by omega) (by omega)
    rw [eatc_left (by omega), hrow, hx', hy']
    refine ⟨?_, rfl, fun k => ?_⟩
    · change (x : Int) = s.screenX - (n + 1 : Nat)
      omega
    · change Function.update u.screenBuffer (cellIndex x y) (ch ' ') (2 * k) = _
      rw [hindex, Function.update_apply, hcell]
      by_cases hk : 2 * k = 2 * (80 * y + x)
      · rw [if_pos hk, if_pos (by omega)]
      · rw [if_neg hk]
        exact if_congr (by omega) rfl rfl

theorem pointed_eatc (hx : 0 < s.screenX) (hy : 0 ≤ s.screenY) : s.eatc.Pointed := by
  obtain ⟨x, hx'⟩ := Int.eq_ofNat_of_zero_le (show 0 ≤ s.screenX - 1 by omega)
  obtain ⟨y, hy'⟩ := Int.eq_ofNat_of_zero_le hy
  rw [eatc_left hx, hx', hy']
  exact pointed_setcursor (s := s.moveTo x y) rfl rfl

theorem pointed_iterate_eatc (hy : 0 ≤ s.screenY ∧ s.screenY < 25) (hx : s.screenX ≤ 80)
    (hn : n ≤ s.screenX) (hpos : n ≠ 0) : (Console.eatc^[n] s).Pointed := by
  obtain ⟨n, rfl⟩ := Nat.exists_eq_succ_of_ne_zero hpos
  obtain ⟨hcol, hrow, -⟩ := eatc_iterate (n := n) hy hx (by omega)
  rw [Function.iterate_succ_apply']
  exact pointed_eatc (by omega) (by omega)

theorem place_eatc (hx : 0 ≤ s.screenX) : s.place - 1 ≤ s.eatc.place ∧ 0 ≤ s.eatc.screenX := by
  by_cases hpos : 0 < s.screenX
  · rw [eatc_left hpos]
    change 80 * s.screenY + s.screenX - 1 ≤ 80 * s.screenY + (s.screenX - 1) ∧ 0 ≤ s.screenX - 1
    omega
  · by_cases hy : s.screenY = 0
    · rw [eatc_home (by omega) hy]
      omega
    · rw [eatc_edge (by omega) hy]
      change 80 * s.screenY + s.screenX - 1 ≤ 80 * (s.screenY - 1) + 80 ∧ (0 : Int) ≤ 80
      omega

theorem place_eatc_edge (hx : s.screenX = 0) : s.eatc.place = s.place := by
  by_cases hy : s.screenY = 0
  · rw [eatc_home hx hy]
  · rw [eatc_edge hx hy]
    change 80 * (s.screenY - 1) + 80 = 80 * s.screenY + s.screenX
    omega

theorem place_iterate_eatc (hx : 0 ≤ s.screenX) :
    s.place - n ≤ (Console.eatc^[n] s).place ∧ 0 ≤ (Console.eatc^[n] s).screenX := by
  induction n with
  | zero => exact ⟨by simp, hx⟩
  | succ n ih =>
    obtain ⟨hplace, hcol⟩ := ih
    rw [Function.iterate_succ_apply']
    have hstep := place_eatc hcol
    exact ⟨by omega, hstep.2⟩

/-- With fewer columns before the position than calls, one call is lost at the left edge. -/
theorem place_iterate_eatc_of_lt (hx : 0 ≤ s.screenX) (hx' : s.screenX ≤ 80)
    (hy : 0 ≤ s.screenY ∧ s.screenY < 25) (hn : s.screenX < n) :
    s.place - n < (Console.eatc^[n] s).place := by
  obtain ⟨x, hxeq⟩ := Int.eq_ofNat_of_zero_le hx
  obtain ⟨hcol, hrow, -⟩ := eatc_iterate (n := x) hy hx' (by omega)
  have hedge := place_eatc_edge (s := Console.eatc^[x] s) (by omega)
  have hback := place_iterate_eatc (s := s) (n := x) hx
  have hstep := place_eatc hback.2
  have hrest := place_iterate_eatc (s := (Console.eatc^[x] s).eatc) (n := n - (x + 1)) hstep.2
  have hsplit : Console.eatc^[n] s = Console.eatc^[n - (x + 1)] (Console.eatc^[x] s).eatc := by
    rw [← Function.iterate_succ_apply' Console.eatc x s, ← Function.iterate_add_apply,
      Nat.sub_add_cancel (by omega)]
  rw [hsplit]
  omega

/-- Erasing undoes typing exactly when the typed characters end before the right edge. -/
theorem undone_iff (hx : 0 ≤ s.screenX ∧ s.screenX < 80) (hy : 0 ≤ s.screenY ∧ s.screenY < 25)
    (hstr : ∀ c ∈ str, Printable c) (h : s.NoScroll str) :
    Undone s (str.foldl Console.putc s) (Console.eatc^[str.length] (str.foldl Console.putc s)) ↔
      s.screenX + str.length < 80 := by
  have htyped := typed_foldl_putc hx hy hstr h
  generalize hu : str.foldl Console.putc s = u at htyped ⊢
  have hcol := htyped.screenX
  have hplace : 80 * u.screenY + u.screenX = 80 * s.screenY + s.screenX + str.length := htyped.place
  by_cases hfits : s.screenX + str.length < 80
  · refine iff_of_true ?_ hfits
    obtain ⟨hx', hy', hcells⟩ := eatc_iterate (n := str.length) htyped.screenY (by omega)
      (show (str.length : Int) ≤ u.screenX by omega)
    have hrange := htyped.place
    refine ⟨by omega, by omega, fun hwrote => ?_, fun k hk => ?_, fun k _ hk => ?_⟩
    · refine pointed_iterate_eatc htyped.screenY (by omega) (by omega) fun hnil => hwrote ?_
      obtain ⟨new, hnew, hmem⟩ := htyped.writes
      rw [List.length_eq_zero_iff.mp hnil] at hu
      exact congrArg Console.writes hu.symm
    · rw [htyped.wrote_iff] at hk
      rw [hcells, if_pos (by omega)]
    · rw [htyped.wrote_iff] at hk
      rw [hcells, if_neg (by omega), htyped.other hk]
  · refine iff_of_false (fun hundone => ?_) hfits
    have hlost := place_iterate_eatc_of_lt (s := u) (n := str.length) hcol.1 (by omega) htyped.screenY
      (by omega)
    have hback : (Console.eatc^[str.length] u).place = s.place := by
      rw [Console.place, Console.place, hundone.screenX, hundone.screenY]
    have hforward := htyped.place
    omega

theorem undone_iff_two :
    Undone (blankConsole 77 5) ([ch 'a', ch 'b'].foldl Console.putc (blankConsole 77 5))
        (Console.eatc^[2] ([ch 'a', ch 'b'].foldl Console.putc (blankConsole 77 5))) ↔
      (blankConsole 77 5).screenX + (2 : Nat) < 80 :=
  undone_iff (by decide) (by decide) (by decide) ⟨by decide, by decide, trivial⟩

/-- The letter in the last column is still there, and the position is in column 80. -/
theorem not_undone_edge : (blankConsole 79 5).NoScroll [ch 'a'] ∧
    Wrote (blankConsole 79 5) ((blankConsole 79 5).putc (ch 'a')) (2 * 479) ∧
    ((blankConsole 79 5).putc (ch 'a')).eatc.screenX = 80 ∧
    ((blankConsole 79 5).putc (ch 'a')).eatc.screenBuffer (2 * 479) = ch 'a' ∧
    ¬Undone (blankConsole 79 5) ((blankConsole 79 5).putc (ch 'a'))
      ((blankConsole 79 5).putc (ch 'a')).eatc := by
  have hx : ((blankConsole 79 5).putc (ch 'a')).eatc.screenX = 80 := by decide
  refine ⟨⟨by decide, trivial⟩, ⟨[959, 958], by decide, by decide⟩, hx, by decide, fun hundone => ?_⟩
  exact absurd (hx.symm.trans hundone.screenX) (by decide)

end SplongleOS.Stdio
