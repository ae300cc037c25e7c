import SplongleOS.Display
set_option autoImplicit false

/-! Where the console writes, and where its position can be. -/

namespace SplongleOS.Stdio
open CountedLoop

inductive ConsoleCall where
  | putc (c : BitVec 8)
  | puts (str : List (BitVec 8))
  | printk (stack : Nat → BitVec 32) (strings : BitVec 32 → List (BitVec 8)) (fmt : List (BitVec 8))
  | eatc
  | movecursor (scancode : BitVec 32)
  | scrollback
  | clrscr

def Console.call (s : Console) : ConsoleCall → Console
  | .putc c => s.putc c
  | .puts str => s.puts str
  | .printk stack strings fmt => s.printk stack strings fmt
  | .eatc => s.eatc
  | .movecursor scancode => s.movecursor scancode
  | .scrollback => s.scrollback 1
  | .clrscr => s.clrscr

/-- The position is on the screen and every write has hit the text screen. -/
structure Console.InBounds (s : Console) : Prop where
  screenX : 0 ≤ s.screenX ∧ s.screenX < 80
  screenY : 0 ≤ s.screenY ∧ s.screenY < 25
  writes : ∀ i ∈ s.writes, i < 4000

/-- Where a call leaves the position on the screen: `eatc` not at the left edge below row 0,
the right arrow not in the last column, `scrollback` not in row 0. -/
def Console.Keeps (s : Console) : ConsoleCall → Prop
  | .eatc => s.screenX = 0 → s.screenY = 0
  | .movecursor scancode => scancode = 77#32 → s.screenX ≠ 79
  | .scrollback => s.screenY ≠ 0
  | _ => True

variable {s s' : Console} {t : Screen}

theorem writes_lt (h : ∀ i ∈ s'.writes, i ∈ s.writes ∨ i < 4000) (hs : ∀ i ∈ s.writes, i < 4000) :
    ∀ i ∈ s'.writes, i < 4000 := by
  intro i hi
  cases h i hi with
  | inl hmem => exact hs i hmem
  | inr hlt => exact hlt

theorem Displays.inBounds (h : Displays s t) (hw : ∀ i ∈ s.writes, i < 4000) : s.InBounds := by
  have hx := t.x.isLt
  have hy := t.y.isLt
  have hsx := h.screenX
  have hsy := h.screenY
  exact ⟨by omega, by omega, hw⟩

theorem exists_displays (hx : 0 ≤ s.screenX ∧ s.screenX < 80) (hy : 0 ≤ s.screenY ∧ s.screenY < 25) :
    ∃ t : Screen, Displays s t := by
  refine ⟨⟨fun y x => (s.screenBuffer (2 * (80 * y.val + x.val)),
    s.screenBuffer (2 * (80 * y.val + x.val) + 1)), ⟨s.screenX.toNat, by omega⟩,
    ⟨s.screenY.toNat, by omega⟩⟩, ?_, ?_, fun y x => rfl, fun y x => rfl⟩
  · exact (Int.toNat_of_nonneg hx.1).symm
  · exact (Int.toNat_of_nonneg hy.1).symm

theorem Console.InBounds.displays (h : s.InBounds) : ∃ t : Screen, Displays s t :=
  exists_displays h.screenX h.screenY

theorem Console.InBounds.putc (h : s.InBounds) (c : BitVec 8) : (s.putc c).InBounds := by
  obtain ⟨t, ht⟩ := h.displays
  obtain ⟨t', hdraw⟩ := ht.putc_any c
  exact hdraw.displays.inBounds (writes_lt hdraw.within.writes h.writes)

theorem Console.InBounds.foldl_putc (h : s.InBounds) (str : List (BitVec 8)) :
    (str.foldl Console.putc s).InBounds := by
  induction str generalizing s with
  | nil => exact h
  | cons c str ih => exact ih (h.putc c)

theorem Console.InBounds.clrscr (h : ∀ i ∈ s.writes, i < 4000) : s.clrscr.InBounds := by
  have hrows := repainted_blankRows (s := s) 0 (by decide)
  have hzero : ((0 : Nat) : Int) = 0 := rfl
  rw [hzero] at hrows
  rw [Console.clrscr]
  generalize forRows 0 Console.blankRow s = u at hrows
  have hx : (0 : Int) < 80 := by decide
  have hy : (0 : Int) < 25 := by decide
  exact ⟨⟨le_rfl, hx⟩, ⟨le_rfl, hy⟩, writes_lt hrows.writes h⟩

theorem Console.InBounds.scrollback_iff (h : s.InBounds) :
    (s.scrollback 1).InBounds ↔ s.screenY ≠ 0 := by
  have hrows := scrollback_one (s := s)
  generalize s.scrollback 1 = u at hrows ⊢
  have hx : u.screenX = s.screenX := hrows.screenX
  have hy : u.screenY = s.screenY - 1 := hrows.screenY
  have hold := h.screenY
  constructor
  · intro hin
    have hnew := hin.screenY
    omega
  · intro hne
    have hwrites : ∀ i ∈ u.writes, i ∈ s.writes ∨ i < 4000 := hrows.writes
    exact ⟨hx ▸ h.screenX, by omega, writes_lt hwrites h.writes⟩

def Console.pointTo (s : Console) (x y : Int) : Console := (s.moveTo x y).setcursor x y

theorem eatc_home (hx : s.screenX = 0) (hy : s.screenY = 0) : s.eatc = s := if_pos ⟨hx, hy⟩

theorem eatc_left (h : 0 < s.screenX) :
    s.eatc = (s.pointTo (s.screenX - 1) s.screenY).putchr (s.screenX - 1) s.screenY (ch ' ') := by
  have hhome : ¬(s.screenX = 0 ∧ s.screenY = 0) := by omega
  rw [Console.eatc, if_neg hhome, if_pos h]
  rfl

theorem eatc_edge (hx : s.screenX = 0) (hy : s.screenY ≠ 0) :
    s.eatc = (s.pointTo 80 (s.screenY - 1)).putchr 80 (s.screenY - 1) (ch ' ') := by
  rw [Console.eatc, if_neg fun hhome => hy hhome.2, if_neg (by omega)]
  rfl

theorem eatc_edge_writes (hx : s.screenX = 0) (hy : s.screenY ≠ 0) :
    s.eatc.writes.head? = some (cellIndex 80 (s.screenY - 1)) := by
  rw [eatc_edge hx hy]
  rfl

theorem movecursor_left (h : 2 < s.screenX) :
    s.movecursor 75#32 = s.pointTo (s.screenX - 1) s.screenY := by
  rw [Console.movecursor, if_neg fun hhome => by omega, if_pos ⟨rfl, h⟩]
  rfl

theorem movecursor_left_of_le (h : s.screenX ≤ 2) : s.movecursor 75#32 = s := by
  have hright : ¬(75#32 = 77#32) := by decide
  rw [Console.movecursor]
  by_cases hhome : 75#32 = 75#32 ∧ s.screenX = 0 ∧ s.screenY = 0
  · exact if_pos hhome
  · rw [if_neg hhome, if_neg fun hgt => by omega, if_neg fun hcode => hright hcode.1,
      if_neg fun hcode => hright hcode.1]

theorem movecursor_right (h0 : 0 ≤ s.screenX) (h : s.screenX < 80) :
    s.movecursor 77#32 = s.pointTo (s.screenX + 1) s.screenY := by
  have hleft : ¬(77#32 = 75#32) := by decide
  have hlt : toUnsigned s.screenX < 80 := by
    unfold toUnsigned
    omega
  rw [Console.movecursor, if_neg fun hcode => hleft hcode.1, if_neg fun hcode => hleft hcode.1,
    if_neg fun hfull => by omega, if_pos ⟨rfl, hlt⟩]
  rfl

theorem movecursor_other {scancode : BitVec 32} (hleft : scancode ≠ 75#32)
    (hright : scancode ≠ 77#32) : s.movecursor scancode = s := by
  rw [Console.movecursor, if_neg fun hcode => hleft hcode.1, if_neg fun hcode => hleft hcode.1,
    if_neg fun hcode => hright hcode.1, if_neg fun hcode => hright hcode.1]

theorem Console.InBounds.pointTo_iff (h : s.InBounds) (x : Int) :
    (s.pointTo x s.screenY).InBounds ↔ 0 ≤ x ∧ x < 80 :=
  ⟨fun hin => hin.screenX, fun hx => ⟨hx, h.screenY, h.writes⟩⟩

theorem Console.InBounds.putchr (h : s.InBounds) (c : BitVec 8) :
    (s.putchr s.screenX s.screenY c).InBounds := by
  have hx := h.screenX
  have hy := h.screenY
  have hoffset : 0 ≤ 2 * (s.screenY * 80 + s.screenX) ∧ 2 * (s.screenY * 80 + s.screenX) < 4000 := by
    omega
  have hindex : cellIndex s.screenX s.screenY < 4000 := by
    rw [cellIndex, toUnsigned, Int.emod_eq_of_lt hoffset.1 (by omega)]
    omega
  refine ⟨hx, hy, fun i hi => ?_⟩
  cases List.mem_cons.mp hi with
  | inl heq => exact heq ▸ hindex
  | inr hmem => exact h.writes i hmem

theorem Console.InBounds.eatc_iff (h : s.InBounds) :
    s.eatc.InBounds ↔ (s.screenX = 0 → s.screenY = 0) := by
  have hx := h.screenX
  by_cases hpos : 0 < s.screenX
  · have hpoint := (h.pointTo_iff (s.screenX - 1)).mpr (by omega)
    rw [eatc_left hpos]
    exact iff_of_true (hpoint.putchr (ch ' ')) fun hzero => by omega
  · have hzero : s.screenX = 0 := by omega
    by_cases hy : s.screenY = 0
    · rw [eatc_home hzero hy]
      exact iff_of_true h fun _ => hy
    · rw [eatc_edge hzero hy]
      exact iff_of_false (fun hin => absurd hin.screenX.2 (lt_irrefl 80)) fun hall => hy (hall hzero)

theorem Console.InBounds.movecursor_iff (h : s.InBounds) (scancode : BitVec 32) :
    (s.movecursor scancode).InBounds ↔ (scancode = 77#32 → s.screenX ≠ 79) := by
  have hx := h.screenX
  by_cases hright : scancode = 77#32
  · subst hright
    rw [movecursor_right hx.1 hx.2, h.pointTo_iff]
    exact ⟨fun hin _ => by omega, fun hne => by have hlast := hne rfl; omega⟩
  · refine iff_of_true ?_ fun hcode => absurd hcode hright
    by_cases hleft : scancode = 75#32
    · subst hleft
      by_cases hgt : 2 < s.screenX
      · rw [movecursor_left hgt, h.pointTo_iff]
        omega
      · rwa [movecursor_left_of_le (by omega)]
    · rwa [movecursor_other hleft hright]

theorem Console.InBounds.call_iff (h : s.InBounds) (c : ConsoleCall) :
    (s.call c).InBounds ↔ s.Keeps c := by
  cases c with
  | putc c => exact iff_of_true (h.putc c) trivial
  | puts str => exact iff_of_true (h.foldl_putc (cString str)) trivial
  | printk stack strings fmt => exact iff_of_true (h.foldl_putc _) trivial
  | eatc => exact h.eatc_iff
  | movecursor scancode => exact h.movecursor_iff scancode
  | scrollback => exact h.scrollback_iff
  | clrscr => exact iff_of_true (Console.InBounds.clrscr h.writes) trivial

def Console.Cleared (s : Console) : Prop := ∃ s₀ : Console, s₀.writes = [] ∧ s = s₀.clrscr

/-- The states between the calls, when every call meets `ok`. -/
def Console.Run (ok : Console → ConsoleCall → Prop) : Console → Prop :=
  Runs.Reach (fun s c => some (s.call c)) ok Console.Cleared

/-- From `clrscr` on the position stays on the screen and the writes in the text screen, as long
as no call is made where it leaves them; the first such call does leave them. -/
theorem inBounds_of_run (h : Console.Run Console.Keeps s) :
    s.InBounds ∧ ∀ c, (s.call c).InBounds ↔ s.Keeps c := by
  have hin : s.InBounds := by
    refine Runs.Reach.invariant_total (I := Console.InBounds) (fun s hs => ?_)
      (fun s c hi hok => (hi.call_iff c).mpr hok) h
    obtain ⟨s₀, hnil, rfl⟩ := hs
    exact Console.InBounds.clrscr (by simp [hnil])
  exact ⟨hin, hin.call_iff⟩

theorem blankConsole_cleared : (blankConsole 5 5).clrscr.Cleared := ⟨blankConsole 5 5, rfl, rfl⟩

theorem inBounds_of_run_line : ((blankConsole 5 5).clrscr.call (.puts [ch 'a', ch '\n'])).InBounds ∧
    ∀ c, (((blankConsole 5 5).clrscr.call (.puts [ch 'a', ch '\n'])).call c).InBounds ↔
      ((blankConsole 5 5).clrscr.call (.puts [ch 'a', ch '\n'])).Keeps c :=
  inBounds_of_run (.next (.puts [ch 'a', ch '\n']) (.start blankConsole_cleared) trivial rfl)

def erasedNewline : Console := ((blankConsole 5 5).clrscr.call (.putc (ch '\n'))).call .eatc

def erasedAbove : Console := ((blankConsole 5 5).clrscr.call .scrollback).call .eatc

/-- The first leaves the position in column 80, the second writes far beyond the screen. -/
theorem not_inBounds_erased : Console.Run (fun _ _ => True) erasedNewline ∧
    erasedNewline.screenX = 80 ∧ erasedNewline.screenY = 0 ∧ ¬erasedNewline.InBounds ∧
    Console.Run (fun _ _ => True) erasedAbove ∧ erasedAbove.writes.head? = some 0xFFFFFF60 ∧
    ¬erasedAbove.InBounds := by
  have hx : erasedNewline.screenX = 80 := by decide
  have hy : erasedNewline.screenY = 0 := by decide
  have hwrite : erasedAbove.writes.head? = some 0xFFFFFF60 := by
    have hs := scrollback_one (s := (blankConsole 5 5).clrscr)
    have hcol : ((blankConsole 5 5).clrscr.scrollback 1).screenX = 0 := hs.screenX
    have hrow : ((blankConsole 5 5).clrscr.scrollback 1).screenY = -1 := hs.screenY
    have hhead := eatc_edge_writes hcol (by rw [hrow]; decide)
    rwa [hrow] at hhead
  refine ⟨?_, hx, hy, fun hin => ?_, ?_, hwrite, fun hin => ?_⟩
  · exact .next .eatc (.next (.putc (ch '\n')) (.start blankConsole_cleared) trivial rfl) trivial rfl
  · have hlt := hin.screenX.2
    omega
  · exact .next .eatc (.next .scrollback (.start blankConsole_cleared) trivial rfl) trivial rfl
  · have hlt := hin.writes 0xFFFFFF60 (List.mem_of_mem_head? hwrite)
    omega

end SplongleOS.Stdio
