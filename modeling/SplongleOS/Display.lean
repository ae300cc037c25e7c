import Mathlib.Data.List.TakeWhile
import SplongleOS.Base.Terminal
import SplongleOS.Scrolling
set_option autoImplicit false

/-! The console against a terminal of 25 rows and 80 columns. -/

namespace SplongleOS.Stdio
open CountedLoop

abbrev Screen := Terminal (BitVec 8 × BitVec 8) 25 80

def Screen.put (color : BitVec 8) (t : Screen) (c : BitVec 8) : Screen :=
  let blank := (ch ' ', color)
  if c = ch '\n' then t.newline blank
  else if c = ch '\r' then t.home
  else if c = ch '\t' then t.tab 4 blank
  else t.write blank (c, color)

def Screen.print (color : BitVec 8) (t : Screen) (str : List (BitVec 8)) : Screen :=
  str.foldl (Screen.put color) t

/-- The buffer holds the cells and the position is the cursor. -/
structure Displays (s : Console) (t : Screen) : Prop where
  screenX : s.screenX = t.x.val
  screenY : s.screenY = t.y.val
  char : ∀ y x, s.screenBuffer (2 * (80 * y.val + x.val)) = (t.cell y x).1
  colour : ∀ y x, s.screenBuffer (2 * (80 * y.val + x.val) + 1) = (t.cell y x).2

/-- The cursor registers show the position. -/
def Console.Pointed (s : Console) : Prop :=
  ∃ x y : Nat, s.screenX = x ∧ s.screenY = y ∧ s.cursorLow = BitVec.ofNat 8 (80 * y + x) ∧
    s.cursorHigh = BitVec.ofNat 8 ((80 * y + x) / 256)

structure Within (s s' : Console) : Prop where
  defaultColor : s'.defaultColor = s.defaultColor
  beyond : ∀ i, 4000 ≤ i → s'.screenBuffer i = s.screenBuffer i
  writes : ∀ i ∈ s'.writes, i ∈ s.writes ∨ i < 4000

variable {s s' u : Console} {t : Screen} {c : BitVec 8}

theorem Within.refl (s : Console) : Within s s := ⟨rfl, fun _ _ => rfl, fun _ h => Or.inl h⟩

theorem Within.trans (h : Within s s') (h' : Within s' u) : Within s u where
  defaultColor := h'.defaultColor.trans h.defaultColor
  beyond i hi := (h'.beyond i hi).trans (h.beyond i hi)
  writes i hi := by
    cases h'.writes i hi with
    | inl hmem => exact h.writes i hmem
    | inr hlt => exact Or.inr hlt

theorem Displays.char_at (h : Displays s t) {n : Nat} (hn : n < 2000) :
    s.screenBuffer (2 * n) = (t.cell ⟨n / 80, by omega⟩ ⟨n % 80, by omega⟩).1 := by
  have hchar := h.char ⟨n / 80, by omega⟩ ⟨n % 80, by omega⟩
  rwa [Nat.div_add_mod] at hchar

theorem Displays.index_eq (h : Displays s t) : (t.index : Int) = 80 * s.screenY + s.screenX := by
  rw [h.screenX, h.screenY]
  rfl

/-- One call of `putc` against one step of the terminal. -/
structure Draws (s s' : Console) (t : Screen) : Prop where
  displays : Displays s' t
  within : Within s s'
  pointed : s'.Pointed

theorem pointed_setcursor {x y : Nat} (hx : s.screenX = x) (hy : s.screenY = y) :
    (s.setcursor s.screenX s.screenY).Pointed := by
  have hpos : BitVec.ofInt 32 (s.screenY * 80 + s.screenX) = BitVec.ofNat 32 (80 * y + x) := by
    have hcast : s.screenY * 80 + s.screenX = ((80 * y + x : Nat) : Int) := by omega
    rw [hcast, BitVec.ofInt_natCast]
  refine ⟨x, y, hx, hy, ?_, ?_⟩
  · apply BitVec.eq_of_toNat_eq
    simp [Console.setcursor, hpos]
  · apply BitVec.eq_of_toNat_eq
    simp [Console.setcursor, hpos, Nat.shiftRight_eq_div_pow]
    omega

theorem Displays.setcursor (h : Displays s t) : Draws s (s.setcursor s.screenX s.screenY) t where
  displays := ⟨h.screenX, h.screenY, h.char, h.colour⟩
  within := ⟨rfl, fun _ _ => rfl, fun _ h => Or.inl h⟩
  pointed := pointed_setcursor h.screenX h.screenY

theorem Displays.wrap (h : Displays s t) : Draws s s.wrap t := by
  have hx := t.x.isLt
  have hy := t.y.isLt
  have hcol : ¬80 ≤ toUnsigned s.screenX := by
    rw [h.screenX, toUnsigned_natCast (by omega)]
    omega
  have hrow : ¬25 ≤ toUnsigned s.screenY := by
    rw [h.screenY, toUnsigned_natCast (by omega)]
    omega
  have hwrap : s.wrap = s.setcursor s.screenX s.screenY := by
    simp [Console.wrap, hcol, hrow]
  rw [hwrap]
  exact h.setcursor

def Console.moveTo (s : Console) (x y : Int) : Console := { s with screenX := x, screenY := y }

theorem within_moveTo (s : Console) (x y : Int) : Within s (s.moveTo x y) :=
  ⟨rfl, fun _ _ => rfl, fun _ h => Or.inl h⟩

theorem Displays.moveTo {t' : Screen} {x y : Int} (h : Displays s t) (hcell : t'.cell = t.cell)
    (hx : x = t'.x.val) (hy : y = t'.y.val) : Displays (s.moveTo x y) t' where
  screenX := hx
  screenY := hy
  char r k := hcell ▸ h.char r k
  colour r k := hcell ▸ h.colour r k

theorem Draws.after (h : Draws u s' t) (hwithin : Within s u) : Draws s s' t :=
  ⟨h.displays, hwithin.trans h.within, h.pointed⟩

theorem Displays.scroll (h : Displays s t) {x : Int} (hx : x = t.x.val) :
    Displays ((s.moveTo x (s.screenY + 1)).scrollback 1) (t.scroll (ch ' ', s.defaultColor)) ∧
      Within s ((s.moveTo x (s.screenY + 1)).scrollback 1) := by
  have hs := scrollback_one (s := s.moveTo x (s.screenY + 1))
  generalize (s.moveTo x (s.screenY + 1)).scrollback 1 = u at hs ⊢
  refine ⟨⟨hs.screenX.trans hx, ?_, fun r k => ?_, fun r k => ?_⟩,
    ⟨hs.defaultColor, fun i hi => ?_, hs.writes⟩⟩
  · rw [hs.screenY]
    have hy := h.screenY
    dsimp only [Terminal.scroll, Console.moveTo]
    omega
  · rw [hs.screenBuffer]
    by_cases hrow : r.val + 1 < 25
    · have hup : 2 * (80 * r.val + k.val) + 160 = 2 * (80 * (r.val + 1) + k.val) := by omega
      rw [if_pos (by omega), Terminal.scroll_cell_of_lt _ _ hrow, hup]
      exact h.char ⟨r.val + 1, hrow⟩ k
    · rw [if_neg (by omega), if_pos (by omega), Terminal.scroll_cell_last _ _ (by omega), blankAt,
        if_pos (by omega)]
  · rw [hs.screenBuffer]
    by_cases hrow : r.val + 1 < 25
    · have hup : 2 * (80 * r.val + k.val) + 1 + 160 = 2 * (80 * (r.val + 1) + k.val) + 1 := by omega
      rw [if_pos (by omega), Terminal.scroll_cell_of_lt _ _ hrow, hup]
      exact h.colour ⟨r.val + 1, hrow⟩ k
    · rw [if_neg (by omega), if_pos (by omega), Terminal.scroll_cell_last _ _ (by omega), blankAt,
        if_neg (by omega)]
      rfl
  · rw [hs.screenBuffer, if_neg (by omega), if_neg (by omega)]
    rfl

theorem Displays.newline (h : Displays s t) :
    Draws s (s.moveTo 0 (s.screenY + 1)).wrap (t.newline (ch ' ', s.defaultColor)) := by
  have hy : s.screenY = t.home.y.val := h.screenY
  have hlt : t.home.y.val < 25 := t.y.isLt
  by_cases hrow : t.home.y.val + 1 < 25
  · have hshow : Displays (s.moveTo 0 (s.screenY + 1)) (t.newline (ch ' ', s.defaultColor)) := by
      rw [Terminal.newline, Terminal.lineFeed_of_lt _ _ hrow]
      exact h.moveTo rfl rfl (by rw [hy]; rfl)
    exact hshow.wrap.after (within_moveTo ..)
  · have hhome : Displays (s.moveTo 0 s.screenY) t.home := h.moveTo rfl rfl hy
    obtain ⟨hshow, hwithin⟩ := hhome.scroll (x := 0) rfl
    have hcol : ¬80 ≤ toUnsigned 0 := by decide
    have hfull : 25 ≤ toUnsigned (s.screenY + 1) := by
      unfold toUnsigned
      omega
    have hwrap : (s.moveTo 0 (s.screenY + 1)).wrap =
        ((s.moveTo 0 (s.screenY + 1)).scrollback 1).setcursor
          ((s.moveTo 0 (s.screenY + 1)).scrollback 1).screenX
          ((s.moveTo 0 (s.screenY + 1)).scrollback 1).screenY := by
      simp only [Console.wrap, Console.moveTo, hcol, hfull, if_true, if_false]
    rw [Terminal.newline, Terminal.lineFeed_last _ _ (by omega), hwrap]
    exact hshow.setcursor.after ((within_moveTo ..).trans hwithin)

theorem Displays.set (h : Displays s t) (c : BitVec 8) :
    Displays ((s.putchr s.screenX s.screenY c).putcolor s.screenX s.screenY s.defaultColor)
        (t.set (c, s.defaultColor)) ∧
      Within s ((s.putchr s.screenX s.screenY c).putcolor s.screenX s.screenY s.defaultColor) := by
  have hcell := repainted_cell (s := s) t.x.isLt t.y.isLt c s.defaultColor
  rw [← h.screenX, ← h.screenY] at hcell
  generalize (s.putchr s.screenX s.screenY c).putcolor s.screenX s.screenY s.defaultColor = u
    at hcell ⊢
  have hfar : ∀ r k, ¬(r = t.y ∧ k = t.x) → 80 * r.val + k.val ≠ 80 * t.y.val + t.x.val := by
    intro r k hne heq
    exact hne ⟨Fin.ext (by omega), Fin.ext (by omega)⟩
  refine ⟨⟨hcell.screenX.trans h.screenX, hcell.screenY.trans h.screenY, fun r k => ?_, fun r k => ?_⟩,
    ⟨hcell.defaultColor, fun i hi => ?_, hcell.writes⟩⟩
  · by_cases hrk : r = t.y ∧ k = t.x
    · obtain ⟨rfl, rfl⟩ := hrk
      simp [hcell.screenBuffer]
    · have hne := hfar r k hrk
      rw [Terminal.set_cell_of_ne _ _ hrk, hcell.screenBuffer, if_neg (by omega), if_neg (by omega), h.char]
  · by_cases hrk : r = t.y ∧ k = t.x
    · obtain ⟨rfl, rfl⟩ := hrk
      simp [hcell.screenBuffer]
    · have hne := hfar r k hrk
      rw [Terminal.set_cell_of_ne _ _ hrk, hcell.screenBuffer, if_neg (by omega), if_neg (by omega), h.colour]
  · have hx := t.x.isLt
    have hy := t.y.isLt
    rw [hcell.screenBuffer, if_neg (by omega), if_neg (by omega)]

theorem Displays.advance (h : Displays s t) :
    Draws s (s.moveTo (s.screenX + 1) s.screenY).wrap (t.advance (ch ' ', s.defaultColor)) := by
  have hx := h.screenX
  by_cases hcol : t.x.val + 1 < 80
  · have hshow : Displays (s.moveTo (s.screenX + 1) s.screenY) (t.advance (ch ' ', s.defaultColor)) := by
      rw [Terminal.advance, dif_pos hcol]
      exact h.moveTo rfl (by rw [hx]; rfl) h.screenY
    exact hshow.wrap.after (within_moveTo ..)
  · have hwrap : (s.moveTo (s.screenX + 1) s.screenY).wrap = (s.moveTo 0 (s.screenY + 1)).wrap := by
      have hlt := t.x.isLt
      have hfull : 80 ≤ toUnsigned (s.screenX + 1) := by
        unfold toUnsigned
        omega
      have hzero : ¬80 ≤ toUnsigned 0 := by decide
      simp only [Console.wrap, Console.moveTo, hfull, hzero, if_true, if_false]
    rw [Terminal.advance, dif_neg hcol, hwrap]
    exact h.newline

theorem Displays.putcDefault (h : Displays s t) (c : BitVec 8) :
    Draws s (s.putcDefault c) (t.write (ch ' ', s.defaultColor) (c, s.defaultColor)) := by
  obtain ⟨hshow, hwithin⟩ := h.set c
  have hdraw := hshow.advance
  rw [hwithin.defaultColor] at hdraw
  exact hdraw.after hwithin

/-- How many blanks the tab loop writes from column `col` on. -/
def tabCount : Nat → Nat → Nat → Nat
  | 0, _, _ => 0
  | fuel + 1, i, col => if i + col % 4 < 4 then tabCount fuel (i + 1) ((col + 1) % 80) + 1 else 0

theorem Displays.tabLoop (h : Displays s t) (fuel i : Nat) :
    Displays (s.tabLoop fuel i)
        ((Terminal.write (ch ' ', s.defaultColor) (ch ' ', s.defaultColor))^[tabCount fuel i t.x] t) ∧
      Within s (s.tabLoop fuel i) := by
  induction fuel generalizing s t i with
  | zero => exact ⟨h, Within.refl s⟩
  | succ fuel ih =>
    have hmod : s.screenX.tmod 4 = ((t.x.val % 4 : Nat) : Int) := by
      rw [h.screenX, Int.tmod_eq_emod_of_nonneg (by omega)]
      rfl
    rw [Console.tabLoop, tabCount, hmod]
    by_cases hroom : i + t.x.val % 4 < 4
    · have hdraw := h.putcDefault (ch ' ')
      have hrest := ih hdraw.displays (i + 1)
      rw [hdraw.within.defaultColor, Terminal.write_x] at hrest
      rw [if_pos (by omega), if_pos hroom, Function.iterate_succ_apply]
      exact ⟨hrest.1, hdraw.within.trans hrest.2⟩
    · rw [if_neg (by omega), if_neg hroom]
      exact ⟨h, Within.refl s⟩

theorem Displays.putcTab (h : Displays s t) : Draws s (s.putc (ch '\t'))
    ((Terminal.write (ch ' ', s.defaultColor) (ch ' ', s.defaultColor))^[tabCount 8 0 t.x] t) := by
  obtain ⟨hshow, hwithin⟩ := h.tabLoop 8 0
  have hputc : s.putc (ch '\t') = (s.tabLoop 8 0).wrap := rfl
  rw [hputc]
  exact hshow.wrap.after hwithin

theorem Displays.putc (h : Displays s t) (hc : c ≠ ch '\t') :
    Draws s (s.putc c) (t.put s.defaultColor c) := by
  unfold Console.putc Screen.put
  by_cases hn : c = ch '\n'
  · rw [if_pos hn, if_pos hn]
    exact h.newline
  · by_cases hr : c = ch '\r'
    · have hhome : Displays (s.moveTo 0 s.screenY) t.home := h.moveTo rfl rfl h.screenY
      rw [if_neg hn, if_pos hr, if_neg hn, if_pos hr]
      exact hhome.wrap.after (within_moveTo ..)
    · rw [if_neg hn, if_neg hr, if_neg hc, if_neg hn, if_neg hr, if_neg hc]
      exact h.putcDefault c

theorem Displays.putc_any (h : Displays s t) (c : BitVec 8) : ∃ t' : Screen, Draws s (s.putc c) t' := by
  by_cases hc : c = ch '\t'
  · exact ⟨_, hc ▸ h.putcTab⟩
  · exact ⟨_, h.putc hc⟩

/-- A tab never ends at the next tab stop. -/
theorem Displays.not_tab (h : Displays s t) :
    ¬Displays (s.putc (ch '\t')) (t.put s.defaultColor (ch '\t')) := by
  intro htab
  have hcode := h.putcTab.displays.screenX
  have hput : t.put s.defaultColor (ch '\t') = t.tab 4 (ch ' ', s.defaultColor) := rfl
  rw [htab.screenX, hput, Terminal.tab, Terminal.iterate_write_x, Terminal.iterate_write_x] at hcode
  have hne : ∀ col < 80, (col + (4 - col % 4)) % 80 ≠ (col + tabCount 8 0 col) % 80 := by decide
  exact hne t.x.val t.x.isLt (by omega)

structure PutsAgrees (s : Console) (t : Screen) (str : List (BitVec 8)) : Prop where
  displays : Displays (s.puts str) (t.print s.defaultColor (cString str))
  within : Within s (s.puts str)
  pointed : cString str ≠ [] → (s.puts str).Pointed

theorem not_mem_cString (str : List (BitVec 8)) : 0#8 ∉ cString str := by
  intro h
  simpa using List.mem_takeWhile_imp h

theorem cString_eq_self {str : List (BitVec 8)} (h : 0#8 ∉ str) : cString str = str := by
  unfold cString
  rw [List.takeWhile_eq_self_iff]
  intro c hc
  have hne : c ≠ 0#8 := fun heq => h (heq ▸ hc)
  simpa using hne

theorem Screen.print_append (color : BitVec 8) (t : Screen) (str str' : List (BitVec 8)) :
    t.print color (str ++ str') = (t.print color str).print color str' := List.foldl_append

theorem Displays.foldl_putc (h : Displays s t) {str : List (BitVec 8)} (htab : ch '\t' ∉ str) :
    Displays (str.foldl Console.putc s) (t.print s.defaultColor str) ∧
      Within s (str.foldl Console.putc s) ∧ (str ≠ [] → (str.foldl Console.putc s).Pointed) := by
  induction str generalizing s t with
  | nil => exact ⟨h, Within.refl s, fun hne => absurd rfl hne⟩
  | cons c str ih =>
    have hc : c ≠ ch '\t' := fun heq => htab (heq ▸ List.mem_cons_self)
    have hdraw := h.putc hc
    have hrest := ih hdraw.displays fun hmem => htab (List.mem_cons_of_mem c hmem)
    rw [hdraw.within.defaultColor] at hrest
    refine ⟨hrest.1, hdraw.within.trans hrest.2.1, fun _ => ?_⟩
    cases str with
    | nil => exact hdraw.pointed
    | cons d str => exact hrest.2.2 (List.cons_ne_nil d str)

theorem Displays.putsAgrees (h : Displays s t) {str : List (BitVec 8)} (htab : ch '\t' ∉ cString str) :
    PutsAgrees s t str := by
  obtain ⟨hdisplays, hwithin, hpointed⟩ := h.foldl_putc htab
  exact ⟨hdisplays, hwithin, hpointed⟩

/-- From any screen and position the console shows what the terminal does with the string, as
long as the string has no tab; with one it is wrong right after its first tab. Only the prefixes
can say so: what follows may overwrite the difference or scroll it away. -/
theorem puts_agrees_iff (h : Displays s t) (str : List (BitVec 8)) :
    (ch '\t' ∉ cString str → PutsAgrees s t str) ∧
      ((∀ pre, pre <+: cString str → PutsAgrees s t pre) ↔ ch '\t' ∉ cString str) := by
  refine ⟨h.putsAgrees, fun hall hmem => ?_, fun htab pre hpre => h.putsAgrees fun hmem => ?_⟩
  · obtain ⟨line, rest, heq, hline⟩ := List.eq_append_cons_of_mem hmem
    have hpre : line ++ [ch '\t'] <+: cString str := ⟨rest, by rw [heq, List.append_assoc]; rfl⟩
    have hnul : 0#8 ∉ line ++ [ch '\t'] := fun hz => not_mem_cString str (hpre.subset hz)
    have hshow := (hall _ hpre).displays
    obtain ⟨hbefore, hwithin, -⟩ := h.foldl_putc hline
    have hnot := hbefore.not_tab
    rw [Console.puts, cString_eq_self hnul, List.foldl_append, Screen.print_append] at hshow
    rw [hwithin.defaultColor] at hnot
    exact hnot hshow
  · exact htab (hpre.subset (List.takeWhile_subset _ hmem))

def blankConsole (x y : Int) : Console where
  screenBuffer i := if i % 2 = 0 then ch ' ' else 0x0F#8
  screenX := x
  screenY := y
  defaultColor := 0x0F#8
  cursorLow := 0#8
  cursorHigh := 0#8
  writes := []

def blankScreen (x : Fin 80) (y : Fin 25) : Screen := ⟨fun _ _ => (ch ' ', 0x0F#8), x, y⟩

theorem displays_blank (x : Fin 80) (y : Fin 25) :
    Displays (blankConsole x.val y.val) (blankScreen x y) where
  screenX := rfl
  screenY := rfl
  char r k := if_pos (by omega)
  colour r k := if_neg (by omega)

theorem puts_agrees_corner :
    (ch '\t' ∉ cString [ch 'a', ch '\n'] →
        PutsAgrees (blankConsole 79 24) (blankScreen 79 24) [ch 'a', ch '\n']) ∧
      ((∀ pre, pre <+: cString [ch 'a', ch '\n'] →
        PutsAgrees (blankConsole 79 24) (blankScreen 79 24) pre) ↔
          ch '\t' ∉ cString [ch 'a', ch '\n']) :=
  puts_agrees_iff (displays_blank 79 24) [ch 'a', ch '\n']

/-- A tab in column 0 ends in column 2. -/
theorem not_puts_agrees_tab : Displays (blankConsole 0 0) (blankScreen 0 0) ∧
    ((blankConsole 0 0).puts [ch '\t']).screenX = 2 ∧
    ((blankScreen 0 0).print 0x0F#8 [ch '\t']).x.val = 4 ∧
    ¬PutsAgrees (blankConsole 0 0) (blankScreen 0 0) [ch '\t'] := by
  have hshow := displays_blank 0 0
  have hx : ((blankConsole 0 0).puts [ch '\t']).screenX = 2 := by decide
  have ht : ((blankScreen 0 0).print 0x0F#8 [ch '\t']).x.val = 4 := by decide
  refine ⟨hshow, hx, ht, fun hagrees => ?_⟩
  exact hshow.not_tab hagrees.displays

end SplongleOS.Stdio
