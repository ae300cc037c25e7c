import SplongleOS.LineEditor
set_option autoImplicit false

/-! What the prompt line shows against what `input` holds. -/

namespace SplongleOS
open Stdio CountedLoop

/-- From the cell `promptEnd` on the screen reads `input[0..pos)`, and the cursor is behind it. -/
structure Echoed (u : Console) (input : Int → BitVec 8) (pos promptEnd : Int) : Prop where
  screenX : 0 ≤ u.screenX ∧ u.screenX < 80
  screenY : 0 ≤ u.screenY ∧ u.screenY < 25
  prompt : 0 ≤ promptEnd
  cursor : 80 * u.screenY + u.screenX = promptEnd + pos
  pointed : u.Pointed
  cells : ∀ i : Nat, i < pos → u.screenBuffer (2 * (promptEnd.toNat + i)) = input i

def Shell.InSync (s : Shell) : Prop :=
  0 ≤ s.pos ∧ s.pos ≤ 127 ∧ Echoed s.console s.input s.pos s.promptEnd

variable {u : Console} {input : Int → BitVec 8} {pos promptEnd : Int} {c : BitVec 8}

theorem Echoed.left_iff (h : Echoed u input pos promptEnd) :
    Echoed (u.movecursor 75#32) input pos promptEnd ↔ u.screenX ≤ 2 := by
  by_cases hgt : 2 < u.screenX
  · rw [movecursor_left hgt]
    refine iff_of_false (fun hmoved => ?_) (by omega)
    have hold := h.cursor
    have hnew : 80 * u.screenY + (u.screenX - 1) = promptEnd + pos := hmoved.cursor
    omega
  · rw [movecursor_left_of_le (by omega)]
    exact iff_of_true h (by omega)

theorem Echoed.not_right (h : Echoed u input pos promptEnd) :
    ¬Echoed (u.movecursor 77#32) input pos promptEnd := by
  rw [movecursor_right h.screenX.1 h.screenX.2]
  intro hmoved
  have hold := h.cursor
  have hnew : 80 * u.screenY + (u.screenX + 1) = promptEnd + pos := hmoved.cursor
  omega

theorem Echoed.erase (h : Echoed u input pos promptEnd) (hx : 0 < u.screenX) :
    Echoed u.eatc input (pos - 1) promptEnd := by
  have hcursor := h.cursor
  have hcol := h.screenX
  have hrow := h.screenY
  have hprompt := h.prompt
  obtain ⟨x, hx'⟩ := Int.eq_ofNat_of_zero_le (show 0 ≤ u.screenX - 1 by omega)
  obtain ⟨y, hy'⟩ := Int.eq_ofNat_of_zero_le hrow.1
  have hblank := repainted_putchr (s := u.pointTo x y) (x := x) (y := y) (by omega) (by omega) (ch ' ')
  have hpointed : (u.pointTo x y).Pointed := pointed_setcursor (s := u.moveTo x y) rfl rfl
  have hx0 : ((u.pointTo x y).putchr x y (ch ' ')).screenX = x := hblank.screenX
  have hy0 : ((u.pointTo x y).putchr x y (ch ' ')).screenY = y := hblank.screenY
  rw [eatc_left hx, hx', hy']
  refine ⟨by omega, by omega, hprompt, by omega, hpointed, fun i hi => ?_⟩
  rw [hblank.screenBuffer, if_neg (by omega)]
  exact h.cells i (by omega)

/-- At the left edge the cursor does not get onto the row above. -/
theorem Echoed.erase_iff (h : Echoed u input pos promptEnd) (hpos : 0 < pos) :
    Echoed u.eatc input (pos - 1) promptEnd ↔ u.screenX ≠ 0 := by
  have hcol := h.screenX
  by_cases hx : u.screenX = 0
  · have hcursor := h.cursor
    have hprompt := h.prompt
    have hrow : u.screenY ≠ 0 := by omega
    rw [eatc_edge hx hrow]
    exact iff_of_false (fun hmoved => absurd hmoved.screenX.2 (lt_irrefl 80)) (not_not.mpr hx)
  · exact iff_of_true (h.erase (by omega)) hx

theorem Echoed.echo (h : Echoed u input pos promptEnd)
    (hc : c ≠ ch '\n' ∧ c ≠ ch '\r' ∧ c ≠ ch '\t')
    (hlast : 80 * u.screenY + u.screenX ≠ 1999) :
    Echoed (u.putc c) (Function.update input pos c) (pos + 1) promptEnd := by
  have hcol := h.screenX
  have hrow := h.screenY
  have hprompt := h.prompt
  have hcursor := h.cursor
  obtain ⟨t, ht⟩ := exists_displays hcol hrow
  have hindex := ht.index_eq
  have hputc : u.putc c = u.putcDefault c := by simp [Console.putc, hc]
  obtain ⟨hcell, hnext⟩ := t.write_of_index_lt (ch ' ', u.defaultColor) (c, u.defaultColor) (by omega)
  have hdraw := ht.putcDefault c
  have hindex' := hdraw.displays.index_eq
  have hx' := hdraw.displays.screenX
  have hy' := hdraw.displays.screenY
  have hxlt := (t.write (ch ' ', u.defaultColor) (c, u.defaultColor)).x.isLt
  have hylt := (t.write (ch ' ', u.defaultColor) (c, u.defaultColor)).y.isLt
  rw [hputc]
  refine ⟨by omega, by omega, hprompt, by omega, hdraw.pointed, fun i hi => ?_⟩
  have hold := ht.char_at (n := promptEnd.toNat + i) (by omega)
  have hnew := hdraw.displays.char_at (n := promptEnd.toNat + i) (by omega)
  rw [hcell] at hnew
  rw [hnew]
  by_cases hi' : (i : Int) = pos
  · have hhere : promptEnd.toNat + i = t.index := by omega
    have hset := t.set_cell_index (c, u.defaultColor) (n := promptEnd.toNat + i) (by omega) (by omega)
    rw [hset, if_pos hhere, hi', Function.update_self]
  · have hset := t.set_cell_index (c, u.defaultColor) (n := promptEnd.toNat + i) (by omega) (by omega)
    rw [hset, if_neg (by omega), Function.update_of_ne hi', ← hold]
    exact h.cells i (by omega)

variable {command : List (BitVec 8) → Console → Console} {s : Shell}

def Shell.Stays (s : Shell) (c : BitVec 8) : Prop :=
  (c ≠ ch '\n' ∧ c ≠ ch '\r' ∧ c ≠ ch '\t') ∧
    (¬(c = 0x08#8 ∧ 0 < s.pos) → s.pos < 127 → 80 * s.console.screenY + s.console.screenX ≠ 1999)

instance (s : Shell) (c : BitVec 8) : Decidable (s.Stays c) := inferInstanceAs (Decidable (_ ∧ _))

def Shell.OnLine (s : Shell) : ShellEvent → Prop
  | .round => keyboardHaschar s.kb = true → s.Stays (keyboardGetchar s.kb).1
  | _ => True

/-- The left arrow must not find the cursor beyond column 2, nor a backspace at the left edge;
the right arrow always moves it. -/
def Shell.KeepsLine (s : Shell) : ShellEvent → Prop
  | .interrupt code => (code = 75#8 → s.console.screenX ≤ 2) ∧ code ≠ 77#8
  | .push _ => True
  | .round => keyboardHaschar s.kb = true → (keyboardGetchar s.kb).1 = 0x08#8 → 0 < s.pos →
      s.console.screenX ≠ 0

theorem Shell.InSync.receive_iff (h : s.InSync) (hc : s.Stays c) :
    (s.receive command c).InSync ↔ (c = 0x08#8 → 0 < s.pos → s.console.screenX ≠ 0) := by
  obtain ⟨hpos, hfull, hecho⟩ := h
  have hroom := room_iff ⟨hpos, hfull⟩
  rw [Shell.receive, if_neg hc.1.1]
  by_cases herase : c = 0x08#8 ∧ 0 < s.pos
  · have hiff := hecho.erase_iff herase.2
    rw [if_pos herase]
    constructor
    · intro hsync _ _
      exact hiff.mp hsync.2.2
    · intro hx
      exact ⟨by dsimp only; omega, by dsimp only; omega, hiff.mpr (hx herase.1 herase.2)⟩
  · rw [if_neg herase]
    refine iff_of_true ?_ fun hb hlt => absurd ⟨hb, hlt⟩ herase
    by_cases hlt : s.pos < 127
    · have hnext := hecho.echo hc.1 (hc.2 herase hlt)
      rw [← printk_char] at hnext
      rw [if_pos (hroom.mpr hlt)]
      exact ⟨by dsimp only [Shell.echo, Shell.store]; omega,
        by dsimp only [Shell.echo, Shell.store]; omega, hnext⟩
    · rw [if_neg (hroom.not.mpr hlt)]
      exact ⟨hpos, hfull, hecho⟩

theorem Shell.InSync.interrupt_iff (h : s.InSync) (code : BitVec 8) :
    (s.step command (.interrupt code)).InSync ↔ (code = 75#8 → s.console.screenX ≤ 2) ∧ code ≠ 77#8 := by
  obtain ⟨hpos, hfull, hecho⟩ := h
  have hsync : (s.step command (.interrupt code)).InSync ↔
      Echoed (keyboardHandler s.toGlobals code).console s.input s.pos s.promptEnd :=
    ⟨fun hs => hs.2.2, fun he => ⟨hpos, hfull, he⟩⟩
  rw [hsync, keyboardHandler_console]
  by_cases hleft : code = 75#8
  · subst hleft
    have hiff := hecho.left_iff
    simpa using hiff
  · by_cases hright : code = 77#8
    · subst hright
      have hnot := hecho.not_right
      simpa using hnot
    · simp [hleft, hright, hecho]

theorem Shell.InSync.step_iff (h : s.InSync) {e : ShellEvent} (hline : s.OnLine e) :
    (s.step command e).InSync ↔ s.KeepsLine e := by
  cases e with
  | interrupt code => exact h.interrupt_iff code
  | push c => exact iff_of_true h trivial
  | round =>
    cases hchar : keyboardHaschar s.kb with
    | false =>
      rw [Shell.step, round_idle hchar]
      exact iff_of_true h fun htrue => Bool.noConfusion (hchar.symm.trans htrue)
    | true =>
      have hkb : Shell.InSync { s with kb := (keyboardGetchar s.kb).2 } := h
      rw [Shell.step, round_receive hchar, hkb.receive_iff (hline hchar)]
      exact ⟨fun hx _ => hx, fun hx => hx hchar⟩

def Shell.OnScreen (s : Shell) : Prop := ∃ t : Screen, Displays s.console t

theorem inSync_start (h : s.OnScreen) : s.start.InSync := by
  obtain ⟨t, ht⟩ := h
  have hagrees : PutsAgrees s.console t [ch '$', ch '>'] := ht.putsAgrees (by decide)
  have hx := hagrees.displays.screenX
  have hy := hagrees.displays.screenY
  have hxlt := (t.print s.console.defaultColor (cString [ch '$', ch '>'])).x.isLt
  have hylt := (t.print s.console.defaultColor (cString [ch '$', ch '>'])).y.isLt
  have hpointed := hagrees.pointed (by decide)
  have hstart : Echoed (s.console.puts [ch '$', ch '>']) s.input 0
      (80 * (s.console.puts [ch '$', ch '>']).screenY + (s.console.puts [ch '$', ch '>']).screenX) :=
    ⟨by omega, by omega, by omega, by omega, hpointed, fun i hi => absurd hi (by omega)⟩
  exact ⟨le_rfl, Int.zero_le_ofNat 127, hstart⟩

/-- As long as no event meets the line where `KeepsLine` forbids it, the screen reads from the
prompt on what `input` holds, and the cursor is where the next character will be; the first such
event breaks that. -/
theorem inSync_of_run
    (h : Shell.Run command (fun s e => s.OnLine e ∧ s.KeepsLine e) Shell.OnScreen s) :
    s.InSync ∧ ∀ e, s.OnLine e → ((s.step command e).InSync ↔ s.KeepsLine e) := by
  have hinv : s.InSync := by
    refine Runs.Reach.invariant_total (I := Shell.InSync) (fun s hs => ?_)
      (fun s e hi hok => (hi.step_iff hok.1).mpr hok.2) h
    obtain ⟨s₀, hscreen, rfl⟩ := hs
    exact inSync_start hscreen
  exact ⟨hinv, fun e hline => hinv.step_iff hline⟩

theorem onScreen_blankShell : blankShell.OnScreen := ⟨blankScreen 0 5, displays_blank 0 5⟩

theorem inSync_of_run_letter : (blankShell.start.type [ch 'a']).InSync ∧
    ∀ e, (blankShell.start.type [ch 'a']).OnLine e →
      (((blankShell.start.type [ch 'a']).step (fun _ u => u) e).InSync ↔
        (blankShell.start.type [ch 'a']).KeepsLine e) :=
  inSync_of_run (s := blankShell.start.type [ch 'a'])
    (.next .round (.next (.push (ch 'a')) (.start ⟨blankShell, onScreen_blankShell, rfl⟩)
      ⟨trivial, trivial⟩ rfl) ⟨fun _ => by decide, fun _ hc => absurd hc (by decide)⟩ rfl)

def arrowed : Shell := (blankShell.start.type [ch 'a', ch 'b']).step (fun _ u => u) (.interrupt 75#8)

/-- The cursor is on the second letter. A third one overwrites it on the screen and follows it
in the line that is sent. -/
theorem not_inSync_arrowed :
    Shell.Run (fun _ u => u) (fun s e => s.OnLine e) Shell.OnScreen arrowed ∧ ¬arrowed.InSync ∧
      ((arrowed.type [ch 'c']).console.screenBuffer (2 * 402) = ch 'a' ∧
        (arrowed.type [ch 'c']).console.screenBuffer (2 * 403) = ch 'c') ∧
      (arrowed.type [ch 'c']).submitted = [ch 'a', ch 'b', ch 'c'] := by
  refine ⟨?_, fun hsync => ?_, by decide, by decide⟩
  · exact .next (.interrupt 75#8) (.next .round (.next (.push (ch 'b')) (.next .round
      (.next (.push (ch 'a')) (.start ⟨blankShell, onScreen_blankShell, rfl⟩) trivial rfl)
      (fun _ => by decide) rfl) trivial rfl) (fun _ => by decide) rfl) trivial rfl
  · have hcursor := hsync.2.2.cursor
    exact absurd hcursor (by decide)

end SplongleOS
