import SplongleOS.Rtc
import SplongleOS.Typing
set_option autoImplicit false

/-! The clock on the screen, rtc.c: `print_datetime` and `blank_datetime` write over what the
20 cells from column 60 of row 23 on show. -/

namespace SplongleOS
open Stdio

/-- Both save the position, set it to the first of the cells, print, and restore it. -/
def Stdio.Console.overlay (s : Console) (format : List (BitVec 8)) (args : List Arg) : Console :=
  let X := s.screenX
  let Y := s.screenY
  let s := s.pointTo 60 23
  let s := s.printk (fun i => (args.flatMap Arg.words).getD i 0#32) (fun _ => []) format
  s.pointTo X Y

def fieldArg {w : Nat} (v : BitVec w) : Arg := .number .none true (v.setWidth 32)

def Datetime.format (t : Datetime) : List (BitVec 8) :=
  if 10#8 ≤ t.second then "%d-%d-%d %d:%d:%d".toList.map ch else "%d-%d-%d %d:%d:0%d".toList.map ch

def Datetime.args (t : Datetime) : List Arg :=
  [fieldArg t.day, fieldArg t.month, fieldArg t.year, fieldArg t.hour, fieldArg t.minute,
    fieldArg t.second]

def printDatetime (s : Console) (t : Datetime) : Console := s.overlay t.format t.args

def blankDatetime (s : Console) : Console := s.overlay (List.replicate 20 (ch ' ')) []

def decimal (n : Nat) : List (BitVec 8) := (Nat.toDigits 10 n).map ch

def Datetime.date (t : Datetime) : List (BitVec 8) :=
  decimal t.day.toNat ++ ch '-' :: (decimal t.month.toNat ++ ch '-' :: decimal t.year.toNat)

/-- Only the seconds get a leading zero. -/
def Datetime.time (t : Datetime) : List (BitVec 8) :=
  decimal t.hour.toNat ++ ch ':' :: (decimal t.minute.toNat ++ ch ':' ::
    if 10 ≤ t.second.toNat then decimal t.second.toNat else ch '0' :: decimal t.second.toNat)

def Datetime.text (t : Datetime) : List (BitVec 8) := t.date ++ ch ' ' :: t.time

theorem ch_isDigit {c : Char} (h : c.isDigit = true) : Printable (ch c) ∧ ch c ≠ ch ' ' := by
  have hrange : 48 ≤ c.toNat ∧ c.toNat ≤ 57 := by
    simpa [Char.isDigit, UInt32.le_iff_toNat_le] using h
  have hch : (ch c).toNat = c.toNat := by
    rw [ch, BitVec.toNat_ofNat, Nat.mod_eq_of_lt (by omega)]
  have hblank : (ch ' ').toNat = 32 := rfl
  refine ⟨⟨?_, ?_⟩, fun heq => ?_⟩
  · rw [BitVec.le_def, hch]
    exact Nat.le_trans (by decide) hrange.1
  · rw [BitVec.le_def, hch]
    exact Nat.le_trans hrange.2 (by decide)
  · rw [heq, hblank] at hch
    omega

theorem decimal_digit {n : Nat} {c : BitVec 8} (h : c ∈ decimal n) : Printable c ∧ c ≠ ch ' ' := by
  obtain ⟨d, hd, rfl⟩ := List.mem_map.mp h
  exact ch_isDigit (Nat.isDigit_of_mem_toDigits (by decide) (by decide) hd)

theorem decimal_length_le {n k : Nat} (hk : 0 < k) (h : n < 10 ^ k) : (decimal n).length ≤ k := by
  rw [decimal, List.length_map]
  exact (Nat.length_toDigits_le_iff (by decide) hk).mpr h

theorem decimal_ne_nil (n : Nat) : decimal n ≠ [] := by
  have hpos := Nat.length_toDigits_pos (b := 10) (n := n)
  intro hnil
  rw [decimal, List.map_eq_nil_iff] at hnil
  rw [hnil] at hpos
  exact absurd hpos (by decide)

theorem numeral_natCast (n : Nat) : numeral 10 n = decimal n := by
  simp [numeral, decimal]

theorem exactValue_setWidth {w : Nat} (v : BitVec w) (hw : w < 32) :
    exactValue true (v.setWidth 32) = v.toNat := by
  have hlt : v.toNat < 2 ^ 31 :=
    Nat.lt_of_lt_of_le v.isLt (Nat.pow_le_pow_right (by decide) (by omega))
  rw [exactValue, if_pos rfl, BitVec.toInt_eq_toNat_of_lt] <;>
    rw [BitVec.toNat_setWidth, Nat.mod_eq_of_lt (by omega)]
  omega

theorem prints_field {w : Nat} (v : BitVec w) (hw : w < 32) :
    Item.Prints (fun _ => []) (.number .none true 10) [fieldArg v] (decimal v.toNat) := by
  rw [← numeral_natCast, ← exactValue_setWidth v hw]
  exact .number true 10 _

theorem laid_getD (pre ws : List (BitVec 32)) :
    Laid (fun i => (pre ++ ws).getD i 0#32) pre.length ws := by
  induction ws generalizing pre with
  | nil => exact trivial
  | cons w ws ih =>
    have hrest := ih (pre ++ [w])
    rw [List.append_assoc, List.length_append] at hrest
    refine ⟨?_, hrest⟩
    change (pre ++ w :: ws).getD pre.length 0#32 = w
    rw [List.getD_append_right _ _ _ _ (Nat.le_refl _), Nat.sub_self]
    rfl

theorem printk_out {fmt shown : List (BitVec 8)} {args : List Arg}
    (h : Formats (fun _ => []) (items (cString fmt)) args shown) :
    (Stdio.printk (fun i => (args.flatMap Arg.words).getD i 0#32) (fun _ => []) fmt).out = shown :=
  (printk_reference h (laid_getD [] _)).emitted

theorem formats_fields (t : Datetime) {is : List Item} {last : List (BitVec 8)}
    (h : Formats (fun _ => []) is [fieldArg t.second] last) :
    Formats (fun _ => [])
      (.number .none true 10 :: .text (ch '-') :: .number .none true 10 :: .text (ch '-') ::
        .number .none true 10 :: .text (ch ' ') :: .number .none true 10 :: .text (ch ':') ::
        .number .none true 10 :: .text (ch ':') :: is) t.args
      (t.date ++
        ch ' ' :: (decimal t.hour.toNat ++ ch ':' :: (decimal t.minute.toNat ++ ch ':' :: last))) := by
  have hall := Formats.cons (prints_field t.day (by decide)) <|
    .cons (.text (ch '-')) <| .cons (prints_field t.month (by decide)) <|
    .cons (.text (ch '-')) <| .cons (prints_field t.year (by decide)) <|
    .cons (.text (ch ' ')) <| .cons (prints_field t.hour (by decide)) <|
    .cons (.text (ch ':')) <| .cons (prints_field t.minute (by decide)) <|
    .cons (.text (ch ':')) h
  simpa [Datetime.date, Datetime.args] using hall

theorem formats_text (t : Datetime) :
    Formats (fun _ => []) (items (cString t.format)) t.args t.text := by
  have hlast : Formats (fun _ => []) [.number .none true 10] [fieldArg t.second]
      (decimal t.second.toNat) := by
    have h := Formats.cons (prints_field t.second (by decide)) .nil
    rwa [List.append_nil, List.append_nil] at h
  have hten : 10#8 ≤ t.second ↔ 10 ≤ t.second.toNat := by
    rw [BitVec.le_def]
    rfl
  rw [Datetime.text, Datetime.time, Datetime.format]
  by_cases hpad : 10#8 ≤ t.second
  · have hitems : items (cString ("%d-%d-%d %d:%d:%d".toList.map ch)) =
        .number .none true 10 :: .text (ch '-') :: .number .none true 10 :: .text (ch '-') ::
          .number .none true 10 :: .text (ch ' ') :: .number .none true 10 :: .text (ch ':') ::
          .number .none true 10 :: .text (ch ':') :: [.number .none true 10] := by
      simp [cString, items, ch, conversion]
    rw [if_pos hpad, if_pos (hten.mp hpad), hitems]
    exact formats_fields t hlast
  · have hitems : items (cString ("%d-%d-%d %d:%d:0%d".toList.map ch)) =
        .number .none true 10 :: .text (ch '-') :: .number .none true 10 :: .text (ch '-') ::
          .number .none true 10 :: .text (ch ' ') :: .number .none true 10 :: .text (ch ':') ::
          .number .none true 10 :: .text (ch ':') :: [.text (ch '0'), .number .none true 10] := by
      simp [cString, items, ch, conversion]
    have hzero : Formats (fun _ => []) [.text (ch '0'), .number .none true 10] [fieldArg t.second]
        (ch '0' :: decimal t.second.toNat) := .cons (.text (ch '0')) hlast
    rw [if_neg hpad, if_neg (hten.not.mp hpad), hitems]
    exact formats_fields t hzero

theorem text_printable (t : Datetime) : ∀ c ∈ t.text, Printable c := by
  have hdash : Printable (ch '-') := by decide
  have hblank : Printable (ch ' ') := by decide
  have hcolon : Printable (ch ':') := by decide
  have hzero : Printable (ch '0') := by decide
  have hdigit : ∀ {n : Nat} {c : BitVec 8}, c ∈ decimal n → Printable c := fun h => (decimal_digit h).1
  intro c hc
  rw [Datetime.text, Datetime.date, Datetime.time] at hc
  by_cases hpad : 10 ≤ t.second.toNat
  · simp only [if_pos hpad, List.mem_append, List.mem_cons] at hc
    grind
  · simp only [if_neg hpad, List.mem_append, List.mem_cons] at hc
    grind

theorem text_length_le (t : Datetime) : t.text.length ≤ 25 := by
  have hbyte : ∀ v : BitVec 8, (decimal v.toNat).length ≤ 3 := fun v =>
    decimal_length_le (by decide) (Nat.lt_trans v.isLt (by decide))
  have hyear : (decimal t.year.toNat).length ≤ 5 :=
    decimal_length_le (by decide) (Nat.lt_trans t.year.isLt (by decide))
  have hday := hbyte t.day
  have hmonth := hbyte t.month
  have hhour := hbyte t.hour
  have hminute := hbyte t.minute
  have hsecond := hbyte t.second
  rw [Datetime.text, Datetime.date, Datetime.time]
  by_cases hpad : 10 ≤ t.second.toNat
  · simp only [if_pos hpad, List.length_append, List.length_cons]
    omega
  · have hone : (decimal t.second.toNat).length ≤ 1 := decimal_length_le (by decide) (by omega)
    simp only [if_neg hpad, List.length_append, List.length_cons]
    omega

theorem text_getLast (t : Datetime) : ∃ str c, t.text = str ++ [c] ∧ c ≠ ch ' ' := by
  have hsecond := decimal_ne_nil t.second.toNat
  have hlast := (decimal_digit (List.getLast_mem hsecond)).2
  have hsplit := (List.dropLast_append_getLast hsecond).symm
  generalize (decimal t.second.toNat).getLast hsecond = c at hlast hsplit
  generalize (decimal t.second.toNat).dropLast = str at hsplit
  rw [Datetime.text, Datetime.time]
  by_cases hpad : 10 ≤ t.second.toNat
  · rw [if_pos hpad]
    exact ⟨t.date ++ ch ' ' :: (decimal t.hour.toNat ++ ch ':' :: (decimal t.minute.toNat ++
      ch ':' :: str)), c, by simp [hsplit], hlast⟩
  · rw [if_neg hpad]
    exact ⟨t.date ++ ch ' ' :: (decimal t.hour.toNat ++ ch ':' :: (decimal t.minute.toNat ++
      ch ':' :: ch '0' :: str)), c, by simp [hsplit], hlast⟩

variable {s u : Console} {t : Datetime} {format text shown : List (BitVec 8)} {args : List Arg}

/-- What either function leaves: the characters from the first cell on, and the position. -/
structure Overlaid (s u : Console) (text : List (BitVec 8)) : Prop where
  screenX : u.screenX = s.screenX
  screenY : u.screenY = s.screenY
  noScroll : (s.pointTo 60 23).NoScroll text
  screenBuffer : ∀ i, u.screenBuffer i = painted 1900 s.defaultColor text s.screenBuffer i

theorem overlaid (hformat : Formats (fun _ => []) (items (cString format)) args text)
    (htext : ∀ c ∈ text, Printable c) (hlength : text.length < 100) :
    Overlaid s (s.overlay format args) text := by
  have hplace : (s.pointTo 60 23).place = 1900 := rfl
  have hx : 0 ≤ (s.pointTo 60 23).screenX ∧ (s.pointTo 60 23).screenX < 80 := by
    change (0 : Int) ≤ 60 ∧ (60 : Int) < 80
    decide
  have hy : 0 ≤ (s.pointTo 60 23).screenY ∧ (s.pointTo 60 23).screenY < 25 := by
    change (0 : Int) ≤ 23 ∧ (23 : Int) < 25
    decide
  have hstay : (s.pointTo 60 23).NoScroll text :=
    noScroll_of_place hx hy htext (by rw [hplace]; omega)
  have htyped := typed_foldl_putc hx hy htext hstay
  refine ⟨rfl, rfl, hstay, fun i => ?_⟩
  have hbuffer := htyped.screenBuffer i
  rw [hplace] at hbuffer
  rw [← printk_out hformat] at hbuffer ⊢
  exact hbuffer

theorem overlaid_print (s : Console) (t : Datetime) : Overlaid s (printDatetime s t) t.text :=
  overlaid (formats_text t) (text_printable t) (Nat.lt_of_le_of_lt (text_length_le t) (by decide))

theorem formats_replicate {c : BitVec 8} (hc : c ≠ ch '%') (n : Nat) :
    Formats (fun _ => []) (items (List.replicate n c)) [] (List.replicate n c) := by
  induction n with
  | zero => exact .nil
  | succ n ih =>
    rw [List.replicate_succ, items.eq_def]
    dsimp only
    rw [if_neg hc]
    exact .cons (.text c) ih

theorem overlaid_blank (s : Console) :
    Overlaid s (blankDatetime s) (List.replicate 20 (ch ' ')) := by
  have hprintable : ∀ c ∈ List.replicate 20 (ch ' '), Printable c := by
    intro c hc
    rw [List.eq_of_mem_replicate hc]
    decide
  have hstring : cString (List.replicate 20 (ch ' ')) = List.replicate 20 (ch ' ') := by decide
  refine overlaid ?_ hprintable (by simp)
  rw [hstring]
  exact formats_replicate (by decide) 20

def Stdio.Console.clockCells (s : Console) : List (BitVec 8) :=
  (List.range 20).map fun k => s.screenBuffer (2 * (1900 + k))

def Stdio.Console.clockBytes (s : Console) : List (BitVec 8) :=
  (List.range 40).map fun i => s.screenBuffer (3800 + i)

theorem Overlaid.clockCells (h : Overlaid s u text) :
    u.clockCells = text.take 20 ++ s.clockCells.drop text.length := by
  refine List.ext_getElem (by simp [Console.clockCells]; omega) fun k hk hk' => ?_
  have hlt : k < 20 := by simpa [Console.clockCells] using hk
  have heven : 2 * (1900 + k) % 2 = 0 := by omega
  have hcell : 2 * (1900 + k) / 2 - 1900 = k := by omega
  have hleft : u.clockCells[k] = painted 1900 s.defaultColor text s.screenBuffer (2 * (1900 + k)) := by
    simp [Console.clockCells, h.screenBuffer]
  refine hleft.trans ?_
  rw [painted, if_pos heven, hcell]
  by_cases htext : k < text.length
  · rw [if_pos (by omega), List.getElem_append_left (by simp; omega), List.getElem_take,
      List.getD_eq_getElem _ _ htext]
  · rw [if_neg (by omega), List.getElem_append_right (by simp; omega), List.getElem_drop]
    have hindex : text.length + (k - (text.take 20).length) = k := by
      rw [List.length_take]
      omega
    simp only [hindex, Console.clockCells, List.getElem_map, List.getElem_range]

theorem clockCells_length (s : Console) : s.clockCells.length = 20 := by simp [Console.clockCells]

/-- The cells read the text and then blanks, and nothing else has changed. -/
structure ClockShows (s u : Console) (text : List (BitVec 8)) : Prop where
  cells : ∃ n, u.clockCells = text ++ List.replicate n (ch ' ')
  other : ∀ i, ¬(3800 ≤ i ∧ i < 3840) → u.screenBuffer i = s.screenBuffer i
  noScroll : (s.pointTo 60 23).NoScroll text
  screenX : u.screenX = s.screenX
  screenY : u.screenY = s.screenY

theorem Overlaid.shows_iff (h : Overlaid s u text) :
    ClockShows s u text ↔
      text.length ≤ 20 ∧ ∀ c ∈ s.clockCells.drop text.length, c = ch ' ' := by
  have hcells := h.clockCells
  have hlength := clockCells_length u
  constructor
  · intro hshows
    obtain ⟨n, hn⟩ := hshows.cells
    have hfits : text.length ≤ 20 := by
      rw [hn, List.length_append] at hlength
      omega
    rw [hcells, List.take_of_length_le hfits] at hn
    refine ⟨hfits, fun c hc => ?_⟩
    rw [List.append_cancel_left hn] at hc
    exact List.eq_of_mem_replicate hc
  · intro hfits
    obtain ⟨hle, hblank⟩ := hfits
    refine ⟨⟨(s.clockCells.drop text.length).length, ?_⟩, fun i hi => ?_, h.noScroll, h.screenX,
      h.screenY⟩
    · have hrest := List.eq_replicate_of_mem hblank
      rw [hcells, List.take_of_length_le hle]
      exact congrArg (text ++ ·) hrest
    · rw [h.screenBuffer, painted, if_neg (by omega)]

structure Reads (s : Console) (shown : List (BitVec 8)) : Prop where
  fits : shown.length ≤ 20
  cells : s.clockCells = shown ++ List.replicate (20 - shown.length) (ch ' ')
  last : shown = [] ∨ ∃ str c, shown = str ++ [c] ∧ c ≠ ch ' '

theorem Reads.blank_iff (h : Reads s shown) (n : Nat) :
    (∀ c ∈ s.clockCells.drop n, c = ch ' ') ↔ shown.length ≤ n := by
  rw [h.cells, List.drop_append]
  constructor
  · intro hblank
    by_contra hlong
    cases h.last with
    | inl hnil => simp [hnil] at hlong
    | inr hlast =>
      obtain ⟨str, c, rfl, hc⟩ := hlast
      rw [List.length_append, List.length_singleton] at hlong
      refine hc (hblank c (List.mem_append_left _ ?_))
      rw [List.drop_append_of_le_length (by omega)]
      exact List.mem_append_right _ List.mem_cons_self
  · intro hle c hc
    rw [List.drop_eq_nil_of_le hle, List.nil_append, List.drop_replicate] at hc
    exact List.eq_of_mem_replicate hc

theorem Reads.print_iff (h : Reads s shown) (t : Datetime) :
    ClockShows s (printDatetime s t) t.text ↔ t.text.length ≤ 20 ∧ shown.length ≤ t.text.length := by
  rw [(overlaid_print s t).shows_iff, h.blank_iff]

theorem Reads.print (h : Reads s shown) (hfits : t.text.length ≤ 20 ∧ shown.length ≤ t.text.length) :
    Reads (printDatetime s t) t.text := by
  obtain ⟨n, hn⟩ := ((h.print_iff t).mpr hfits).cells
  have hlength := clockCells_length (printDatetime s t)
  rw [hn, List.length_append, List.length_replicate] at hlength
  refine ⟨hfits.1, ?_, Or.inr (text_getLast t)⟩
  rw [hn]
  congr 2
  omega

theorem reads_blank (s : Console) : Reads (blankDatetime s) [] := by
  refine ⟨Nat.zero_le _, ?_, Or.inl rfl⟩
  rw [(overlaid_blank s).clockCells, List.drop_eq_nil_of_le (by rw [clockCells_length]; simp)]
  rfl

/-- The console and g_datetime; `shown` is ghost: what was printed last. -/
structure ClockScreen where
  console : Console
  datetime : Datetime
  shown : List (BitVec 8)

inductive ClockEvent where
  | store (t : Datetime)
  | print
  | blank
  | between (u : Console)

def ClockScreen.step (s : ClockScreen) : ClockEvent → Option ClockScreen
  | .store t => some { s with datetime := t }
  | .print => some { s with console := printDatetime s.console s.datetime, shown := s.datetime.text }
  | .blank => some { s with console := blankDatetime s.console, shown := [] }
  | .between u =>
    if u.clockBytes = s.console.clockBytes then some { s with console := u } else none

/-- The record that is printed has at most 20 characters and no fewer than what was printed
last. -/
def ClockScreen.Fits (s : ClockScreen) : Prop :=
  s.datetime.text.length ≤ 20 ∧ s.shown.length ≤ s.datetime.text.length

def ClockScreen.FitsAt (s : ClockScreen) : ClockEvent → Prop
  | .print => s.Fits
  | _ => True

def ClockScreen.Run (ok : ClockScreen → ClockEvent → Prop) : ClockScreen → Prop :=
  Runs.Reach ClockScreen.step ok fun s => ∃ u : Console, s.console = blankDatetime u ∧ s.shown = []

theorem Reads.between (h : Reads s shown) (hleft : u.clockBytes = s.clockBytes) : Reads u shown := by
  refine ⟨h.fits, ?_, h.last⟩
  rw [← h.cells]
  refine List.map_congr_left fun k hk => ?_
  have hlt := List.mem_range.mp hk
  have heq := List.map_inj_left.mp hleft (2 * k) (List.mem_range.mpr (by omega))
  rwa [← Nat.mul_add 2 1900 k] at heq

theorem Reads.step {s s' : ClockScreen} {e : ClockEvent} (h : Reads s.console s.shown)
    (hok : s.FitsAt e) (hstep : s.step e = some s') : Reads s'.console s'.shown := by
  cases e with
  | store t =>
    obtain rfl := Option.some.inj hstep
    exact h
  | print =>
    obtain rfl := Option.some.inj hstep
    exact h.print hok
  | blank =>
    obtain rfl := Option.some.inj hstep
    exact reads_blank s.console
  | between u =>
    rw [ClockScreen.step] at hstep
    by_cases hleft : u.clockBytes = s.console.clockBytes
    · rw [if_pos hleft] at hstep
      obtain rfl := Option.some.inj hstep
      exact h.between hleft
    · rw [if_neg hleft] at hstep
      exact absurd hstep.symm (Option.some_ne_none s')

/-- As long as every record that is printed fits and covers the one before, the clock shows the
current one; the first that does not breaks that. -/
theorem clockShows_of_run {s : ClockScreen} (h : ClockScreen.Run ClockScreen.FitsAt s) :
    ClockShows s.console (printDatetime s.console s.datetime) s.datetime.text ↔ s.Fits := by
  have hreads : Reads s.console s.shown := by
    refine Runs.Reach.invariant (I := fun s => Reads s.console s.shown) (fun s hs => ?_)
      (fun s e s' hi hok hstep => hi.step hok hstep) h
    obtain ⟨u, hu, hnil⟩ := hs
    rw [hu, hnil]
    exact reads_blank u
  exact hreads.print_iff s.datetime

def newYearsEve : Datetime := ⟨59#8, 59#8, 23#8, 31#8, 12#8, 2025#16⟩

def newYearsDay : Datetime := ⟨0#8, 0#8, 0#8, 1#8, 1#8, 2026#16⟩

def overtaken (old new : Datetime) : ClockScreen :=
  ⟨printDatetime (blankDatetime (blankConsole 0 5)) old, new, old.text⟩

theorem run_overtaken {ok : ClockScreen → ClockEvent → Prop} (old new : Datetime)
    (hprint : ok ⟨blankDatetime (blankConsole 0 5), old, []⟩ .print)
    (hstore : ok (overtaken old old) (.store new)) : ClockScreen.Run ok (overtaken old new) := by
  have hblank : ClockScreen.Run ok ⟨blankDatetime (blankConsole 0 5), old, []⟩ :=
    .start ⟨blankConsole 0 5, rfl, rfl⟩
  have hold : ClockScreen.Run ok (overtaken old old) := .next .print hblank hprint rfl
  exact .next (.store new) hold hstore rfl

theorem clockShows_of_run_longer :
    ClockShows (overtaken newYearsDay newYearsEve).console
        (printDatetime (overtaken newYearsDay newYearsEve).console
          (overtaken newYearsDay newYearsEve).datetime)
        (overtaken newYearsDay newYearsEve).datetime.text ↔
      (overtaken newYearsDay newYearsEve).Fits :=
  clockShows_of_run (run_overtaken newYearsDay newYearsEve ⟨by decide, by decide⟩ trivial)

/-- The seconds of the old year are left behind the new one. -/
theorem not_clockShows_newYear :
    ClockScreen.Run (fun _ _ => True) (overtaken newYearsEve newYearsDay) ∧
      (printDatetime (overtaken newYearsEve newYearsDay).console newYearsDay).clockCells =
        ['1', '-', '1', '-', '2', '0', '2', '6', ' ', '0', ':', '0', ':', '0', '0', '9', ':', '5',
          '9', ' '].map ch ∧
      ¬ClockShows (overtaken newYearsEve newYearsDay).console
        (printDatetime (overtaken newYearsEve newYearsDay).console newYearsDay) newYearsDay.text := by
  have hfits : newYearsEve.text.length ≤ 20 ∧
      ([] : List (BitVec 8)).length ≤ newYearsEve.text.length := by
    decide
  have hreads : Reads (overtaken newYearsEve newYearsDay).console newYearsEve.text :=
    (reads_blank (blankConsole 0 5)).print hfits
  refine ⟨run_overtaken newYearsEve newYearsDay trivial trivial, ?_, fun hshows => ?_⟩
  · rw [(overlaid_print _ newYearsDay).clockCells, hreads.cells]
    decide +kernel
  · exact absurd ((hreads.print_iff newYearsDay).mp hshows) (by decide)

end SplongleOS
