import SplongleOS.Base.CountedLoop
import SplongleOS.Base.Runs
import SplongleOS.Printk
set_option autoImplicit false

/-! The text screen, stdio.c. SCREEN_WIDTH is 80 and SCREEN_HEIGHT is 25, both `unsigned`,
so an `int` compared with them is converted. -/

namespace SplongleOS.Stdio
open CountedLoop

/-- g_ScreenBuffer by offset, the position, DEFAULT_COLOR, and the cursor registers 0x0F and
0x0E of the VGA controller. `writes` is ghost: the offsets written so far. -/
structure Console where
  screenBuffer : Nat → BitVec 8
  screenX : Int
  screenY : Int
  defaultColor : BitVec 8
  cursorLow : BitVec 8
  cursorHigh : BitVec 8
  writes : List Nat

/-- The index `2 * (y * SCREEN_WIDTH + x)`. -/
def cellIndex (x y : Int) : Nat := toUnsigned (2 * (y * 80 + x))

def Console.write (s : Console) (i : Nat) (v : BitVec 8) : Console :=
  { s with
    screenBuffer := Function.update s.screenBuffer i v
    writes := i :: s.writes }

def Console.putchr (s : Console) (x y : Int) (c : BitVec 8) : Console := s.write (cellIndex x y) c

def Console.putcolor (s : Console) (x y : Int) (color : BitVec 8) : Console :=
  s.write ((cellIndex x y + 1) % 0x100000000) color

def Console.getchr (s : Console) (x y : Int) : BitVec 8 := s.screenBuffer (cellIndex x y)

def Console.getcolor (s : Console) (x y : Int) : BitVec 8 :=
  s.screenBuffer ((cellIndex x y + 1) % 0x100000000)

def Console.setcursor (s : Console) (x y : Int) : Console :=
  let pos := BitVec.ofInt 32 (y * 80 + x)
  { s with
    cursorLow := pos.setWidth 8
    cursorHigh := (pos >>> 8).setWidth 8 }

/-- `for (int x = 0; x < SCREEN_WIDTH; ++x)` over row `y`. -/
def forColumns (body : Console → Int → Console) (s : Console) : Console := below 80 body 80 0 s

def forRows (lo : Int) (body : Console → Int → Console) (s : Console) : Console :=
  below 25 body 25 lo s

def Console.blankRow (s : Console) (y : Int) : Console :=
  forColumns (fun s x => (s.putchr x y (ch ' ')).putcolor x y s.defaultColor) s

def Console.clrscr (s : Console) : Console :=
  let s := forRows 0 Console.blankRow s
  let s := { s with screenX := 0, screenY := 0 }
  s.setcursor s.screenX s.screenY

def Console.moveRow (lines : Int) (s : Console) (y : Int) : Console :=
  forColumns (fun s x =>
    let s := s.putchr x (y - lines) (s.getchr x y)
    s.putcolor x (y - lines) (s.getcolor x y)) s

def Console.scrollback (s : Console) (lines : Int) : Console :=
  let s := forRows lines (Console.moveRow lines) s
  let s := forRows (25 - lines) Console.blankRow s
  { s with screenY := s.screenY - lines }

/-- What every `putc` ends with. -/
def Console.wrap (s : Console) : Console :=
  let s := if 80 ≤ toUnsigned s.screenX then { s with screenX := 0, screenY := s.screenY + 1 } else s
  let s := if 25 ≤ toUnsigned s.screenY then s.scrollback 1 else s
  s.setcursor s.screenX s.screenY

def Console.putcDefault (s : Console) (c : BitVec 8) : Console :=
  let s := s.putchr s.screenX s.screenY c
  let s := s.putcolor s.screenX s.screenY s.defaultColor
  Console.wrap { s with screenX := s.screenX + 1 }

/-- The loop of the tab: its bound changes with the column. It is never above 7. -/
def Console.tabLoop : Nat → Int → Console → Console
  | 0, _, s => s
  | fuel + 1, i, s =>
    if i < 4 - s.screenX.tmod 4 then tabLoop fuel (i + 1) (s.putcDefault (ch ' ')) else s

def Console.putc (s : Console) (c : BitVec 8) : Console :=
  if c = ch '\n' then Console.wrap { s with screenX := 0, screenY := s.screenY + 1 }
  else if c = ch '\r' then Console.wrap { s with screenX := 0 }
  else if c = ch '\t' then Console.wrap (s.tabLoop 8 0)
  else s.putcDefault c

def Console.eatc (s : Console) : Console :=
  if s.screenX = 0 ∧ s.screenY = 0 then s
  else
    let s :=
      if 0 < s.screenX then { s with screenX := s.screenX - 1 }
      else { s with screenX := 80, screenY := s.screenY - 1 }
    let s := s.setcursor s.screenX s.screenY
    s.putchr s.screenX s.screenY (ch ' ')

def Console.movecursor (s : Console) (scancode : BitVec 32) : Console :=
  if scancode = 75#32 ∧ s.screenX = 0 ∧ s.screenY = 0 then s
  else if scancode = 75#32 ∧ 2 < s.screenX then
    let s := { s with screenX := s.screenX - 1 }
    s.setcursor s.screenX s.screenY
  else if scancode = 77#32 ∧ toUnsigned s.screenX = 80 ∧ toUnsigned s.screenY = 25 then s
  else if scancode = 77#32 ∧ toUnsigned s.screenX < 80 then
    let s := { s with screenX := s.screenX + 1 }
    s.setcursor s.screenX s.screenY
  else s

def Console.puts (s : Console) (str : List (BitVec 8)) : Console := (cString str).foldl Console.putc s

/-- The characters `printk` emits, through `putc`. -/
def Console.printk (s : Console) (stack : Nat → BitVec 32) (strings : BitVec 32 → List (BitVec 8))
    (fmt : List (BitVec 8)) : Console :=
  (Stdio.printk stack strings fmt).out.foldl Console.putc s

end SplongleOS.Stdio
