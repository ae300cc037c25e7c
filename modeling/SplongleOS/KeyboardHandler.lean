import SplongleOS.ConsoleBounds
import SplongleOS.Keyboard
set_option autoImplicit false

/-! The keyboard interrupt, keyboard.c: what a scan code does to the keyboard buffer, the
shift and caps lock flags and the console. -/

namespace SplongleOS
open Stdio

namespace Key

def unknown : BitVec 32 := 0xFFFFFFFF#32
def esc : BitVec 32 := 0xFFFFFFFF#32 - 1#32
def ctrl : BitVec 32 := 0xFFFFFFFF#32 - 2#32
def lshft : BitVec 32 := 0xFFFFFFFF#32 - 3#32
def rshft : BitVec 32 := 0xFFFFFFFF#32 - 4#32
def alt : BitVec 32 := 0xFFFFFFFF#32 - 5#32
def f1 : BitVec 32 := 0xFFFFFFFF#32 - 6#32
def f2 : BitVec 32 := 0xFFFFFFFF#32 - 7#32
def f3 : BitVec 32 := 0xFFFFFFFF#32 - 8#32
def f4 : BitVec 32 := 0xFFFFFFFF#32 - 9#32
def f5 : BitVec 32 := 0xFFFFFFFF#32 - 10#32
def f6 : BitVec 32 := 0xFFFFFFFF#32 - 11#32
def f7 : BitVec 32 := 0xFFFFFFFF#32 - 12#32
def f8 : BitVec 32 := 0xFFFFFFFF#32 - 13#32
def f9 : BitVec 32 := 0xFFFFFFFF#32 - 14#32
def f10 : BitVec 32 := 0xFFFFFFFF#32 - 15#32
def f11 : BitVec 32 := 0xFFFFFFFF#32 - 16#32
def f12 : BitVec 32 := 0xFFFFFFFF#32 - 17#32
def scrlck : BitVec 32 := 0xFFFFFFFF#32 - 18#32
def home : BitVec 32 := 0xFFFFFFFF#32 - 19#32
def up : BitVec 32 := 0xFFFFFFFF#32 - 20#32
def left : BitVec 32 := 0xFFFFFFFF#32 - 21#32
def right : BitVec 32 := 0xFFFFFFFF#32 - 22#32
def down : BitVec 32 := 0xFFFFFFFF#32 - 23#32
def pgup : BitVec 32 := 0xFFFFFFFF#32 - 24#32
def pgdown : BitVec 32 := 0xFFFFFFFF#32 - 25#32
def endKey : BitVec 32 := 0xFFFFFFFF#32 - 26#32
def ins : BitVec 32 := 0xFFFFFFFF#32 - 27#32
def del : BitVec 32 := 0xFFFFFFFF#32 - 28#32
def caps : BitVec 32 := 0xFFFFFFFF#32 - 29#32
def numlck : BitVec 32 := 0xFFFFFFFF#32 - 32#32

def ascii (c : Char) : BitVec 32 := BitVec.ofNat 32 c.toNat

end Key

open Key

def lowercase : List (BitVec 32) := [
  unknown, esc, ascii '1', ascii '2', ascii '3', ascii '4', ascii '5', ascii '6', ascii '7',
  ascii '8', ascii '9', ascii '0', ascii '-', ascii '=', 0x08#32, 0x09#32, ascii 'q', ascii 'w',
  ascii 'e', ascii 'r', ascii 't', ascii 'y', ascii 'u', ascii 'i', ascii 'o', ascii 'p',
  ascii '[', ascii ']', 0x0A#32, ctrl, ascii 'a', ascii 's', ascii 'd', ascii 'f', ascii 'g',
  ascii 'h', ascii 'j', ascii 'k', ascii 'l', ascii ';', 0x27#32, 0x60#32, lshft, 0x5C#32,
  ascii 'z', ascii 'x', ascii 'c', ascii 'v', ascii 'b', ascii 'n', ascii 'm', ascii ',',
  ascii '.', ascii '/', rshft, ascii '*', alt, ascii ' ', caps, f1, f2, f3, f4, f5, f6, f7, f8, f9,
  f10, numlck, scrlck, home, up, pgup, ascii '-', left, unknown, right, ascii '+', endKey, down,
  pgdown, ins, del, unknown, unknown, unknown, f11, f12] ++ List.replicate 39 unknown

def uppercase : List (BitVec 32) := [
  unknown, esc, ascii '!', ascii '@', ascii '#', ascii '$', ascii '%', ascii '^', ascii '&',
  ascii '*', ascii '(', ascii ')', ascii '_', ascii '+', 0x08#32, 0x09#32, ascii 'Q', ascii 'W',
  ascii 'E', ascii 'R', ascii 'T', ascii 'Y', ascii 'U', ascii 'I', ascii 'O', ascii 'P', 0x7B#32,
  0x7D#32, 0x0A#32, ctrl, ascii 'A', ascii 'S', ascii 'D', ascii 'F', ascii 'G', ascii 'H',
  ascii 'J', ascii 'K', ascii 'L', ascii ':', 0x22#32, ascii '~', lshft, ascii '|', ascii 'Z',
  ascii 'X', ascii 'C', ascii 'V', ascii 'B', ascii 'N', ascii 'M', ascii '<', ascii '>',
  ascii '?', rshft, ascii '*', alt, ascii ' ', caps, f1, f2, f3, f4, f5, f6, f7, f8, f9, f10,
  numlck, scrlck, home, up, pgup, ascii '-', left, unknown, right, ascii '+', endKey, down, pgdown,
  ins, del, unknown, unknown, unknown, f11, f12] ++ List.replicate 39 unknown

structure Globals where
  kb : Kb
  capsOn : Bool
  capsLock : Bool
  console : Console

def Globals.push (s : Globals) (c : BitVec 8) : Globals := { s with kb := kbBufferPush s.kb c }

def Globals.movecursor (s : Globals) (scancode : BitVec 8) : Globals :=
  { s with console := s.console.movecursor (scancode.setWidth 32) }

/-- The default case of a key that is pressed. -/
def Globals.character (s : Globals) (scancode : BitVec 8) : Globals :=
  if (s.capsOn ∨ s.capsLock) ∧ 0 < s.console.screenY then
    s.push ((uppercase.getD scancode.toNat unknown).setWidth 8)
  else if 0 < s.console.screenY then s.push ((lowercase.getD scancode.toNat unknown).setWidth 8)
  else s

/-- `code` is the byte at KEYBOARD_PORT. Despite its name `press` is set by a release. Cases 56
and 59 to 68 fall through to that of the left arrow. -/
def keyboardHandler (s : Globals) (code : BitVec 8) : Globals :=
  let Y := s.console.screenY
  if code = 0xE0#8 then s
  else
    let press := code &&& 0x80#8 ≠ 0#8
    let scancode := code &&& 0x7F#8
    if scancode ∈ [1#8, 14#8] then
      if ¬press ∧ 0 < Y then s.push 0x08#8 else s
    else if scancode = 28#8 then
      if ¬press ∧ 0 < Y then s.push 0x0A#8 else s
    else if scancode ∈ [29#8, 54#8] then
      { s with capsOn := !press }
    else if scancode ∈ [56#8, 59#8, 60#8, 61#8, 62#8, 63#8, 64#8, 65#8, 66#8, 67#8, 68#8, 75#8] then
      if ¬press then s.movecursor scancode else s
    else if scancode = 77#8 then
      if ¬press then s.movecursor scancode else s
    else if scancode ∈ [87#8, 88#8] then s
    else if scancode = 42#8 then
      { s with capsOn := !press }
    else if scancode = 58#8 then
      if ¬press then { s with capsLock := !s.capsLock } else s
    else if ¬press then s.character scancode
    else s

@[simp] theorem push_console (s : Globals) (c : BitVec 8) : (s.push c).console = s.console := rfl

@[simp] theorem character_console (s : Globals) (scancode : BitVec 8) :
    (s.character scancode).console = s.console := by
  simp only [Globals.character, apply_ite Globals.console, push_console, ite_self]

theorem scancode_ne_arrow : ∀ code : BitVec 8, ¬(code = 75#8 ∨ code = 77#8) →
    code &&& 0x80#8 = 0#8 → (code &&& 0x7F#8).setWidth 32 ≠ 75#32 ∧
      (code &&& 0x7F#8).setWidth 32 ≠ 77#32 := by
  decide

/-- Every scan code but the two arrows leaves the console alone: those that fall through to the
left arrow are not for `movecursor`. -/
theorem keyboardHandler_console (s : Globals) (code : BitVec 8) :
    (keyboardHandler s code).console =
      if code = 75#8 ∨ code = 77#8 then s.console.movecursor (code.setWidth 32) else s.console := by
  by_cases harrow : code = 75#8 ∨ code = 77#8
  · rw [if_pos harrow]
    cases harrow with
    | inl h =>
      subst h
      rfl
    | inr h =>
      subst h
      rfl
  · have hmove : (if ¬code &&& 0x80#8 ≠ 0#8 then (s.movecursor (code &&& 0x7F#8)).console
        else s.console) = s.console := by
      by_cases hpress : code &&& 0x80#8 = 0#8
      · obtain ⟨hleft, hright⟩ := scancode_ne_arrow code harrow hpress
        rw [if_pos (not_not.mpr hpress)]
        exact movecursor_other hleft hright
      · exact if_neg (not_not.mpr hpress)
    rw [if_neg harrow]
    simp only [keyboardHandler, apply_ite Globals.console, push_console, character_console, ite_self,
      hmove]

end SplongleOS
