import SplongleOS.KeyboardHandler
set_option autoImplicit false

/-! The shell, shell.c: a loop that polls the keyboard buffer and edits `char input[128]`,
between keyboard interrupts. What `send_command` does to the console is a parameter. -/

namespace SplongleOS
open Stdio CountedLoop

/-- `keyboard_haschar` and `keyboard_getchar`, with no interrupt inside them. -/
def keyboardHaschar (s : Kb) : Bool := s.kbHead ≠ s.kbTail

def keyboardGetchar (s : Kb) : BitVec 8 × Kb :=
  if s.kbHead = s.kbTail then (0#8, s)
  else (s.kbBuffer s.kbTail, { s with kbTail := (s.kbTail + 1).tmod 128 })

/-- `promptEnd`, `indices`, `typed` and `lines` are ghost: the cell after the last prompt, the
indices used on `input`, the characters delivered since the last newline, and at every newline
those before it with the string that `send_command` got. -/
structure Shell extends Globals where
  input : Int → BitVec 8
  pos : Int
  promptEnd : Int
  indices : List Int
  typed : List (BitVec 8)
  lines : List (List (BitVec 8) × List (BitVec 8))

def Shell.prompt (s : Shell) : Shell :=
  let u := s.console.printk (fun _ => 0#32) (fun _ => []) [ch '$', ch '>']
  { s with console := u, promptEnd := 80 * u.screenY + u.screenX }

def Shell.start (s : Shell) : Shell :=
  Shell.prompt { s with pos := 0, indices := [], typed := [], lines := [] }

def Shell.store (s : Shell) (i : Int) (c : BitVec 8) : Shell :=
  { s with input := Function.update s.input i c, indices := i :: s.indices }

def Shell.line (s : Shell) : List (BitVec 8) := cString ((List.range 128).map fun i : Nat => s.input i)

def Shell.echo (s : Shell) (c : BitVec 8) : Shell :=
  { s with console := s.console.printk (fun _ => c.signExtend 32) (fun _ => []) [ch '%', ch 'c'] }

section
variable (command : List (BitVec 8) → Console → Console)

def Shell.submit (s : Shell) : Shell :=
  let s := s.store s.pos 0#8
  Shell.prompt { s with
    console := command s.line s.console
    pos := 0
    typed := []
    lines := s.lines ++ [(s.typed, s.line)] }

/-- What the loop does with `c`. -/
def Shell.receive (s : Shell) (c : BitVec 8) : Shell :=
  if c = ch '\n' then s.submit command
  else if c = 0x08#8 ∧ 0 < s.pos then
    { s with
      pos := s.pos - 1
      console := s.console.eatc
      typed := s.typed ++ [c] }
  else if toUnsigned s.pos < 128 - 1 then
    let s := s.store s.pos c
    Shell.echo { s with pos := s.pos + 1, typed := s.typed ++ [c] } c
  else { s with typed := s.typed ++ [c] }

def Shell.round (s : Shell) : Shell :=
  if !keyboardHaschar s.kb then s
  else
    let (c, kb) := keyboardGetchar s.kb
    Shell.receive command { s with kb := kb } c

inductive ShellEvent where
  | interrupt (code : BitVec 8)
  | push (c : BitVec 8)
  | round

def Shell.step (s : Shell) : ShellEvent → Shell
  | .interrupt code => { s with toGlobals := keyboardHandler s.toGlobals code }
  | .push c => { s with toGlobals := s.toGlobals.push c }
  | .round => s.round command

def Shell.Run (ok : Shell → ShellEvent → Prop) (init : Shell → Prop) : Shell → Prop :=
  Runs.Reach (fun s e => some (s.step command e)) ok fun s => ∃ s₀, init s₀ ∧ s = s₀.start

end

theorem round_idle {command : List (BitVec 8) → Console → Console} {s : Shell}
    (h : keyboardHaschar s.kb = false) : s.round command = s := by simp [Shell.round, h]

theorem round_receive {command : List (BitVec 8) → Console → Console} {s : Shell}
    (h : keyboardHaschar s.kb = true) : s.round command =
      Shell.receive command { s with kb := (keyboardGetchar s.kb).2 } (keyboardGetchar s.kb).1 := by
  simp [Shell.round, h]

/-- `sizeof(input) - 1` is unsigned, and `pos` is not negative. -/
theorem room_iff {pos : Int} (h : 0 ≤ pos ∧ pos ≤ 127) : toUnsigned pos < 128 - 1 ↔ pos < 127 := by
  unfold toUnsigned
  omega

theorem printk_char (u : Console) (c : BitVec 8) :
    u.printk (fun _ => c.signExtend 32) (fun _ => []) [ch '%', ch 'c'] = u.putc c := by
  have hc : (c.signExtend 32).setWidth 8 = c := by
    apply BitVec.eq_of_getLsbD_eq
    intro i hi
    simp [BitVec.getLsbD_signExtend, hi]
    omega
  have hout : (Stdio.printk (fun _ => c.signExtend 32) (fun _ => []) [ch '%', ch 'c']).out =
      [(c.signExtend 32).setWidth 8] := rfl
  rw [Console.printk, hout, hc]
  rfl

end SplongleOS
