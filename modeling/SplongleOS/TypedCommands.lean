import SplongleOS.Base.Simulation
import SplongleOS.LineEditor
import SplongleOS.QueuedCharacters
set_option autoImplicit false

/-! From scan codes to commands: the keyboard interrupt, the ring and the shell together. -/

namespace SplongleOS
open Stdio Simulation

structure Modes where
  capsOn : Bool
  capsLock : Bool
  deriving DecidableEq, Repr

def Modes.after (m : Modes) (code : BitVec 8) : Modes where
  capsOn :=
    if [0x1D#8, 0x2A#8, 0x36#8].contains code then true
    else if [0x9D#8, 0xAA#8, 0xB6#8].contains code then false
    else m.capsOn
  capsLock := if code = 0x3A#8 then !m.capsLock else m.capsLock

def Modes.afterAll (m : Modes) (codes : List (BitVec 8)) : Modes := codes.foldl Modes.after m

def Modes.char (m : Modes) (code : BitVec 8) : Option (BitVec 8) :=
  if code &&& 0x80#8 = 0#8 then typedBy (m.capsOn || m.capsLock) code else none

def Modes.chars : Modes → List (BitVec 8) → List (BitVec 8)
  | _, [] => []
  | m, code :: codes => (m.char code).toList ++ (m.after code).chars codes

theorem chars_snoc (m : Modes) (codes : List (BitVec 8)) (code : BitVec 8) :
    m.chars (codes ++ [code]) = m.chars codes ++ ((m.afterAll codes).char code).toList := by
  induction codes generalizing m with
  | nil => exact List.append_nil _
  | cons c codes ih =>
    rw [List.cons_append, Modes.chars, ih, Modes.chars, List.append_assoc]
    rfl

/-- A backspace with nothing to take away is held like any other character. -/
def holdStep (held : List (BitVec 8)) (c : BitVec 8) : List (BitVec 8) :=
  if c = 0x08#8 ∧ held ≠ [] then held.dropLast
  else if held.length < 127 then held ++ [c]
  else held

def hold (typed : List (BitVec 8)) : List (BitVec 8) := typed.foldl holdStep []

def splitStep (p : List (List (BitVec 8)) × List (BitVec 8)) (c : BitVec 8) :
    List (List (BitVec 8)) × List (BitVec 8) :=
  if c = ch '\n' then (p.1 ++ [cString (hold p.2)], []) else (p.1, p.2 ++ [c])

def splitCommands (chars : List (BitVec 8)) : List (List (BitVec 8)) × List (BitVec 8) :=
  chars.foldl splitStep ([], [])

/-- The strings that `send_command` is to get. -/
def commands (chars : List (BitVec 8)) : List (List (BitVec 8)) := (splitCommands chars).1

theorem splitCommands_snoc (chars : List (BitVec 8)) (c : BitVec 8) :
    splitCommands (chars ++ [c]) = splitStep (splitCommands chars) c := by
  rw [splitCommands, List.foldl_append]
  rfl

theorem commands_append (chars more : List (BitVec 8)) : commands chars <+: commands (chars ++ more) := by
  induction more using List.reverseRecOn with
  | nil => rw [List.append_nil]
  | append_singleton more c ih =>
    have hlast : commands (chars ++ (more ++ [c])) =
        (splitStep (splitCommands (chars ++ more)) c).1 := by
      rw [← List.append_assoc, commands, splitCommands_snoc]
    rw [hlast, splitStep]
    split
    · exact ih.trans (List.prefix_append _ _)
    · exact ih

section
variable {command : List (BitVec 8) → Console → Console} {s : Shell} {m : Modes}
  {codes : List (BitVec 8)}

theorem Kb.Queues.getchar {kb : Kb} {tail head : Nat} {c : BitVec 8} {queued : List (BitVec 8)}
    (h : kb.Queues tail head (c :: queued)) : keyboardHaschar kb = true ∧ (keyboardGetchar kb).1 = c ∧
      (keyboardGetchar kb).2.Queues ((tail + 1) % 128) head queued := by
  have hne : ¬kb.kbHead = kb.kbTail := fun heq => List.cons_ne_nil _ _ (h.empty_iff.mp heq)
  have hget : keyboardGetchar kb = (kb.kbBuffer kb.kbTail,
      { kb with kbTail := (kb.kbTail + 1).tmod 128 }) := if_neg hne
  rw [hget]
  refine ⟨decide_eq_true hne, ?_, ?_, h.head_eq, h.holds.pop⟩
  · rw [h.tail_eq]
    exact h.holds.peek
  · exact (congrArg (fun t : Int => (t + 1).tmod 128) h.tail_eq).trans (next_natCast tail)

/-- What the keys have said is what the shell has seen and what waits in the ring. -/
structure Shell.Follows (s : Shell) (m : Modes) (codes : List (BitVec 8)) : Prop where
  modes : (⟨s.capsOn, s.capsLock⟩ : Modes) = m.afterAll codes
  pos : 0 ≤ s.pos ∧ s.pos ≤ 127
  held : s.held = hold s.typed
  queue : ∃ tail head queued seen, s.kb.Queues tail head queued ∧
    seen ++ queued = m.chars codes ∧ splitCommands seen = (s.lines.map Prod.snd, s.typed)

theorem Shell.Follows.interrupt (h : s.Follows m codes) {code : BitVec 8}
    (hrow : 0 < s.console.screenY)
    (hroom : (s.pushed code).isSome → (s.kb.kbHead + 1).tmod 128 ≠ s.kb.kbTail) :
    (s.step command (.interrupt code)).Follows m (codes ++ [code]) := by
  obtain ⟨tail, head, queued, seen, hqueues, hchars, hseen⟩ := h.queue
  have hlast : m.afterAll (codes ++ [code]) = (m.afterAll codes).after code := by
    rw [Modes.afterAll, List.foldl_append]
    rfl
  have hpushed : s.pushed code = (m.afterAll codes).char code := by
    rw [pushed_eq, ← h.modes, Modes.char]
    exact if_congr (and_iff_left hrow) rfl rfl
  refine ⟨?_, h.pos, h.held, ?_⟩
  · rw [hlast, ← h.modes]
    change (⟨(keyboardHandler s.toGlobals code).capsOn, (keyboardHandler s.toGlobals code).capsLock⟩ :
      Modes) = _
    rw [keyboardHandler_capsOn, keyboardHandler_capsLock]
    simp only [Modes.after, List.contains_eq_mem, decide_eq_true_eq]
  · have hkb : (s.step command (.interrupt code)).kb =
        (s.pushed code).elim s.kb (kbBufferPush s.kb) := keyboardHandler_kb s.toGlobals code
    rw [hkb, chars_snoc, ← hpushed]
    cases hc : s.pushed code with
    | none => exact ⟨tail, head, queued, seen, hqueues, by rw [hchars]; simp, hseen⟩
    | some c =>
      refine ⟨tail, _, queued ++ [c], seen, hqueues.push c (hroom (by rw [hc]; rfl)), ?_, hseen⟩
      rw [← List.append_assoc, hchars]
      rfl

variable (command) in
theorem Shell.Follows.submit (h : s.held = hold s.typed) (hpos : 0 ≤ s.pos ∧ s.pos ≤ 127) :
    (s.submit command).pos = 0 ∧ (s.submit command).typed = [] ∧
      (s.submit command).lines.map Prod.snd =
        s.lines.map Prod.snd ++ [cString (hold s.typed)] := by
  refine ⟨rfl, rfl, ?_⟩
  have hline : (s.store s.pos 0#8).line = cString (hold s.typed) := by
    rw [← h, ← submitted_eq hpos]
    rfl
  rw [← hline]
  exact List.map_append

theorem hold_snoc (typed : List (BitVec 8)) (c : BitVec 8) :
    hold (typed ++ [c]) = holdStep (hold typed) c := by
  rw [hold, List.foldl_append]
  rfl

variable (command) in
theorem Shell.Follows.receive (h : s.held = hold s.typed) (hpos : 0 ≤ s.pos ∧ s.pos ≤ 127)
    (c : BitVec 8) :
    let t := s.receive command c
    (0 ≤ t.pos ∧ t.pos ≤ 127) ∧ t.held = hold t.typed ∧
      (t.lines.map Prod.snd, t.typed) = splitStep (s.lines.map Prod.snd, s.typed) c := by
  intro t
  by_cases hc : c = ch '\n'
  · have ht : t = s.submit command := if_pos hc
    obtain ⟨hzero, hnone, hlines⟩ := Shell.Follows.submit command h hpos
    rw [ht, splitStep, if_pos hc, hlines, hnone, Shell.held, hzero]
    exact ⟨by decide, rfl, rfl⟩
  · have hreceived := received_receive command hpos hc
    have hlength := length_held hpos.1
    have hempty : 0 < s.pos ↔ s.held ≠ [] := by
      rw [← List.length_pos_iff]
      omega
    have hfull : s.pos < 127 ↔ s.held.length < 127 := by omega
    refine ⟨hreceived.pos, ?_, ?_⟩
    · rw [hreceived.held, hreceived.typed, hold_snoc, ← h, holdStep]
      simp only [hempty, hfull]
    · rw [splitStep, if_neg hc, hreceived.lines, hreceived.typed]

variable (command) in
theorem receive_keys (s : Shell) (c : BitVec 8) : (s.receive command c).kb = s.kb ∧
    (s.receive command c).capsOn = s.capsOn ∧ (s.receive command c).capsLock = s.capsLock := by
  unfold Shell.receive
  split
  · exact ⟨rfl, rfl, rfl⟩
  · split
    · exact ⟨rfl, rfl, rfl⟩
    · split <;> exact ⟨rfl, rfl, rfl⟩

theorem Shell.Follows.round (h : s.Follows m codes) : (s.step command .round).Follows m codes := by
  obtain ⟨tail, head, queued, seen, hqueues, hchars, hseen⟩ := h.queue
  change (s.round command).Follows m codes
  cases queued with
  | nil =>
    have hidle : keyboardHaschar s.kb = false := by
      have heq := hqueues.empty_iff.mpr rfl
      exact decide_eq_false (not_not.mpr heq)
    rwa [round_idle hidle]
  | cons c queued =>
    obtain ⟨hhas, hget, hrest⟩ := hqueues.getchar
    rw [round_receive hhas, hget]
    let u : Shell := { s with kb := (keyboardGetchar s.kb).2 }
    obtain ⟨hpos, hheld, hdispatch⟩ :=
      Shell.Follows.receive (s := u) command h.held h.pos c
    obtain ⟨hkb, hon, hlock⟩ := receive_keys command u c
    refine ⟨?_, hpos, hheld, (tail + 1) % 128, head, queued, seen ++ [c], ?_, ?_, ?_⟩
    · rw [hon, hlock]
      exact h.modes
    · rw [hkb]
      exact hrest
    · rw [List.append_assoc]
      exact hchars
    · rw [hdispatch, splitCommands_snoc, hseen]

/-- A scan code comes while the cursor is below row 0, and its character, if it has one, finds
room in the ring. -/
def Shell.Hears (s : Shell) : ShellEvent → Prop
  | .interrupt code => 0 < s.console.screenY ∧
      ((s.pushed code).isSome → (s.kb.kbHead + 1).tmod 128 ≠ s.kb.kbTail)
  | .push _ => False
  | .round => True

def ShellEvent.code : ShellEvent → Option (BitVec 8)
  | .interrupt code => some code
  | _ => none

def Shell.Session (command : List (BitVec 8) → Console → Console) :
    Shell → List ShellEvent → Shell → Prop :=
  Calls (fun s e => some (s.step command e)) Shell.Hears fun _ e => e

theorem Shell.Session.next {t : Shell} {events : List ShellEvent} (h : s.Session command events t)
    (e : ShellEvent) (hok : t.Hears e) : s.Session command (events ++ [e]) (t.step command e) :=
  Calls.snoc e h hok rfl

theorem Shell.Follows.session {t : Shell} {events : List ShellEvent} (h : s.Follows m [])
    (hrun : s.Session command events t) : t.Follows m (events.filterMap ShellEvent.code) := by
  unfold Shell.Session at hrun
  induction hrun with
  | nil => exact h
  | snoc e _ hok hstep ih =>
    obtain rfl := Option.some.inj hstep
    rw [List.filterMap_append]
    cases e with
    | interrupt code => exact ih.interrupt hok.1 hok.2
    | push c => exact hok.elim
    | round =>
      rw [List.filterMap_cons_none rfl, List.filterMap_nil, List.append_nil]
      exact ih.round

/-- However keyboard interrupts and the turns of the shell follow one another, the commands that
are run are those that the scan codes spell, in that order and each once; a command is missing
only while its characters still wait in the ring. -/
theorem commands_of_scan_codes (command : List (BitVec 8) → Console → Console) (s t : Shell)
    (tail : Nat) (hempty : s.kb.Queues tail tail []) (events : List ShellEvent)
    (hrun : s.start.Session command events t) :
    let spelled := commands ((⟨s.capsOn, s.capsLock⟩ : Modes).chars
      (events.filterMap ShellEvent.code))
    t.lines.map Prod.snd <+: spelled ∧
      (keyboardHaschar t.kb = false → t.lines.map Prod.snd = spelled) := by
  intro spelled
  have hstart : s.start.Follows ⟨s.capsOn, s.capsLock⟩ [] :=
    ⟨rfl, ⟨Int.le_refl 0, Int.zero_le_ofNat 127⟩, rfl, tail, tail, [], [], hempty, rfl, rfl⟩
  have hend := hstart.session hrun
  obtain ⟨tail', head, queued, seen, hqueues, hchars, hseen⟩ := hend.queue
  have hlines : t.lines.map Prod.snd = commands seen := by rw [commands, hseen]
  have hspelled : spelled = commands (seen ++ queued) := by rw [hchars]
  rw [hlines, hspelled]
  refine ⟨commands_append seen queued, fun hidle => ?_⟩
  have hnone : queued = [] := by
    refine hqueues.empty_iff.mp ?_
    unfold keyboardHaschar at hidle
    exact not_not.mp (of_decide_eq_false hidle)
  rw [hnone, List.append_nil]

def hEnter : List ShellEvent := [.interrupt 0x23#8, .round, .interrupt 0x1C#8, .round]

theorem commands_of_scan_codes_h : ∃ t, blankShell.start.Session (fun _ u => u) hEnter t ∧
    t.lines.map Prod.snd = commands ((⟨false, false⟩ : Modes).chars [0x23#8, 0x1C#8]) := by
  have hempty : blankShell.kb.Queues 0 0 [] := ⟨rfl, rfl, RingQueue.holds_nil (by decide)⟩
  have hstart : blankShell.start.Session (fun _ u => u) [] blankShell.start := Calls.nil _
  have hkey := (hstart.next (.interrupt 0x23#8) ⟨by decide, fun _ => by decide⟩).next .round trivial
  have hrun := (hkey.next (.interrupt 0x1C#8) ⟨by decide, fun _ => by decide⟩).next .round trivial
  exact ⟨_, hrun, (commands_of_scan_codes (fun _ u => u) blankShell _ 0 hempty hEnter hrun).2
    (by decide)⟩

end

end SplongleOS
