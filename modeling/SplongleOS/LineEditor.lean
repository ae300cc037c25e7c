import SplongleOS.Shell
set_option autoImplicit false

/-! The line that reaches `send_command` against an edit of the characters typed. -/

namespace SplongleOS
open Stdio CountedLoop

/-- A character is held if there is room for it; a backspace takes the last one away. -/
def editStep (held : List (BitVec 8)) (c : BitVec 8) : List (BitVec 8) :=
  if c = 0x08#8 then held.dropLast
  else if held.length < 127 then held ++ [c]
  else held

def edit (typed : List (BitVec 8)) : List (BitVec 8) := typed.foldl editStep []

theorem edit_append_singleton (typed : List (BitVec 8)) (c : BitVec 8) :
    edit (typed ++ [c]) = editStep (edit typed) c := by simp [edit]

variable {command : List (BitVec 8) → Console → Console} {s : Shell}

/-- What is held in `input`. -/
def Shell.held (s : Shell) : List (BitVec 8) := (List.range s.pos.toNat).map fun i : Nat => s.input i

def Shell.submitted (s : Shell) : List (BitVec 8) := (s.store s.pos 0#8).line

/-- The characters that are edited as they should be: a backspace if there is something to take
away, NUL if it is dropped. -/
def Shell.Edits (s : Shell) (c : BitVec 8) : Prop :=
  (c = 0x08#8 → 0 < s.pos) ∧ (c = 0#8 → s.pos = 127)

instance (s : Shell) (c : BitVec 8) : Decidable (s.Edits c) := inferInstanceAs (Decidable (_ ∧ _))

structure Shell.Editing (s : Shell) : Prop where
  pos : 0 ≤ s.pos ∧ s.pos ≤ 127
  held : s.held = edit s.typed
  nul : 0#8 ∉ s.held
  lines : ∀ p ∈ s.lines, p.2 = edit p.1
  indices : ∀ i ∈ s.indices, 0 ≤ i ∧ i < 128

theorem length_held (h : 0 ≤ s.pos) : (s.held.length : Int) = s.pos := by
  simp [Shell.held, h]

theorem cString_append_nul (str rest : List (BitVec 8)) : cString (str ++ 0#8 :: rest) = cString str := by
  induction str with
  | nil => rfl
  | cons c str ih =>
    by_cases hc : c = 0#8
    · simp [cString, hc]
    · simpa [cString, hc] using ih

theorem map_range_update (f : Int → BitVec 8) (n : Nat) (c : BitVec 8) :
    (List.range n).map (fun i : Nat => Function.update f n c i) = (List.range n).map fun i : Nat => f i := by
  apply List.map_congr_left
  intro i hi
  have hlt := List.mem_range.mp hi
  have hne : (i : Int) ≠ n := by omega
  exact Function.update_of_ne hne c f

theorem submitted_eq (h : 0 ≤ s.pos ∧ s.pos ≤ 127) : s.submitted = cString s.held := by
  obtain ⟨n, hn⟩ := Int.eq_ofNat_of_zero_le h.1
  obtain ⟨m, hm⟩ : ∃ m, 128 = n + (m + 1) := ⟨127 - n, by omega⟩
  have hline : s.submitted = cString ((List.range 128).map fun i : Nat => Function.update s.input n 0#8 i) := by
    rw [Shell.submitted, hn]
    rfl
  have hheld : s.held = (List.range n).map fun i : Nat => s.input i := by
    rw [Shell.held, hn]
    rfl
  rw [hline, hheld, hm, List.range_add, List.range_succ_eq_map, List.map_append, map_range_update]
  simp [cString_append_nul]

theorem held_store {c : BitVec 8} (h : 0 ≤ s.pos) :
    (List.range (s.pos + 1).toNat).map (fun i : Nat => Function.update s.input s.pos c i) =
      s.held ++ [c] := by
  obtain ⟨n, hn⟩ := Int.eq_ofNat_of_zero_le h
  have hnext : (s.pos + 1).toNat = n + 1 := by omega
  rw [hnext, List.range_succ, List.map_append, Shell.held, hn, map_range_update]
  simp

theorem held_dropLast (h : 0 < s.pos) :
    (List.range (s.pos - 1).toNat).map (fun i : Nat => s.input i) = s.held.dropLast := by
  obtain ⟨n, hn⟩ := Int.eq_ofNat_of_zero_le h.le
  obtain ⟨m, rfl⟩ : ∃ m, n = m + 1 := ⟨n - 1, by omega⟩
  have hprev : (s.pos - 1).toNat = m := by omega
  rw [hprev, Shell.held, hn]
  simp [List.range_succ]

structure Received (s s' : Shell) (c : BitVec 8) : Prop where
  pos : 0 ≤ s'.pos ∧ s'.pos ≤ 127
  held : s'.held =
    if c = 0x08#8 ∧ 0 < s.pos then s.held.dropLast
    else if s.pos < 127 then s.held ++ [c]
    else s.held
  typed : s'.typed = s.typed ++ [c]
  lines : s'.lines = s.lines
  indices : ∀ i ∈ s'.indices, i ∈ s.indices ∨ 0 ≤ i ∧ i < 128

theorem received_receive (command : List (BitVec 8) → Console → Console) {c : BitVec 8}
    (h : 0 ≤ s.pos ∧ s.pos ≤ 127) (hc : c ≠ ch '\n') : Received s (s.receive command c) c := by
  have hroom := room_iff h
  rw [Shell.receive, if_neg hc]
  by_cases herase : c = 0x08#8 ∧ 0 < s.pos
  · rw [if_pos herase]
    refine ⟨?_, ?_, rfl, rfl, fun i hi => Or.inl hi⟩
    · dsimp only
      omega
    · rw [if_pos herase]
      exact held_dropLast herase.2
  · rw [if_neg herase]
    by_cases hlt : s.pos < 127
    · rw [if_pos (hroom.mpr hlt)]
      refine ⟨?_, ?_, rfl, rfl, fun i hi => ?_⟩
      · dsimp only [Shell.echo, Shell.store]
        omega
      · rw [if_neg herase, if_pos hlt]
        exact held_store h.1
      · cases List.mem_cons.mp hi with
        | inl heq => exact Or.inr (by omega)
        | inr hmem => exact Or.inl hmem
    · rw [if_neg (hroom.not.mpr hlt)]
      refine ⟨h, ?_, rfl, rfl, fun i hi => Or.inl hi⟩
      rw [if_neg herase, if_neg hlt]
      rfl

theorem Shell.Editing.submitted (h : s.Editing) : s.submitted = edit s.typed := by
  rw [submitted_eq h.pos, cString_eq_self h.nul, h.held]

theorem Shell.Editing.submitted_receive_iff (h : s.Editing)
    (command : List (BitVec 8) → Console → Console) {c : BitVec 8} (hc : c ≠ ch '\n') :
    (s.receive command c).submitted = edit (s.typed ++ [c]) ↔ s.Edits c := by
  have hr := received_receive command h.pos hc
  have hlen := length_held h.pos.1
  have hpos := h.pos
  rw [submitted_eq hr.pos, hr.held, edit_append_singleton, ← h.held, editStep, Shell.Edits]
  by_cases hb : c = 0x08#8
  · subst hb
    by_cases hlt : 0 < s.pos
    · have hnul : 0#8 ∉ s.held.dropLast := fun hmem => h.nul (List.mem_of_mem_dropLast hmem)
      simp [hlt, cString_eq_self hnul]
    · have hnil : s.held = [] := List.eq_nil_of_length_eq_zero (by omega)
      have hroom : s.pos < 127 := by omega
      simp [hlt, hroom, hnil, cString]
  · by_cases hroom : s.pos < 127
    · have hlt : s.held.length < 127 := by omega
      have hne : s.pos ≠ 127 := by omega
      by_cases hz : c = 0#8
      · subst hz
        simp [hroom, hlt, hne, cString_append_nul, cString_eq_self h.nul]
      · have hnul : 0#8 ∉ s.held ++ [c] := by simp [h.nul, Ne.symm hz]
        simp [hb, hz, hroom, hlt, cString_eq_self hnul]
    · have hfull : s.pos = 127 := by omega
      have hlt : ¬s.held.length < 127 := by omega
      simp [hb, hlt, hfull, cString_eq_self h.nul]

theorem Shell.Editing.receive (h : s.Editing) {c : BitVec 8} (hc : c ≠ ch '\n') (hok : s.Edits c) :
    (s.receive command c).Editing := by
  have hr := received_receive command h.pos hc
  have hsubmit := (h.submitted_receive_iff command hc).mpr hok
  have hnul : 0#8 ∉ (s.receive command c).held := by
    rw [hr.held]
    by_cases herase : c = 0x08#8 ∧ 0 < s.pos
    · rw [if_pos herase]
      exact fun hmem => h.nul (List.mem_of_mem_dropLast hmem)
    · by_cases hroom : s.pos < 127
      · have hz : c ≠ 0#8 := fun hz => by
          have hfull := hok.2 hz
          omega
        simp [herase, hroom, h.nul, Ne.symm hz]
      · simpa [herase, hroom] using h.nul
  refine ⟨hr.pos, ?_, hnul, hr.lines ▸ h.lines, fun i hi => ?_⟩
  · rw [hr.typed, ← hsubmit, submitted_eq hr.pos, cString_eq_self hnul]
  · cases hr.indices i hi with
    | inl hmem => exact h.indices i hmem
    | inr hlt => exact hlt

theorem Shell.Editing.submit (h : s.Editing) : (s.submit command).Editing := by
  have hpos := h.pos
  refine ⟨⟨le_rfl, ?_⟩, rfl, List.not_mem_nil, fun p hp => ?_, fun i hi => ?_⟩
  · dsimp only [Shell.submit, Shell.prompt]
    omega
  · cases List.mem_append.mp hp with
    | inl hmem => exact h.lines p hmem
    | inr hlast =>
      obtain rfl : p = (s.typed, s.submitted) := List.mem_singleton.mp hlast
      exact h.submitted
  · cases List.mem_cons.mp hi with
    | inl heq => omega
    | inr hmem => exact h.indices i hmem

/-- Events whose character, if the shell takes one, is edited as it should be. -/
def Shell.Delivers (s : Shell) : ShellEvent → Prop
  | .round => keyboardHaschar s.kb = true → s.Edits (keyboardGetchar s.kb).1
  | _ => True

theorem Shell.Editing.round (h : s.Editing) (hok : s.Delivers .round) : (s.round command).Editing := by
  cases hchar : keyboardHaschar s.kb with
  | false => rwa [round_idle hchar]
  | true =>
    have hkb : Shell.Editing { s with kb := (keyboardGetchar s.kb).2 } :=
      ⟨h.pos, h.held, h.nul, h.lines, h.indices⟩
    rw [round_receive hchar]
    by_cases hc : (keyboardGetchar s.kb).1 = ch '\n'
    · rw [hc, Shell.receive, if_pos rfl]
      exact hkb.submit
    · exact hkb.receive hc (hok hchar)

theorem Shell.Editing.step (h : s.Editing) {e : ShellEvent} (hok : s.Delivers e) :
    (s.step command e).Editing := by
  cases e with
  | interrupt code => exact ⟨h.pos, h.held, h.nul, h.lines, h.indices⟩
  | push c => exact ⟨h.pos, h.held, h.nul, h.lines, h.indices⟩
  | round => exact h.round hok

/-- Whatever is typed, each string that `send_command` got is the edit of the characters since
the newline before, and `input` is used within its bounds, as long as no backspace is delivered
on an empty line and no NUL at all but into a full one; such a character does spoil the line. -/
theorem lines_of_run (h : Shell.Run command Shell.Delivers (fun _ => True) s) :
    (∀ p ∈ s.lines, p.2 = edit p.1) ∧ (∀ i ∈ s.indices, 0 ≤ i ∧ i < 128) ∧
      s.submitted = edit s.typed ∧
      ∀ c, c ≠ ch '\n' → ((s.receive command c).submitted = edit (s.typed ++ [c]) ↔ s.Edits c) := by
  have hinv : s.Editing := by
    refine Runs.Reach.invariant_total (I := Shell.Editing) (fun s hs => ?_)
      (fun s e hi hok => hi.step hok) h
    obtain ⟨s₀, -, rfl⟩ := hs
    refine ⟨⟨le_rfl, ?_⟩, rfl, List.not_mem_nil, fun p hp => absurd hp List.not_mem_nil,
      fun i hi => absurd hi List.not_mem_nil⟩
    dsimp only [Shell.start, Shell.prompt]
    omega
  exact ⟨hinv.lines, hinv.indices, hinv.submitted, fun c hc => hinv.submitted_receive_iff command hc⟩

def blankShell : Shell where
  kb := ⟨fun _ => 0#8, 0, 0⟩
  capsOn := false
  capsLock := false
  console := blankConsole 0 5
  input _ := 0#8
  pos := 0
  promptEnd := 0
  indices := []
  typed := []
  lines := []

def Shell.type (s : Shell) (str : List (BitVec 8)) : Shell :=
  str.foldl (fun s c => (s.step (fun _ u => u) (.push c)).step (fun _ u => u) .round) s

theorem run_start (ok : Shell → ShellEvent → Prop) :
    Shell.Run (fun _ u => u) ok (fun _ => True) blankShell.start := .start ⟨blankShell, trivial, rfl⟩

theorem lines_of_run_letter : ∃ s, s = blankShell.start.type [ch 'a', ch '\n'] ∧
    s.lines = [([ch 'a'], [ch 'a'])] ∧ (∀ p ∈ s.lines, p.2 = edit p.1) ∧
      (∀ i ∈ s.indices, 0 ≤ i ∧ i < 128) ∧ s.submitted = edit s.typed ∧
      ∀ c, c ≠ ch '\n' →
        ((s.receive (fun _ u => u) c).submitted = edit (s.typed ++ [c]) ↔ s.Edits c) :=
  ⟨_, rfl, by decide, lines_of_run
    (.next .round (.next (.push (ch '\n')) (.next .round (.next (.push (ch 'a')) (run_start _)
      trivial rfl) (fun _ => by decide) rfl) trivial rfl) (fun _ => by decide) rfl)⟩

/-- A backspace on the empty line is sent to `send_command`. -/
theorem not_lines_backspace :
    Shell.Run (fun _ u => u) (fun _ _ => True) (fun _ => True)
      (blankShell.start.type [0x08#8, ch '\n']) ∧
    (blankShell.start.type [0x08#8, ch '\n']).lines = [([0x08#8], [0x08#8])] ∧
    edit [0x08#8] = [] := by
  refine ⟨?_, by decide, by decide⟩
  exact .next .round (.next (.push (ch '\n')) (.next .round (.next (.push 0x08#8) (run_start _)
    trivial rfl) trivial rfl) trivial rfl) trivial rfl

end SplongleOS
