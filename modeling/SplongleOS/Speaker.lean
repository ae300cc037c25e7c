import SplongleOS.Pit
set_option autoImplicit false

/-! Tones and timer settings one after the other while interrupts come, pc_speaker.c. -/

namespace SplongleOS

structure Tone where
  divisor : BitVec 16
  ms : BitVec 32

inductive SpeakerCall where
  | playNote (note ms : BitVec 32)
  | rest (ms : BitVec 32)
  | setPit (channel mode : BitVec 8) (freq : BitVec 16)

def playNote (note ms : BitVec 32) : Tone := ⟨note.setWidth 16, ms⟩

def rest (ms : BitVec 32) : Tone := ⟨40#16, ms⟩

/-- What is next. The port is read in one step and written in another, with `temp` between. -/
inductive SpeakerPc where
  | idle
  | enable (t : Tone)
  | enabling (t : Tone) (temp : BitVec 8)
  | program (t : Tone)
  | sleeping (t : Tone)
  | disable (t : Tone)
  | disabling (t : Tone) (temp : BitVec 8)

/-- Ghosts: the last setting of each counter, and the tones that ended, each with the timer
interrupts that came since its `sleep` was called. -/
structure Speaker where
  board : PitBoard
  sleep : Sleep
  pc : SpeakerPc
  setting : BitVec 2 → Option (BitVec 3 × BitVec 16)
  played : List (Tone × Nat)

inductive SpeakerEvent where
  | call (c : SpeakerCall)
  | proceed
  | timer
  | interrupt
  | status (v : BitVec 4)

def Speaker.setPit (s : Speaker) (channel mode : BitVec 8) (freq : BitVec 16) : Speaker :=
  { s with
    board := setPitChannelModeFrequency s.board channel mode freq
    setting :=
      if 2#8 < channel ∨ 7#8 < mode then s.setting
      else Function.update s.setting (channel.setWidth 2) (some (mode.setWidth 3, freq)) }

def Speaker.proceed (s : Speaker) : Option Speaker :=
  match s.pc with
  | .idle => none
  | .enable t => some { s with pc := .enabling t (s.board.inb 0x61#16) }
  | .enabling t temp =>
    some { s with board := s.board.outb 0x61#16 (temp ||| 0x3#8), pc := .program t }
  -- no interrupt comes inside: the call turns them off, and on again at its end
  | .program t =>
    some { s.setPit 2#8 3#8 t.divisor with
      sleep := ⟨s.sleep.ticks, .called, 0⟩
      pc := .sleeping t }
  | .sleeping t =>
    match s.sleep.pc with
    | .returned => some { s with pc := .disable t }
    | _ => (s.sleep.step t.ms .proceed).map fun sleep => { s with sleep }
  | .disable t => some { s with pc := .disabling t (s.board.inb 0x61#16) }
  | .disabling t temp =>
    some { s with
      board := s.board.outb 0x61#16 (temp &&& 0xFC#8)
      pc := .idle
      played := (t, s.sleep.elapsed) :: s.played }

/-- A call while another one runs is not possible: nothing switches tasks in between. -/
def Speaker.call (s : Speaker) (c : SpeakerCall) : Option Speaker :=
  match s.pc with
  | .idle =>
    match c with
    | .playNote note ms => some { s with pc := .enable (playNote note ms) }
    | .rest ms => some { s with pc := .enable (rest ms) }
    | .setPit channel mode freq => some (s.setPit channel mode freq)
  | _ => none

def Speaker.timer (s : Speaker) : Speaker :=
  { s with sleep := ⟨pitHandler s.sleep.ticks, s.sleep.pc.interrupted, s.sleep.elapsed + 1⟩ }

def Speaker.interrupted (s : Speaker) : Speaker :=
  { s with sleep := { s.sleep with pc := s.sleep.pc.interrupted } }

def Speaker.step (s : Speaker) : SpeakerEvent → Option Speaker
  | .call c => s.call c
  | .proceed => s.proceed
  | .timer => if s.board.interrupts then some s.timer else none
  | .interrupt => if s.board.interrupts then some s.interrupted else none
  | .status v => some { s with board := { s.board with status := v } }

def Speaker.Run (b0 : PitBoard) (ticks : BitVec 32) : Speaker → Prop :=
  Runs.Reach Speaker.step (fun _ _ => True)
    fun s => s = ⟨b0, ⟨ticks, .returned, 0⟩, .idle, fun _ => none, []⟩

def Speaker.Set (b0 : PitBoard) (s : Speaker) (c : BitVec 2) : Prop :=
  match s.setting c with
  | none => s.board.counter c = b0.counter c
  | some (mode, divisor) => (s.board.counter c).Programmed mode divisor

def Speaker.Rests (s : Speaker) : Prop := s.played ≠ [] → s.board.Silent

def Speaker.Stage (s : Speaker) : Prop :=
  match s.pc with
  | .idle | .enable _ => s.Rests
  | .enabling _ temp => temp.extractLsb' 0 4 = s.board.gate
  | .program _ => s.board.Sounds
  | .sleeping t =>
    s.board.Sounds ∧ (s.board.counter 2#2).Programmed 3#3 t.divisor ∧ s.sleep.Waits t.ms
  | .disable t => (waitTicks t.ms).toNat ≤ s.sleep.elapsed
  | .disabling t temp =>
    temp.extractLsb' 0 4 = s.board.gate ∧ (waitTicks t.ms).toNat ≤ s.sleep.elapsed

structure Speaker.Kept (b0 : PitBoard) (s : Speaker) : Prop where
  set : ∀ c, s.Set b0 c
  others : s.board.gate.extractLsb' 2 2 = b0.gate.extractLsb' 2 2
  stage : s.Stage
  played : ∀ p ∈ s.played, (waitTicks p.1.ms).toNat ≤ p.2

variable {b0 : PitBoard} {s s' : Speaker}

theorem PitBoard.inb_gate (b : PitBoard) : (b.inb 0x61#16).extractLsb' 0 4 = b.gate := by
  have hlow : ∀ v g : BitVec 4, (v ++ g).extractLsb' 0 4 = g := by decide
  rw [PitBoard.inb, if_pos rfl, hlow]

theorem gate_on (temp : BitVec 8) :
    ((temp ||| 0x3#8).extractLsb' 0 4).extractLsb' 0 2 = 3#2 ∧
      ((temp ||| 0x3#8).extractLsb' 0 4).extractLsb' 2 2 =
        (temp.extractLsb' 0 4).extractLsb' 2 2 := by
  revert temp
  decide

theorem gate_off (temp : BitVec 8) :
    ((temp &&& 0xFC#8).extractLsb' 0 4).extractLsb' 0 2 = 0#2 ∧
      ((temp &&& 0xFC#8).extractLsb' 0 4).extractLsb' 2 2 =
        (temp.extractLsb' 0 4).extractLsb' 2 2 := by
  revert temp
  decide

theorem Speaker.setPit_gate (s : Speaker) (channel mode : BitVec 8) (freq : BitVec 16) :
    (s.setPit channel mode freq).board.gate = s.board.gate := by
  simp only [Speaker.setPit, setPitChannelModeFrequency_eq]
  split <;> rfl

theorem Speaker.Set.setPit (h : ∀ c, s.Set b0 c) (channel mode : BitVec 8) (freq : BitVec 16)
    (c : BitVec 2) : (s.setPit channel mode freq).Set b0 c := by
  by_cases hbad : 2#8 < channel ∨ 7#8 < mode
  · simpa only [Speaker.Set, Speaker.setPit, setPitChannelModeFrequency_eq, hbad, ↓reduceIte] using h c
  · simp only [Speaker.Set, Speaker.setPit, setPitChannelModeFrequency_eq, hbad, ↓reduceIte]
    by_cases hc : c = channel.setWidth 2
    · subst hc
      simp only [Function.update_self]
      exact PitCounter.programmed_program _ _
    · simpa only [Speaker.Set, Function.update_of_ne hc] using h c

theorem proceed_sleeping {board : PitBoard} {sleep : Sleep} {t : Tone}
    {setting : BitVec 2 → Option (BitVec 3 × BitVec 16)} {played : List (Tone × Nat)}
    (hs : Speaker.proceed ⟨board, sleep, .sleeping t, setting, played⟩ = some s') :
    (sleep.pc = .returned ∧ s' = ⟨board, sleep, .disable t, setting, played⟩) ∨
      ∃ sleep', sleep.step t.ms .proceed = some sleep' ∧
        s' = ⟨board, sleep', .sleeping t, setting, played⟩ := by
  have hgoes : ∀ o : Option Sleep,
      (o.map fun sleep => (⟨board, sleep, .sleeping t, setting, played⟩ : Speaker)) = some s' →
        ∃ sleep', o = some sleep' ∧ s' = ⟨board, sleep', .sleeping t, setting, played⟩ := by
    intro o ho
    obtain ⟨sleep', hsome, rfl⟩ := Option.map_eq_some_iff.mp ho
    exact ⟨sleep', hsome, rfl⟩
  obtain ⟨ticks, pc, elapsed⟩ := sleep
  cases pc with
  | returned => exact Or.inl ⟨rfl, (Option.some.inj hs).symm⟩
  | called => exact Or.inr (hgoes _ hs)
  | enabled => exact Or.inr (hgoes _ hs)
  | testing start wait => exact Or.inr (hgoes _ hs)
  | waiting start wait => exact Or.inr (hgoes _ hs)
  | halted start wait => exact Or.inr (hgoes _ hs)

theorem Speaker.Kept.proceed (h : s.Kept b0) (hs : s.proceed = some s') : s'.Kept b0 := by
  obtain ⟨board, sleep, pc, setting, played⟩ := s
  cases pc with
  | idle => exact absurd hs (by simp [Speaker.proceed])
  | enable t =>
    obtain rfl := Option.some.inj hs
    exact ⟨h.set, h.others, PitBoard.inb_gate _, h.played⟩
  | enabling t temp =>
    obtain rfl := Option.some.inj hs
    obtain ⟨hon, hkept⟩ := gate_on temp
    have hstage : temp.extractLsb' 0 4 = board.gate := h.stage
    refine ⟨h.set, ?_, hon, h.played⟩
    rw [hstage] at hkept
    exact hkept.trans h.others
  | program t =>
    obtain rfl := Option.some.inj hs
    have hset := Speaker.Set.setPit h.set 2#8 3#8 t.divisor
    have hgate := Speaker.setPit_gate ⟨board, sleep, .program t, setting, played⟩ 2#8 3#8 t.divisor
    have hsounds : board.Sounds := h.stage
    refine ⟨hset, ?_, ⟨?_, hset 2#2, trivial⟩, h.played⟩
    · exact (congrArg (BitVec.extractLsb' 2 2) hgate).trans h.others
    · exact (congrArg (BitVec.extractLsb' 0 2) hgate).trans hsounds
  | sleeping t =>
    obtain ⟨hsounds, hprogrammed, hwaits⟩ := h.stage
    rcases proceed_sleeping hs with ⟨hpc, rfl⟩ | ⟨sleep', hstep, rfl⟩
    · have hwait : (waitTicks t.ms).toNat ≤ sleep.elapsed := by
        rw [Sleep.Waits, hpc] at hwaits
        exact hwaits
      exact ⟨h.set, h.others, hwait, h.played⟩
    · exact ⟨h.set, h.others, ⟨hsounds, hprogrammed, hwaits.step .proceed hstep⟩, h.played⟩
  | disable t =>
    obtain rfl := Option.some.inj hs
    exact ⟨h.set, h.others, ⟨PitBoard.inb_gate _, h.stage⟩, h.played⟩
  | disabling t temp =>
    obtain rfl := Option.some.inj hs
    obtain ⟨hoff, hkept⟩ := gate_off temp
    obtain ⟨htemp, hwait⟩ := h.stage
    refine ⟨h.set, ?_, fun _ => hoff, List.forall_mem_cons.mpr ⟨hwait, h.played⟩⟩
    rw [htemp] at hkept
    exact hkept.trans h.others

theorem Speaker.Kept.call (h : s.Kept b0) {c : SpeakerCall} (hs : s.call c = some s') :
    s'.Kept b0 := by
  obtain ⟨board, sleep, pc, setting, played⟩ := s
  cases pc with
  | idle =>
    cases c with
    | playNote note ms =>
      obtain rfl := Option.some.inj hs
      exact ⟨h.set, h.others, h.stage, h.played⟩
    | rest ms =>
      obtain rfl := Option.some.inj hs
      exact ⟨h.set, h.others, h.stage, h.played⟩
    | setPit channel mode freq =>
      obtain rfl := Option.some.inj hs
      have hgate := Speaker.setPit_gate ⟨board, sleep, .idle, setting, played⟩ channel mode freq
      refine ⟨Speaker.Set.setPit h.set channel mode freq, ?_, fun hne => ?_, h.played⟩
      · exact (congrArg (BitVec.extractLsb' 2 2) hgate).trans h.others
      · exact (congrArg (BitVec.extractLsb' 0 2) hgate).trans (h.stage hne)
  | enable t => exact absurd hs (by simp [Speaker.call])
  | enabling t temp => exact absurd hs (by simp [Speaker.call])
  | program t => exact absurd hs (by simp [Speaker.call])
  | sleeping t => exact absurd hs (by simp [Speaker.call])
  | disable t => exact absurd hs (by simp [Speaker.call])
  | disabling t temp => exact absurd hs (by simp [Speaker.call])

theorem Speaker.Kept.timer (h : s.Kept b0) : s.timer.Kept b0 := by
  obtain ⟨board, sleep, pc, setting, played⟩ := s
  refine ⟨h.set, h.others, ?_, h.played⟩
  have hstage := h.stage
  cases pc with
  | idle => exact hstage
  | enable t => exact hstage
  | enabling t temp => exact hstage
  | program t => exact hstage
  | sleeping t => exact ⟨hstage.1, hstage.2.1, hstage.2.2.timer⟩
  | disable t => exact Nat.le_succ_of_le hstage
  | disabling t temp => exact ⟨hstage.1, Nat.le_succ_of_le hstage.2⟩

theorem Speaker.Kept.interrupted (h : s.Kept b0) : s.interrupted.Kept b0 := by
  obtain ⟨board, sleep, pc, setting, played⟩ := s
  refine ⟨h.set, h.others, ?_, h.played⟩
  have hstage := h.stage
  cases pc with
  | idle => exact hstage
  | enable t => exact hstage
  | enabling t temp => exact hstage
  | program t => exact hstage
  | sleeping t => exact ⟨hstage.1, hstage.2.1, hstage.2.2.interrupted⟩
  | disable t => exact hstage
  | disabling t temp => exact hstage

theorem Speaker.Kept.status (h : s.Kept b0) (v : BitVec 4) :
    Speaker.Kept b0 { s with board := { s.board with status := v } } := by
  obtain ⟨board, sleep, pc, setting, played⟩ := s
  refine ⟨h.set, h.others, ?_, h.played⟩
  have hstage := h.stage
  cases pc <;> exact hstage

theorem Speaker.Kept.step (h : s.Kept b0) (e : SpeakerEvent) (hs : s.step e = some s') :
    s'.Kept b0 := by
  cases e with
  | call c => exact h.call hs
  | proceed => exact h.proceed hs
  | timer =>
    by_cases hon : s.board.interrupts = true
    · simp only [Speaker.step, hon, ↓reduceIte, Option.some.injEq] at hs
      exact hs ▸ h.timer
    · simp [Speaker.step, hon] at hs
  | interrupt =>
    by_cases hon : s.board.interrupts = true
    · simp only [Speaker.step, hon, ↓reduceIte, Option.some.injEq] at hs
      exact hs ▸ h.interrupted
    · simp [Speaker.step, hon] at hs
  | status v => exact Option.some.inj hs ▸ h.status v

theorem Speaker.Run.kept {ticks : BitVec 32} (h : Speaker.Run b0 ticks s) : s.Kept b0 := by
  refine Runs.Reach.invariant (I := Speaker.Kept b0) (fun s hs => ?_)
    (fun s e s' hi _ hstep => hi.step e hstep) h
  rw [hs]
  exact ⟨fun _ => rfl, rfl, fun hne => absurd rfl hne, by simp⟩

/-- Every counter is as the last valid call for it set it, or as it was found; bits 2 and 3 of
port 0x61 too. A sleeping tone sounds at its divisor, a tone that ended lasted its ticks, and
between tones there is none. -/
theorem tones_run {ticks : BitVec 32} (h : Speaker.Run b0 ticks s) :
    (∀ c, s.Set b0 c) ∧ s.board.gate.extractLsb' 2 2 = b0.gate.extractLsb' 2 2 ∧
      (∀ t, s.pc = .sleeping t →
        s.board.Sounds ∧ (s.board.counter 2#2).Programmed 3#3 t.divisor) ∧
      (s.pc = .idle → s.played ≠ [] → s.board.Silent) ∧
      ∀ p ∈ s.played, (waitTicks p.1.ms).toNat ≤ p.2 := by
  have hkept := h.kept
  have hstage := hkept.stage
  refine ⟨hkept.set, hkept.others, fun t ht => ?_, fun hidle => ?_, hkept.played⟩
  · rw [Speaker.Stage, ht] at hstage
    exact ⟨hstage.1, hstage.2.1⟩
  · rw [Speaker.Stage, hidle] at hstage
    exact hstage

def quietBoard : PitBoard := ⟨fun _ => ⟨0#3, false, 0#2, false, 0#8, 0#16, false⟩, 0#4, 0#4, false⟩

def oneNote : List SpeakerEvent :=
  [.call (.setPit 0#8 2#8 11932#16), .call (.playNote 2711#32 10#32), .proceed, .proceed, .proceed,
    .proceed, .proceed, .proceed, .proceed, .timer, .proceed, .proceed, .proceed, .proceed]

theorem tones_run_note : ∃ s : Speaker,
    Runs.run Speaker.step ⟨quietBoard, ⟨0#32, .returned, 0⟩, .idle, fun _ => none, []⟩ oneNote =
        some s ∧
      s.board.Silent ∧ (s.board.counter 0#2).Programmed 2#3 11932#16 := by
  have hrun : ∃ s : Speaker,
      Runs.run Speaker.step ⟨quietBoard, ⟨0#32, .returned, 0⟩, .idle, fun _ => none, []⟩ oneNote =
          some s ∧ s.pc = .idle ∧ s.played = [(⟨2711#16, 10#32⟩, 1)] ∧
        s.setting 0#2 = some (2#3, 11932#16) := ⟨_, rfl, rfl, rfl, rfl⟩
  obtain ⟨s, hs, hidle, hplayed, hsetting⟩ := hrun
  obtain ⟨hset, _, _, hsilent, _⟩ := tones_run (Runs.Reach.of_run (.start rfl) hs)
  have hset := hset 0#2
  rw [Speaker.Set, hsetting] at hset
  exact ⟨s, hs, hsilent hidle (by simp [hplayed]), hset⟩

end SplongleOS
