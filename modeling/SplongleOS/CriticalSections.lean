import SplongleOS.Base.Runs
import SplongleOS.Base.StraightLine
import SplongleOS.PageTables
set_option autoImplicit false

/-! The interrupt flag inside the critical sections of one task, down to the single
`cli` and `sti`. The locks of sched.c count how many pieces of code want interrupts off;
the drivers set and clear the flag without looking at the count. -/

namespace SplongleOS

/-- What the locks and the drivers of the task see. `ports` is the list of bytes written,
`regB` what the CMOS holds in register B. -/
structure Irq where
  irqDisableCounter : Int
  postponeTaskSwitchesCounter : BitVec 32
  taskSwitchesPostponed : Bool
  interrupts : Bool
  vm : Vm
  ports : List (BitVec 16 × BitVec 8)
  regB : BitVec 8

inductive Instr where
  | cli
  | sti
  | incIrqDisable
  | decIrqDisable
  | stiIfFree
  | incPostpone
  | decPostpone
  /-- The deferred `Schedule` of `release_lock`, of a task that is alone. -/
  | schedulePostponed
  | outb (port : BitVec 16) (value : BitVec 8)
  | inbRegB
  | memory (vm : Vm)
  | invlpg (virt : BitVec 32)
  | hlt

def Irq.exec (s : Irq) : Instr → Irq
  | .cli => { s with interrupts := false }
  | .sti => { s with interrupts := true }
  | .incIrqDisable => { s with irqDisableCounter := s.irqDisableCounter + 1 }
  | .decIrqDisable => { s with irqDisableCounter := s.irqDisableCounter - 1 }
  | .stiIfFree => if s.irqDisableCounter = 0 then { s with interrupts := true } else s
  | .incPostpone =>
    { s with postponeTaskSwitchesCounter := s.postponeTaskSwitchesCounter + 1#32 }
  | .decPostpone =>
    { s with postponeTaskSwitchesCounter := s.postponeTaskSwitchesCounter - 1#32 }
  | .schedulePostponed =>
    if s.postponeTaskSwitchesCounter = 0#32 ∧ s.taskSwitchesPostponed = true then
      { s with taskSwitchesPostponed := false }
    else s
  | .outb port value => { s with ports := (port, value) :: s.ports }
  | .inbRegB => s
  | .memory vm => { s with vm := vm }
  | .invlpg _ => s
  | .hlt => s

def lockSchedulerCode : List Instr := [.cli, .incIrqDisable]

def unlockSchedulerCode : List Instr := [.decIrqDisable, .stiIfFree]

def acquireLockCode : List Instr := [.cli, .incIrqDisable, .incPostpone]

def releaseLockCode : List Instr := [.decPostpone, .schedulePostponed, .decIrqDisable, .stiIfFree]

def invalidatePageCode (virt : BitVec 32) : List Instr := [.cli, .invlpg virt, .sti]

def mapPageCode (s : Irq) (phys virt : BitVec 32) : List Instr :=
  let r := mapPage s.vm phys.toNat virt.toNat
  .memory r.2 :: if r.1 then invalidatePageCode virt else []

def setPitCode (channel mode : BitVec 8) (freq : BitVec 16) : List Instr :=
  if 2 < channel.toNat ∨ 7 < mode.toNat then []
  else
    [.cli, .outb 0x43 (channel <<< 6 ||| 0x03#8 <<< 4 ||| mode <<< 1),
      .outb (0x40#16 + channel.setWidth 16) (freq.setWidth 8),
      .outb (0x40#16 + channel.setWidth 16) ((freq >>> 8).setWidth 8), .sti]

def getRegB : List Instr := [.outb 0x70 0x8B, .inbRegB]

/-- Ends with `get_RTC_register(0x0C)`. -/
def enableRtcCode (s : Irq) : List Instr :=
  getRegB ++ [.outb 0x70 0x8B, .outb 0x71 (s.regB ||| 0x40#8), .outb 0x70 0x8C]

def disableRtcCode (s : Irq) : List Instr :=
  .cli :: (getRegB ++ [.outb 0x70 0x8B, .outb 0x71 (s.regB &&& 0xBF#8), .sti])

/-- `sleep` that is woken `wakeups` times before its ticks are over. -/
def sleepCode (wakeups : Nat) : List Instr := .sti :: List.replicate wakeups .hlt

inductive KernelCall where
  | mapPage (phys virt : BitVec 32)
  | setPit (channel mode : BitVec 8) (freq : BitVec 16)
  | enableRtc
  | disableRtc
  | sleep (wakeups : Nat)

def KernelCall.code (s : Irq) : KernelCall → List Instr
  | .mapPage phys virt => mapPageCode s phys virt
  | .setPit channel mode freq => setPitCode channel mode freq
  | .enableRtc => enableRtcCode s
  | .disableRtc => disableRtcCode s
  | .sleep wakeups => sleepCode wakeups

inductive Section where
  | scheduler
  | lock
  deriving DecidableEq, Repr

/-- A task: the sections it is in, innermost first, and the rest of the code it is
executing. -/
structure LockingTask where
  irq : Irq
  sections : List Section
  pending : List Instr

inductive TaskAct where
  | tick
  | lockScheduler
  | unlockScheduler
  | acquireLock
  | releaseLock
  | call (c : KernelCall)

def LockingTask.step (t : LockingTask) : TaskAct → Option LockingTask
  | .tick =>
    match t.pending with
    | [] => none
    | i :: rest => some { t with irq := t.irq.exec i, pending := rest }
  | .lockScheduler =>
    if t.pending = [] then
      some { t with sections := .scheduler :: t.sections, pending := lockSchedulerCode }
    else none
  | .unlockScheduler =>
    if t.pending = [] ∧ t.sections.head? = some .scheduler then
      some { t with sections := t.sections.tail, pending := unlockSchedulerCode }
    else none
  | .acquireLock =>
    if t.pending = [] then
      some { t with sections := .lock :: t.sections, pending := acquireLockCode }
    else none
  | .releaseLock =>
    if t.pending = [] ∧ t.sections.head? = some .lock then
      some { t with sections := t.sections.tail, pending := releaseLockCode }
    else none
  | .call c => if t.pending = [] then some { t with pending := c.code t.irq } else none

/-- The calls that leave the flag alone: `map_page` that finds no memory for a table,
`set_PIT_channel_mode_frequency` that rejects its arguments, and `enable_RTC`. -/
def KernelCall.Quiet (s : Irq) : KernelCall → Prop
  | .mapPage _ virt =>
    s.vm.load (entryAddr s.vm.currentPD (pdIndex virt.toNat)) &&& present ≠ present ∧
      (allocateBlocks s.vm.pmm 1).1 = 0
  | .setPit channel mode _ => 2 < channel.toNat ∨ 7 < mode.toNat
  | .enableRtc => True
  | .disableRtc | .sleep _ => False

def LockingTask.Sound (t : LockingTask) : TaskAct → Prop
  | .call c => t.sections = [] ∨ c.Quiet t.irq
  | _ => True

structure LockingTask.Fresh (t : LockingTask) : Prop where
  counter : t.irq.irqDisableCounter = 0
  notPostponed : t.irq.taskSwitchesPostponed = false
  sections : t.sections = []
  pending : t.pending = []

def Irq.Off (s : Irq) : Prop := 0 < s.irqDisableCounter → s.interrupts = false

/-- Between two calls the counter is the number of open sections. -/
structure Irq.Between (s : Irq) (depth : Nat) : Prop where
  counter : s.irqDisableCounter = depth
  off : 0 < depth → s.interrupts = false

open StraightLine

variable {s : Irq} {depth : Nat}

theorem Irq.Between.isOff (h : s.Between depth) : s.Off := by
  intro hpos
  have hcount := h.counter
  exact h.off (by omega)

def Instr.Silent : Instr → Prop
  | .outb _ _ | .inbRegB | .memory _ | .invlpg _ | .hlt | .incPostpone | .decPostpone
  | .schedulePostponed => True
  | _ => False

theorem exec_silent (s : Irq) {i : Instr} (hi : i.Silent) :
    (s.exec i).irqDisableCounter = s.irqDisableCounter ∧ (s.exec i).interrupts = s.interrupts := by
  cases i with
  | cli | sti | incIrqDisable | decIrqDisable | stiIfFree => exact hi.elim
  | schedulePostponed =>
    simp only [Irq.exec]
    split
    · exact ⟨rfl, rfl⟩
    · exact ⟨rfl, rfl⟩
  | _ => simp [Irq.exec]

theorem Irq.Between.silent {i : Instr} (h : s.Between depth) (hi : i.Silent) :
    (s.exec i).Between depth := by
  obtain ⟨hcount, hflag⟩ := exec_silent s hi
  exact ⟨hcount.trans h.counter, fun hpos => hflag.trans (h.off hpos)⟩

/-- What a piece of code does when interrupts are as the depth asks on entry. -/
structure Keeps (s : Irq) (code : List Instr) (depth : Nat) : Prop where
  always : Always Irq.exec Irq.Off s code
  after : (run Irq.exec s code).Between depth

theorem keeps_nil (h : s.Between depth) : Keeps s [] depth := ⟨h.isOff, h⟩

theorem keeps_cons {i : Instr} {code : List Instr} (hs : s.Off) (h : Keeps (s.exec i) code depth) :
    Keeps s (i :: code) depth := ⟨⟨hs, h.always⟩, h.after⟩

theorem keeps_silent {code : List Instr} (hcode : ∀ i ∈ code, i.Silent) (h : s.Between depth) :
    Keeps s code depth := by
  induction code generalizing s with
  | nil => exact keeps_nil h
  | cons i code ih =>
    exact keeps_cons h.isOff (ih (fun j hj => hcode j (List.mem_cons_of_mem i hj))
      (h.silent (hcode i List.mem_cons_self)))

theorem between_zero (h : s.irqDisableCounter = 0) : s.Between 0 :=
  ⟨h, fun hpos => absurd hpos (Nat.lt_irrefl 0)⟩

theorem keeps_lockScheduler (h : s.Between depth) : Keeps s lockSchedulerCode (depth + 1) := by
  have hcount := h.counter
  refine keeps_cons h.isOff (keeps_cons (fun _ => rfl) (keeps_nil ⟨?_, fun _ => rfl⟩))
  change s.irqDisableCounter + 1 = _
  omega

theorem keeps_acquireLock (h : s.Between depth) : Keeps s acquireLockCode (depth + 1) := by
  have hlock := keeps_lockScheduler h
  have hpost := hlock.after.silent (i := .incPostpone) trivial
  exact ⟨hlock.always.append ⟨hlock.after.isOff, hpost.isOff⟩, hpost⟩

theorem keeps_unlockScheduler (h : s.Between (depth + 1)) : Keeps s unlockSchedulerCode depth := by
  have hcount := h.counter
  have hoff := h.off (Nat.succ_pos depth)
  have hdec : (s.exec .decIrqDisable).irqDisableCounter = depth := by
    change s.irqDisableCounter - 1 = _
    omega
  have hflag : (s.exec .decIrqDisable).interrupts = false := hoff
  refine keeps_cons h.isOff (keeps_cons (fun _ => hflag) (keeps_nil ?_))
  generalize s.exec .decIrqDisable = t at hdec hflag ⊢
  simp only [Irq.exec]
  split
  · rename_i hzero
    have hd : depth = 0 := by omega
    exact hd ▸ between_zero hzero
  · exact ⟨hdec, fun _ => hflag⟩

theorem keeps_releaseLock (h : s.Between (depth + 1)) : Keeps s releaseLockCode depth := by
  have hpost := h.silent (i := .decPostpone) trivial
  exact keeps_cons h.isOff (keeps_cons hpost.isOff (keeps_unlockScheduler (hpost.silent trivial)))

def Instr.Driver : Instr → Prop
  | .incIrqDisable | .decIrqDisable | .stiIfFree => False
  | _ => True

theorem exec_driver (s : Irq) {i : Instr} (hi : i.Driver) :
    (s.exec i).irqDisableCounter = s.irqDisableCounter := by
  cases i with
  | incIrqDisable | decIrqDisable | stiIfFree => exact hi.elim
  | schedulePostponed =>
    simp only [Irq.exec]
    split
    · rfl
    · rfl
  | _ => simp [Irq.exec]

theorem code_driver (s : Irq) (c : KernelCall) : ∀ i ∈ c.code s, i.Driver := by
  intro i hi
  cases c with
  | mapPage phys virt =>
    simp only [KernelCall.code, mapPageCode, List.mem_cons] at hi
    rcases hi with rfl | hi
    · trivial
    · split at hi
      · simp only [invalidatePageCode, List.mem_cons, List.not_mem_nil, or_false] at hi
        rcases hi with rfl | rfl | rfl <;> trivial
      · exact absurd hi List.not_mem_nil
  | setPit channel mode freq =>
    simp only [KernelCall.code, setPitCode] at hi
    split at hi
    · exact absurd hi List.not_mem_nil
    · simp only [List.mem_cons, List.not_mem_nil, or_false] at hi
      rcases hi with rfl | rfl | rfl | rfl | rfl <;> trivial
  | enableRtc =>
    simp only [KernelCall.code, enableRtcCode, getRegB, List.mem_append, List.mem_cons,
      List.not_mem_nil, or_false] at hi
    rcases hi with (rfl | rfl) | rfl | rfl | rfl <;> trivial
  | disableRtc =>
    simp only [KernelCall.code, disableRtcCode, getRegB, List.mem_append, List.mem_cons,
      List.not_mem_nil, or_false] at hi
    rcases hi with rfl | (rfl | rfl) | rfl | rfl | rfl <;> trivial
  | sleep wakeups =>
    simp only [KernelCall.code, sleepCode, List.mem_cons, List.mem_replicate] at hi
    rcases hi with rfl | ⟨_, rfl⟩ <;> trivial

theorem keeps_call_outside (c : KernelCall) (h : s.irqDisableCounter = 0) :
    Keeps s (c.code s) 0 := by
  have hdriver := code_driver s c
  generalize c.code s = code at hdriver
  induction code generalizing s with
  | nil => exact keeps_nil (between_zero h)
  | cons i code ih =>
    exact keeps_cons (between_zero h).isOff (ih ((exec_driver s (hdriver i List.mem_cons_self)).trans h)
      fun j hj => hdriver j (List.mem_cons_of_mem i hj))

theorem mapPage_fst (vm : Vm) (phys virt : Nat) : (mapPage vm phys virt).1 = false ↔
    vm.load (entryAddr vm.currentPD (pdIndex virt)) &&& present ≠ present ∧
      (allocateBlocks vm.pmm 1).1 = 0 := by
  rw [← allocate_fst, mapPage]
  by_cases habsent : vm.load (entryAddr vm.currentPD (pdIndex virt)) &&& present ≠ present
  · rw [if_pos habsent, mapTable]
    by_cases hnone : (vm.allocate 1).1 = 0
    · rw [if_pos hnone]
      exact iff_of_true rfl ⟨habsent, hnone⟩
    · rw [if_neg hnone]
      exact iff_of_false Bool.noConfusion fun h => hnone h.2
  · rw [if_neg habsent]
    exact iff_of_false Bool.noConfusion fun h => habsent h.1

theorem keeps_quiet {c : KernelCall} (hq : c.Quiet s) (h : s.Between depth) :
    Keeps s (c.code s) depth := by
  cases c with
  | mapPage phys virt =>
    have hfalse := (mapPage_fst s.vm phys.toNat virt.toNat).mpr hq
    refine keeps_silent (fun i hi => ?_) h
    simp only [KernelCall.code, mapPageCode, hfalse, Bool.false_eq_true, if_false, List.mem_cons,
      List.not_mem_nil, or_false] at hi
    rw [hi]
    trivial
  | setPit channel mode freq =>
    have hbad : 2 < channel.toNat ∨ 7 < mode.toNat := hq
    rw [KernelCall.code, setPitCode, if_pos hbad]
    exact keeps_nil h
  | enableRtc =>
    refine keeps_silent (fun i hi => ?_) h
    simp only [KernelCall.code, enableRtcCode, getRegB, List.mem_append, List.mem_cons,
      List.not_mem_nil, or_false] at hi
    rcases hi with (rfl | rfl) | rfl | rfl | rfl <;> trivial
  | disableRtc => exact hq.elim
  | sleep wakeups => exact hq.elim

theorem not_always_of_sti {code : List Instr} (hdriver : ∀ i ∈ code, i.Driver)
    (hsti : Instr.sti ∈ code) (hpos : 0 < s.irqDisableCounter) :
    ¬Always Irq.exec Irq.Off s code := by
  induction code generalizing s with
  | nil => exact absurd hsti List.not_mem_nil
  | cons i code ih =>
    rintro ⟨_, hrest⟩
    have hcount := exec_driver s (hdriver i List.mem_cons_self)
    rcases List.mem_cons.mp hsti with rfl | hsti
    · exact Bool.noConfusion (hrest.now (hcount.symm ▸ hpos))
    · exact ih (fun j hj => hdriver j (List.mem_cons_of_mem i hj)) hsti (hcount.symm ▸ hpos) hrest

theorem sti_mem_code {c : KernelCall} (hq : ¬c.Quiet s) : Instr.sti ∈ c.code s := by
  cases c with
  | mapPage phys virt =>
    have htrue : (mapPage s.vm phys.toNat virt.toNat).1 = true := by
      rw [← Bool.not_eq_false, mapPage_fst]
      exact hq
    simp [KernelCall.code, mapPageCode, htrue, invalidatePageCode]
  | setPit channel mode freq =>
    have hgood : ¬(2 < channel.toNat ∨ 7 < mode.toNat) := hq
    simp [KernelCall.code, setPitCode, if_neg hgood]
  | enableRtc => exact absurd trivial hq
  | disableRtc => simp [KernelCall.code, disableRtcCode]
  | sleep wakeups => simp [KernelCall.code, sleepCode]

/-- Inside a section exactly the quiet calls keep interrupts off throughout. -/
theorem call_off_iff (c : KernelCall) (h : s.Between (depth + 1)) :
    Always Irq.exec Irq.Off s (c.code s) ↔ c.Quiet s := by
  constructor
  · intro halways
    by_contra hq
    have hcount := h.counter
    exact not_always_of_sti (code_driver s c) (sti_mem_code hq) (by omega) halways
  · exact fun hq => (keeps_quiet hq h).always

/-- Wherever the task is, the rest of its code keeps interrupts off and ends with the
flag the open sections ask for. -/
def LockingTask.Inv (t : LockingTask) : Prop := Keeps t.irq t.pending t.sections.length

theorem LockingTask.Inv.idle {t : LockingTask} (h : t.Inv) (hidle : t.pending = []) :
    t.irq.Between t.sections.length := by
  have hafter := h.after
  rw [hidle] at hafter
  exact hafter

theorem inv_of_fresh {t : LockingTask} (h : t.Fresh) : t.Inv := by
  rw [LockingTask.Inv, h.pending, h.sections]
  exact keeps_nil (between_zero h.counter)

theorem sections_length {t : LockingTask} {x : Section} (h : t.sections.head? = some x) :
    t.sections.length = t.sections.tail.length + 1 := by
  cases hs : t.sections with
  | nil =>
    rw [hs] at h
    contradiction
  | cons y rest => rfl

theorem LockingTask.Inv.step {t t' : LockingTask} (a : TaskAct) (h : t.Inv) (hok : t.Sound a)
    (hs : t.step a = some t') : t'.Inv := by
  cases a with
  | tick =>
    rw [LockingTask.step] at hs
    cases hp : t.pending with
    | nil =>
      rw [hp] at hs
      contradiction
    | cons i rest =>
      rw [hp] at hs
      obtain rfl := Option.some.inj hs
      rw [LockingTask.Inv, hp] at h
      exact ⟨h.always.2, h.after⟩
  | lockScheduler =>
    rw [LockingTask.step] at hs
    split at hs
    · rename_i hidle
      obtain rfl := Option.some.inj hs
      exact keeps_lockScheduler (h.idle hidle)
    · contradiction
  | unlockScheduler =>
    rw [LockingTask.step] at hs
    split at hs
    · rename_i hin
      obtain rfl := Option.some.inj hs
      exact keeps_unlockScheduler (sections_length hin.2 ▸ h.idle hin.1)
    · contradiction
  | acquireLock =>
    rw [LockingTask.step] at hs
    split at hs
    · rename_i hidle
      obtain rfl := Option.some.inj hs
      exact keeps_acquireLock (h.idle hidle)
    · contradiction
  | releaseLock =>
    rw [LockingTask.step] at hs
    split at hs
    · rename_i hin
      obtain rfl := Option.some.inj hs
      exact keeps_releaseLock (sections_length hin.2 ▸ h.idle hin.1)
    · contradiction
  | call c =>
    rw [LockingTask.step] at hs
    split at hs
    · rename_i hidle
      obtain rfl := Option.some.inj hs
      have hbetween := h.idle hidle
      rcases hok with hout | hq
      · rw [hout] at hbetween
        rw [LockingTask.Inv, hout]
        exact keeps_call_outside c hbetween.counter
      · exact keeps_quiet hq hbetween
    · contradiction

/-- In every state of a run whose sections contain quiet calls only, interrupts are off
while the counter is positive. -/
theorem critical_sections_off {t0 t : LockingTask} (h0 : t0.Fresh)
    (hrun : Runs.Reach LockingTask.step LockingTask.Sound (fun t => t = t0) t)
    (hpos : 0 < t.irq.irqDisableCounter) : t.irq.interrupts = false := by
  have hinv : t.Inv := by
    refine Runs.Reach.invariant (I := LockingTask.Inv) ?_ (fun _ a _ hi hok hs => hi.step a hok hs)
      hrun
    rintro _ rfl
    exact inv_of_fresh h0
  exact hinv.always.now hpos

def unlockedTask : LockingTask := ⟨⟨0, 0, false, true, ⟨⟨fun _ => 0, 0, 0, 0, []⟩, 0, []⟩, [], 0⟩, [], []⟩

theorem fresh_unlockedTask : unlockedTask.Fresh := ⟨rfl, rfl, rfl, rfl⟩

def clockInSection : List TaskAct :=
  [.lockScheduler, .tick, .tick, .call .enableRtc, .tick, .tick, .tick, .tick, .tick]

theorem critical_sections_off_small : ∃ t,
    Runs.run LockingTask.step unlockedTask clockInSection = some t ∧
      0 < t.irq.irqDisableCounter ∧ t.irq.interrupts = false := by
  have h0 : Runs.Reach LockingTask.step LockingTask.Sound (fun t => t = unlockedTask) unlockedTask :=
    .start rfl
  have hcli := (h0.next TaskAct.lockScheduler trivial rfl).next TaskAct.tick trivial rfl
  have hlocked := hcli.next TaskAct.tick trivial rfl
  have hcall := hlocked.next (TaskAct.call .enableRtc) (.inr trivial) rfl
  have hread := (hcall.next TaskAct.tick trivial rfl).next TaskAct.tick trivial rfl
  have hset := (hread.next TaskAct.tick trivial rfl).next TaskAct.tick trivial rfl
  have hwritten := hset.next TaskAct.tick trivial rfl
  exact ⟨_, rfl, by decide, critical_sections_off fresh_unlockedTask hwritten (by decide)⟩

def timerInSection : List TaskAct :=
  [.lockScheduler, .tick, .tick, .call (.setPit 0#8 3#8 11931#16), .tick, .tick, .tick, .tick, .tick]

theorem interrupts_on_in_section : ¬∀ (t0 t : LockingTask), t0.Fresh →
    Runs.Reach LockingTask.step (fun _ _ => True) (fun t => t = t0) t →
    0 < t.irq.irqDisableCounter → t.irq.interrupts = false := by
  intro hall
  have hfinal : ∃ t : LockingTask, Runs.run LockingTask.step unlockedTask timerInSection = some t ∧
      t.irq.irqDisableCounter = 1 ∧ t.irq.interrupts = true := ⟨_, rfl, rfl, rfl⟩
  obtain ⟨t, hrun, hcount, hflag⟩ := hfinal
  have hoff := hall unlockedTask t fresh_unlockedTask (.of_run (.start rfl) hrun) (by omega)
  rw [hflag] at hoff
  contradiction

end SplongleOS
