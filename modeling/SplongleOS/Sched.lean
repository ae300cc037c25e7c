import SplongleOS.Base.Chain
import Mathlib.Data.List.FinRange
set_option autoImplicit false

/-! The scheduler, sched.c and sched.asm: the task table, the ready list and the locks.
A task slot is one of MAX_TASKS; stacks and registers are left to the module on the
context switch. The counters are taken to stay below the 2^31 of `IRQ_disable_counter`. -/

namespace SplongleOS

abbrev TaskId := Fin 16

instance neZeroTasks : @NeZero Nat Zero.ofOfNat0 16 := ⟨by decide⟩

structure Tcb where
  next : Option TaskId
  state : BitVec 8
  taskId : BitVec 32
  entrypoint : BitVec 32
  deriving DecidableEq, Repr

def running : BitVec 8 := 0#8

def readyToRun : BitVec 8 := 1#8

/-- Where a task goes on once `switch_to_task` comes back to it: at its entrypoint, after
its own call of `Schedule`, or at the end of `block_task`, `unblock_task` or
`release_lock`, which all lower `IRQ_disable_counter` and enable interrupts at zero. -/
inductive Resume where
  | entry
  | schedule
  | unlock
  deriving DecidableEq, Repr

inductive SchedEvent where
  | schedule (counter : Nat)
  | switch (prev next : TaskId) (counter : Nat)
  deriving DecidableEq, Repr

/-- The fields from `resume` on are ghosts: where the tasks go on, which called
`block_task` and wait for `unblock_task`, how many times a task was entered at its
entrypoint, and what has happened, the latest first. -/
structure Sched where
  tasks : TaskId → Tcb
  used : TaskId → Bool
  numTasks : Nat
  nextTaskId : BitVec 32
  current : TaskId
  firstReady : Option TaskId
  lastReady : Option TaskId
  idleTask : Option TaskId
  taskSwitchesPostponed : Bool
  postponeTaskSwitchesCounter : Nat
  irqDisableCounter : Int
  interrupts : Bool
  resume : TaskId → Resume
  blocked : TaskId → Bool
  started : Nat
  log : List SchedEvent

def Sched.next (s : Sched) (t : TaskId) : Option TaskId := (s.tasks t).next

def Sched.state (s : Sched) (t : TaskId) : BitVec 8 := (s.tasks t).state

def Sched.setNext (s : Sched) (t : TaskId) (next : Option TaskId) : Sched :=
  { s with tasks := Function.update s.tasks t { s.tasks t with next := next } }

def Sched.setState (s : Sched) (t : TaskId) (state : BitVec 8) : Sched :=
  { s with tasks := Function.update s.tasks t { s.tasks t with state := state } }

def lockScheduler (s : Sched) : Sched :=
  { s with interrupts := false, irqDisableCounter := s.irqDisableCounter + 1 }

def unlockScheduler (s : Sched) : Sched :=
  { s with
    irqDisableCounter := s.irqDisableCounter - 1
    interrupts := if s.irqDisableCounter - 1 = 0 then true else s.interrupts }

def linkReady (s : Sched) (t : TaskId) : Sched :=
  match s.lastReady with
  | some last => { s.setNext last (some t) with lastReady := some t }
  | none => { s with firstReady := some t, lastReady := some t }

/-- `switch_to_task` from the test of the previous task's state to `.skip_put_back`. -/
def putBack (s : Sched) (prev : TaskId) : Sched :=
  (linkReady (s.setState prev readyToRun) prev).setNext prev none

/-- From `.skip_put_back` on. -/
def dispatch (s : Sched) (prev next : TaskId) : Sched :=
  { s.setState next running with
    current := next
    started := if s.resume next = .entry then s.started + 1 else s.started
    log := .switch prev next s.postponeTaskSwitchesCounter :: s.log }

/-- `site` is where the previous task will go on. The first component tells whether there
was a switch, so that the code after the call is that of the new current task. -/
def switchToTask (s : Sched) (site : Resume) (next : TaskId) : Bool × Sched :=
  if s.postponeTaskSwitchesCounter ≠ 0 then (false, { s with taskSwitchesPostponed := true })
  else
    let prev := s.current
    let s := { s with resume := Function.update s.resume prev site }
    let s := if s.state prev = running then putBack s prev else s
    (true, dispatch s prev next)

/-- `Schedule` once it has taken `task` off the list. -/
def scheduleTaken (s : Sched) (site : Resume) (task : TaskId) : Bool × Sched :=
  if some task = s.idleTask then
    match s.firstReady with
    | some other =>
      let s := s.setNext task (s.next other)
      switchToTask { s with firstReady := some task } site other
    | none => if s.state s.current = running then (false, s) else switchToTask s site task
  else switchToTask s site task

def scheduleBody (s : Sched) (site : Resume) : Bool × Sched :=
  if s.postponeTaskSwitchesCounter > 0 then (false, { s with taskSwitchesPostponed := true })
  else
    match s.firstReady with
    | some task => scheduleTaken { s with firstReady := s.next task } site task
    | none => (false, s)

def Sched.noted (s : Sched) : Sched :=
  { s with log := .schedule s.postponeTaskSwitchesCounter :: s.log }

def schedule (s : Sched) (site : Resume) : Bool × Sched := scheduleBody s.noted site

/-- The rest of a function whose own rest is `site`, or of the one the new current task is
in. -/
def finish (site : Resume) (r : Bool × Sched) : Sched :=
  match if r.1 then r.2.resume r.2.current else site with
  | .entry | .schedule => r.2
  | .unlock => unlockScheduler r.2

def callSchedule (s : Sched) : Sched := finish .schedule (schedule s .schedule)

def blockTask (s : Sched) (reason : BitVec 32) : Sched :=
  let s := lockScheduler s
  let s :=
    { s.setState s.current (reason.setWidth 8) with blocked := Function.update s.blocked s.current true }
  finish .unlock (schedule s .unlock)

def unblockTask (s : Sched) (task : TaskId) : Sched :=
  let s := lockScheduler s
  let s := { s with blocked := Function.update s.blocked task false }
  if s.firstReady = none ∨ some s.current = s.idleTask then finish .unlock (switchToTask s .unlock task)
  else
    let s :=
      match s.lastReady with
      | some last => s.setNext last (some task)
      | none => s
    unlockScheduler { s with lastReady := some task }

def acquireLock (s : Sched) : Sched :=
  { s with
    interrupts := false
    irqDisableCounter := s.irqDisableCounter + 1
    postponeTaskSwitchesCounter := s.postponeTaskSwitchesCounter + 1 }

def releaseLock (s : Sched) : Sched :=
  let s := { s with postponeTaskSwitchesCounter := s.postponeTaskSwitchesCounter - 1 }
  if s.postponeTaskSwitchesCounter = 0 ∧ s.taskSwitchesPostponed = true then
    finish .unlock (schedule { s with taskSwitchesPostponed := false } .unlock)
  else unlockScheduler s

def addTask (s : Sched) (t : TaskId) (entrypoint : BitVec 32) : Sched :=
  let s :=
    { s with
      used := Function.update s.used t true
      tasks := Function.update s.tasks t ⟨none, readyToRun, s.nextTaskId, entrypoint⟩
      nextTaskId := s.nextTaskId + 1#32
      resume := Function.update s.resume t .entry
      numTasks := s.numTasks + 1 }
  linkReady s t

def freeSlot (s : Sched) : Option TaskId := (List.finRange 16).find? fun i => !s.used i

def createKernelTask (s : Sched) (entrypoint : BitVec 32) : Option TaskId × Sched :=
  if s.numTasks ≥ 16 then (none, s)
  else
    match freeSlot s with
    | some t => (some t, addTask s t entrypoint)
    | none => (none, s)

def multitaskingInit (s : Sched) (idle : BitVec 32) : Sched :=
  let s :=
    { s with
      used := fun i => decide (i = 0)
      current := 0
      numTasks := 1
      tasks := Function.update s.tasks 0 { s.tasks 0 with
        state := running, taskId := s.nextTaskId, next := none }
      nextTaskId := s.nextTaskId + 1#32
      firstReady := none
      lastReady := none }
  let r := createKernelTask s idle
  { r.2 with idleTask := r.1 }

def unscheduled : Sched :=
  ⟨fun _ => ⟨none, 0#8, 0#32, 0#32⟩, fun _ => false, 0, 0#32, 0, none, none, none, false, 0, 0, true,
    fun _ => .entry, fun _ => false, 0, []⟩

inductive SchedCall where
  | createKernelTask (entrypoint : BitVec 32)
  | lockScheduler
  | schedule
  | unlockScheduler
  | blockTask (reason : BitVec 32)
  | unblockTask (task : TaskId)
  | acquireLock
  | releaseLock

def Sched.call (s : Sched) : SchedCall → Sched
  | .createKernelTask entrypoint => (SplongleOS.createKernelTask s entrypoint).2
  | .lockScheduler => SplongleOS.lockScheduler s
  | .schedule => callSchedule s
  | .unlockScheduler => SplongleOS.unlockScheduler s
  | .blockTask reason => SplongleOS.blockTask s reason
  | .unblockTask task => SplongleOS.unblockTask s task
  | .acquireLock => SplongleOS.acquireLock s
  | .releaseLock => SplongleOS.releaseLock s

/-- Releases match acquires, and only blocked tasks are unblocked. -/
def Sched.step (s : Sched) : SchedCall → Option Sched
  | .unblockTask task => if s.blocked task = true then some (s.call (.unblockTask task)) else none
  | .releaseLock => if 0 < s.postponeTaskSwitchesCounter then some (s.call .releaseLock) else none
  | c => some (s.call c)

end SplongleOS
