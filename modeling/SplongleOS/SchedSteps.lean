import SplongleOS.Base.Runs
import SplongleOS.Sched
set_option autoImplicit false

/-! What each function of the scheduler reads and writes, field by field, and the ways a
call of `Schedule` can go. -/

namespace SplongleOS
open Chain

variable {s t u : Sched} {a b prev : TaskId} {site : Resume}

theorem setNext_next (s : Sched) (a : TaskId) (n : Option TaskId) (b : TaskId) :
    (s.setNext a n).next b = if b = a then n else s.next b := by
  unfold Sched.setNext Sched.next
  by_cases h : b = a
  · subst h
    simp
  · simp [h]

@[simp] theorem setNext_state (s : Sched) (a : TaskId) (n : Option TaskId) (b : TaskId) :
    (s.setNext a n).state b = s.state b := by
  unfold Sched.setNext Sched.state
  by_cases h : b = a
  · subst h
    simp
  · simp [h]

@[simp] theorem setState_next (s : Sched) (a : TaskId) (v : BitVec 8) (b : TaskId) :
    (s.setState a v).next b = s.next b := by
  unfold Sched.setState Sched.next
  by_cases h : b = a
  · subst h
    simp
  · simp [h]

theorem setState_state (s : Sched) (a : TaskId) (v : BitVec 8) (b : TaskId) :
    (s.setState a v).state b = if b = a then v else s.state b := by
  unfold Sched.setState Sched.state
  by_cases h : b = a
  · subst h
    simp
  · simp [h]

theorem linkReady_next (s : Sched) (t b : TaskId) :
    (linkReady s t).next b = if s.lastReady = some b then some t else s.next b := by
  unfold linkReady
  split
  · rename_i last hlast
    have hstep := setNext_next s last (some t) b
    by_cases hb : b = last
    · rw [if_pos (by rw [hlast, hb])]
      exact hstep.trans (if_pos hb)
    · rw [if_neg (by rw [hlast, Option.some.injEq]; exact Ne.symm hb)]
      exact hstep.trans (if_neg hb)
  · rename_i hnone
    rw [if_neg (by rw [hnone]; exact (Option.some_ne_none b).symm)]
    rfl

theorem linkReady_state (s : Sched) (t b : TaskId) : (linkReady s t).state b = s.state b := by
  unfold linkReady
  split
  · exact setNext_state s _ _ b
  · rfl

theorem linkReady_first (s : Sched) (t : TaskId) :
    (linkReady s t).firstReady = if s.lastReady = none then some t else s.firstReady := by
  unfold linkReady
  split
  · rename_i last hlast
    rw [if_neg (by rw [hlast]; exact Option.some_ne_none last)]
    rfl
  · rename_i hnone
    rw [if_pos hnone]

theorem linkReady_last (s : Sched) (t : TaskId) : (linkReady s t).lastReady = some t := by
  unfold linkReady
  split <;> rfl

structure SameCore (s t : Sched) : Prop where
  used : t.used = s.used
  current : t.current = s.current
  idleTask : t.idleTask = s.idleTask
  postponed : t.taskSwitchesPostponed = s.taskSwitchesPostponed
  counter : t.postponeTaskSwitchesCounter = s.postponeTaskSwitchesCounter
  irq : t.irqDisableCounter = s.irqDisableCounter
  interrupts : t.interrupts = s.interrupts
  resume : t.resume = s.resume
  blocked : t.blocked = s.blocked
  started : t.started = s.started
  log : t.log = s.log

theorem sameCore_linkReady (s : Sched) (t : TaskId) : SameCore s (linkReady s t) := by
  unfold linkReady
  split <;> constructor <;> rfl

theorem putBack_next (s : Sched) (prev b : TaskId) : (putBack s prev).next b =
    if b = prev then none else if s.lastReady = some b then some prev else s.next b := by
  rw [putBack, setNext_next, linkReady_next, setState_next]
  rfl

theorem putBack_state (s : Sched) (prev b : TaskId) :
    (putBack s prev).state b = if b = prev then readyToRun else s.state b := by
  rw [putBack, setNext_state, linkReady_state, setState_state]

theorem putBack_first (s : Sched) (prev : TaskId) :
    (putBack s prev).firstReady = if s.lastReady = none then some prev else s.firstReady :=
  linkReady_first (s.setState prev readyToRun) prev

theorem putBack_last (s : Sched) (prev : TaskId) : (putBack s prev).lastReady = some prev :=
  linkReady_last (s.setState prev readyToRun) prev

theorem sameCore_putBack (s : Sched) (prev : TaskId) : SameCore s (putBack s prev) := by
  have h := sameCore_linkReady (s.setState prev readyToRun) prev
  exact ⟨h.used, h.current, h.idleTask, h.postponed, h.counter, h.irq, h.interrupts, h.resume,
    h.blocked, h.started, h.log⟩

theorem queue_putBack {l : List TaskId} (h : Queue s.next s.firstReady s.lastReady l) (hp : prev ∉ l) :
    Queue (putBack s prev).next (putBack s prev).firstReady (putBack s prev).lastReady
      (l ++ [prev]) := by
  rw [putBack_last]
  refine h.push (fun b hb hne => ?_) (fun z hz => ?_) ?_ (putBack_first s prev)
  · have hbp : b ≠ prev := fun heq => hp (heq ▸ hb)
    rw [putBack_next, if_neg hbp, if_neg hne]
  · have hzp : z ≠ prev := fun heq => hp (heq ▸ h.last_mem hz)
    rw [putBack_next, if_neg hzp, if_pos hz]
  · rw [putBack_next, if_pos rfl]

/-- The previous task as it leaves the processor. -/
def yielded (s : Sched) (site : Resume) : Sched :=
  let t := { s with resume := Function.update s.resume s.current site }
  if s.state s.current = running then putBack t s.current else t

theorem switchToTask_postponed (h : 0 < s.postponeTaskSwitchesCounter) (next : TaskId) :
    switchToTask s site next = (false, { s with taskSwitchesPostponed := true }) :=
  if_pos (Nat.pos_iff_ne_zero.mp h)

theorem switchToTask_eq (h : s.postponeTaskSwitchesCounter = 0) (next : TaskId) :
    switchToTask s site next = (true, dispatch (yielded s site) s.current next) := by
  rw [switchToTask, if_neg (not_not.mpr h)]
  rfl

theorem dispatch_next (s : Sched) (prev next : TaskId) : (dispatch s prev next).next = s.next :=
  funext fun b => setState_next s next running b

theorem dispatch_state (s : Sched) (prev next b : TaskId) :
    (dispatch s prev next).state b = if b = next then running else s.state b :=
  setState_state s next running b

theorem yielded_of_running (h : s.state s.current = running) (site : Resume) : yielded s site =
    putBack { s with resume := Function.update s.resume s.current site } s.current := if_pos h

theorem yielded_of_not_running (h : s.state s.current ≠ running) (site : Resume) :
    yielded s site = { s with resume := Function.update s.resume s.current site } := if_neg h

theorem yielded_state (s : Sched) (site : Resume) (b : TaskId) : (yielded s site).state b =
    if b = s.current ∧ s.state s.current = running then readyToRun else s.state b := by
  by_cases hrunning : s.state s.current = running
  · rw [yielded_of_running hrunning, putBack_state]
    simp only [hrunning, and_true]
    rfl
  · rw [yielded_of_not_running hrunning, if_neg fun h => hrunning h.2]
    rfl

theorem yielded_last (s : Sched) (site : Resume) : (yielded s site).lastReady =
    if s.state s.current = running then some s.current else s.lastReady := by
  by_cases hrunning : s.state s.current = running
  · rw [yielded_of_running hrunning, putBack_last, if_pos hrunning]
  · rw [yielded_of_not_running hrunning, if_neg hrunning]

theorem sameCore_yielded (s : Sched) (site : Resume) :
    SameCore { s with resume := Function.update s.resume s.current site } (yielded s site) := by
  unfold yielded
  dsimp only
  split
  · exact sameCore_putBack _ _
  · constructor <;> rfl

/-- Taking the next task off the list: the head, or the node behind the idle task. -/
inductive Popped (s : Sched) : TaskId → Sched → Prop where
  | head {a : TaskId} : s.firstReady = some a →
      (some a = s.idleTask → s.next a = none ∧ s.state s.current ≠ running) →
      Popped s a { s with firstReady := s.next a }
  | behindIdle {a b : TaskId} : s.firstReady = some a → some a = s.idleTask → s.next a = some b →
      Popped s b { s.setNext a (s.next b) with firstReady := some a }

inductive Scheduled (s : Sched) (site : Resume) : Bool × Sched → Prop where
  | postponed : 0 < s.postponeTaskSwitchesCounter →
      Scheduled s site (false, { s with taskSwitchesPostponed := true })
  | empty : s.postponeTaskSwitchesCounter = 0 → s.firstReady = none → Scheduled s site (false, s)
  | onlyIdle {a : TaskId} : s.postponeTaskSwitchesCounter = 0 → s.firstReady = some a →
      some a = s.idleTask → s.next a = none → s.state s.current = running →
      Scheduled s site (false, { s with firstReady := none })
  | picked {a : TaskId} {u : Sched} : s.postponeTaskSwitchesCounter = 0 → Popped s a u →
      Scheduled s site (true, dispatch (yielded u site) s.current a)

theorem sameCore_popped (h : Popped s a u) : SameCore s u := by
  cases h with
  | head => constructor <;> rfl
  | behindIdle => constructor <;> rfl

theorem popped_last (h : Popped s a u) : u.lastReady = s.lastReady := by
  cases h <;> rfl

theorem popped_state (h : Popped s a u) (b : TaskId) : u.state b = s.state b := by
  cases h with
  | head => rfl
  | behindIdle => exact setNext_state s _ _ b

theorem Popped.first_ne (h : Popped s a u) : s.firstReady ≠ none := by
  cases h with
  | head hfirst => simp [hfirst]
  | behindIdle hfirst => simp [hfirst]

theorem switchToTask_popped (hzero : s.postponeTaskSwitchesCounter = 0) (h : Popped s a u) :
    Scheduled s site (switchToTask u site a) := by
  have hcore := sameCore_popped h
  rw [switchToTask_eq (hcore.counter.trans hzero), hcore.current]
  exact .picked hzero h

theorem schedule_cases (s : Sched) (site : Resume) : Scheduled s site (scheduleBody s site) := by
  unfold scheduleBody
  by_cases hlock : s.postponeTaskSwitchesCounter > 0
  · rw [if_pos hlock]
    exact .postponed hlock
  · have hzero : s.postponeTaskSwitchesCounter = 0 := by omega
    rw [if_neg hlock]
    split
    · rename_i task hfirst
      unfold scheduleTaken
      by_cases hidle : some task = s.idleTask
      · rw [if_pos hidle]
        split
        · rename_i other hnext
          exact switchToTask_popped hzero (.behindIdle hfirst hidle hnext)
        · rename_i hnext
          have hnext' : s.next task = none := hnext
          split
          · rename_i hrunning
            have h : Scheduled s site (false, { s with firstReady := none }) :=
              .onlyIdle hzero hfirst hidle hnext' hrunning
            rwa [← hnext'] at h
          · rename_i hrunning
            exact switchToTask_popped hzero (.head hfirst fun _ => ⟨hnext', hrunning⟩)
      · rw [if_neg hidle]
        exact switchToTask_popped hzero (.head hfirst fun h => absurd h hidle)
    · rename_i hfirst
      exact .empty hzero hfirst

/-- `t` is `s` but for the counters, the flags, the places to go on at and the record. -/
def Aside (s t : Sched) : Prop :=
  ∃ flag counter irq interrupts resume started log, t =
    { s with
      taskSwitchesPostponed := flag
      postponeTaskSwitchesCounter := counter
      irqDisableCounter := irq
      interrupts := interrupts
      resume := resume
      started := started
      log := log }

theorem Aside.refl (s : Sched) : Aside s s := ⟨_, _, _, _, _, _, _, rfl⟩

theorem Aside.trans {v : Sched} (h : Aside s t) (h' : Aside t v) : Aside s v := by
  obtain ⟨_, _, _, _, _, _, _, rfl⟩ := h
  obtain ⟨_, _, _, _, _, _, _, rfl⟩ := h'
  exact ⟨_, _, _, _, _, _, _, rfl⟩

theorem aside_noted (s : Sched) : Aside s s.noted := ⟨_, _, _, _, _, _, _, rfl⟩

theorem aside_lockScheduler (s : Sched) : Aside s (lockScheduler s) := ⟨_, _, _, _, _, _, _, rfl⟩

theorem aside_unlockScheduler (s : Sched) : Aside s (unlockScheduler s) :=
  ⟨_, _, _, _, _, _, _, rfl⟩

theorem aside_acquireLock (s : Sched) : Aside s (acquireLock s) := ⟨_, _, _, _, _, _, _, rfl⟩

theorem aside_finish (site : Resume) (r : Bool × Sched) : Aside r.2 (finish site r) := by
  unfold finish
  split
  · exact Aside.refl _
  · exact Aside.refl _
  · exact aside_unlockScheduler _

theorem finish_eq (site : Resume) (r : Bool × Sched) :
    ∃ n b, finish site r = { r.2 with irqDisableCounter := n, interrupts := b } := by
  unfold finish
  split
  · exact ⟨_, _, rfl⟩
  · exact ⟨_, _, rfl⟩
  · exact ⟨_, _, rfl⟩

theorem finish_switched (site : Resume) (t : Sched) :
    finish site (true, t) = if t.resume t.current = .unlock then unlockScheduler t else t := by
  unfold finish
  cases t.resume t.current <;> simp

theorem finish_stayed (site : Resume) (t : Sched) :
    finish site (false, t) = if site = .unlock then unlockScheduler t else t := by
  cases site <;> rfl

def Sched.marked (s : Sched) (reason : BitVec 32) : Sched :=
  { (lockScheduler s).setState s.current (reason.setWidth 8) with
    blocked := Function.update s.blocked s.current true }

theorem marked_next (s : Sched) (reason : BitVec 32) : (s.marked reason).next = s.next :=
  funext fun b => setState_next (lockScheduler s) s.current (reason.setWidth 8) b

theorem marked_state (s : Sched) (reason : BitVec 32) (b : TaskId) : (s.marked reason).state b =
    if b = s.current then reason.setWidth 8 else s.state b :=
  setState_state (lockScheduler s) s.current (reason.setWidth 8) b

theorem marked_blocked (s : Sched) (reason : BitVec 32) (b : TaskId) :
    (s.marked reason).blocked b = if b = s.current then true else s.blocked b :=
  Function.update_apply s.blocked s.current true b

theorem blockTask_eq (s : Sched) (reason : BitVec 32) :
    blockTask s reason = finish .unlock (schedule (s.marked reason) .unlock) := rfl

def Sched.cleared (s : Sched) (task : TaskId) : Sched :=
  { lockScheduler s with blocked := Function.update s.blocked task false }

theorem cleared_blocked (s : Sched) (task b : TaskId) :
    (s.cleared task).blocked b = if b = task then false else s.blocked b :=
  Function.update_apply s.blocked task false b

def Sched.Preempts (s : Sched) : Prop := s.firstReady = none ∨ some s.current = s.idleTask

instance (s : Sched) : Decidable s.Preempts :=
  inferInstanceAs (Decidable (s.firstReady = none ∨ some s.current = s.idleTask))

def behindLast (s : Sched) (task : TaskId) : Sched :=
  { (match s.lastReady with
      | some last => s.setNext last (some task)
      | none => s) with lastReady := some task }

theorem unblockTask_eq (s : Sched) (task : TaskId) : unblockTask s task =
    if s.Preempts then finish .unlock (switchToTask (s.cleared task) .unlock task)
    else unlockScheduler (behindLast (s.cleared task) task) := rfl

inductive Unblocked (s : Sched) (task : TaskId) : Sched → Prop where
  | postponed {t : Sched} : 0 < s.postponeTaskSwitchesCounter → s.Preempts → Aside (s.cleared task) t →
      Unblocked s task t
  | preempts {t : Sched} : s.postponeTaskSwitchesCounter = 0 → s.Preempts →
      Aside (dispatch (yielded (s.cleared task) .unlock) s.current task) t → Unblocked s task t
  | queued {t : Sched} : ¬s.Preempts → Aside (behindLast (s.cleared task) task) t →
      Unblocked s task t

theorem unblockTask_cases (s : Sched) (task : TaskId) : Unblocked s task (unblockTask s task) := by
  rw [unblockTask_eq]
  by_cases hpre : s.Preempts
  · rw [if_pos hpre]
    by_cases hlock : s.postponeTaskSwitchesCounter > 0
    · rw [switchToTask_postponed (s := s.cleared task) hlock]
      have hflag : Aside (s.cleared task) { s.cleared task with taskSwitchesPostponed := true } :=
        ⟨_, _, _, _, _, _, _, rfl⟩
      exact .postponed hlock hpre (hflag.trans (aside_finish _ _))
    · have hzero : s.postponeTaskSwitchesCounter = 0 := by omega
      rw [switchToTask_eq (s := s.cleared task) hzero]
      exact .preempts hzero hpre (aside_finish _ _)
  · rw [if_neg hpre]
    exact .queued hpre (aside_unlockScheduler _)

theorem behindLast_next (s : Sched) (task b : TaskId) : (behindLast s task).next b =
    if s.lastReady = some b then some task else s.next b := by
  rw [← linkReady_next]
  unfold behindLast linkReady
  cases s.lastReady <;> rfl

theorem behindLast_first (s : Sched) (task : TaskId) :
    (behindLast s task).firstReady = s.firstReady := by
  unfold behindLast
  cases s.lastReady <;> rfl

theorem behindLast_state (s : Sched) (task b : TaskId) :
    (behindLast s task).state b = s.state b := by
  rw [← linkReady_state s task]
  unfold behindLast linkReady
  cases s.lastReady <;> rfl

theorem sameCore_behindLast (s : Sched) (task : TaskId) : SameCore s (behindLast s task) := by
  unfold behindLast
  cases s.lastReady <;> constructor <;> rfl

def Sched.released (s : Sched) : Sched :=
  { s with
    postponeTaskSwitchesCounter := s.postponeTaskSwitchesCounter - 1
    taskSwitchesPostponed := false }

theorem releaseLock_eq (s : Sched) : releaseLock s =
    if s.postponeTaskSwitchesCounter - 1 = 0 ∧ s.taskSwitchesPostponed = true then
      finish .unlock (schedule s.released .unlock)
    else
      unlockScheduler
        { s with postponeTaskSwitchesCounter := s.postponeTaskSwitchesCounter - 1 } := rfl

/-- A release that is due comes down to a `Schedule`; any other touches no list. -/
theorem releaseLock_cases (s : Sched) :
    (s.postponeTaskSwitchesCounter - 1 = 0 ∧ s.taskSwitchesPostponed = true ∧
      Aside s s.released.noted ∧
        ∃ r, Scheduled s.released.noted .unlock r ∧ Aside r.2 (releaseLock s)) ∨
      Aside s (releaseLock s) := by
  rw [releaseLock_eq]
  by_cases hdue : s.postponeTaskSwitchesCounter - 1 = 0 ∧ s.taskSwitchesPostponed = true
  · rw [if_pos hdue]
    have hreleased : Aside s s.released := ⟨_, _, _, _, _, _, _, rfl⟩
    exact Or.inl ⟨hdue.1, hdue.2, hreleased.trans (aside_noted _), _, schedule_cases _ .unlock,
      aside_finish _ _⟩
  · rw [if_neg hdue]
    have hlowered : Aside s
        { s with postponeTaskSwitchesCounter := s.postponeTaskSwitchesCounter - 1 } :=
      ⟨_, _, _, _, _, _, _, rfl⟩
    exact Or.inr (hlowered.trans (aside_unlockScheduler _))

theorem multitaskingInit_used {idle : BitVec 32} {b : TaskId}
    (h : (multitaskingInit unscheduled idle).used b = true) : b = 0 ∨ b = 1 := by
  have hall : ∀ b : TaskId,
      Function.update (fun i : TaskId => decide (i = 0)) 1 true b = true → b = 0 ∨ b = 1 := by
    decide
  exact hall b h

theorem createKernelTask_cases (s : Sched) (entrypoint : BitVec 32) :
    createKernelTask s entrypoint = (none, s) ∨
      ∃ t, s.numTasks < 16 ∧ s.used t = false ∧
        createKernelTask s entrypoint = (some t, addTask s t entrypoint) := by
  unfold createKernelTask
  split
  · exact Or.inl rfl
  · rename_i hroom
    split
    · rename_i t hfree
      have hunused : (!s.used t) = true := List.find?_some (p := fun i => !s.used i) hfree
      exact Or.inr ⟨t, by omega, by simpa using hunused, rfl⟩
    · exact Or.inl rfl

def Sched.Booted (s : Sched) : Prop := ∃ idle, s = multitaskingInit unscheduled idle

theorem Sched.step_eq {c : SchedCall} (h : s.step c = some t) :
    t = s.call c ∧ (∀ task, c = .unblockTask task → s.blocked task = true) ∧
      (c = .releaseLock → 0 < s.postponeTaskSwitchesCounter) := by
  cases c with
  | unblockTask task =>
    simp only [Sched.step] at h
    split at h
    · rename_i hblocked
      refine ⟨(Option.some.inj h).symm, fun task' heq => ?_, by simp⟩
      cases heq
      exact hblocked
    · simp at h
  | releaseLock =>
    simp only [Sched.step] at h
    split at h
    · rename_i hheld
      exact ⟨(Option.some.inj h).symm, by simp, fun _ => hheld⟩
    · simp at h
  | _ => exact ⟨(Option.some.inj h).symm, by simp, by simp⟩

end SplongleOS
