import SplongleOS.ReadyChain
set_option autoImplicit false

/-! `IRQ_disable_counter` across the switches, when every task brackets its calls of
`Schedule` with `lock_scheduler` and `unlock_scheduler` as `Shell_Run` does. A lock is taken
by one task and let go by the one that runs after it. -/

namespace SplongleOS

variable {s t u : Sched} {a task : TaskId} {site : Resume} {r : Bool × Sched} {c : SchedCall}

structure Closed (s : Sched) : Prop where
  current : s.used s.current = true
  first : ∀ z, s.firstReady = some z → s.used z = true
  next : ∀ b z, s.next b = some z → s.used z = true

theorem Closed.aside (h : Closed s) (ha : Aside s t) : Closed t := by
  obtain ⟨_, _, _, _, _, _, _, rfl⟩ := ha
  exact ⟨h.current, h.first, h.next⟩

theorem Closed.addTask (h : Closed s) (e : BitVec 32) : Closed (addTask s task e) := by
  have hkeep : ∀ b, s.used b = true → (SplongleOS.addTask s task e).used b = true := by
    intro b hb
    rw [addTask_used, hb]
    exact ite_self true
  have hself : (SplongleOS.addTask s task e).used task = true := by
    rw [addTask_used, if_pos rfl]
  have hfirst : (SplongleOS.addTask s task e).firstReady =
      if s.lastReady = none then some task else s.firstReady := linkReady_first _ task
  refine ⟨?_, fun z hz => ?_, fun b z hz => ?_⟩
  · rw [addTask_current]
    exact hkeep _ h.current
  · rw [hfirst] at hz
    split at hz
    · exact Option.some.inj hz ▸ hself
    · exact hkeep z (h.first z hz)
  · rw [addTask_next] at hz
    split at hz
    · exact Option.some.inj hz ▸ hself
    · split at hz
      · simp at hz
      · exact hkeep z (h.next b z hz)

theorem Closed.popped (h : Closed s) (hpop : Popped s a u) : Closed u ∧ u.used a = true := by
  cases hpop with
  | head hfirst => exact ⟨⟨h.current, h.next a, h.next⟩, h.first a hfirst⟩
  | behindIdle hfirst hidle hnext =>
    rename_i idle
    refine ⟨⟨h.current, fun z hz => ?_, fun b z hz => ?_⟩, h.next idle a hnext⟩
    · exact h.first z (hfirst.trans hz)
    · have hstep : (s.setNext idle (s.next a)).next b = some z := hz
      rw [setNext_next] at hstep
      split at hstep
      · exact h.next a z hstep
      · exact h.next b z hstep

theorem Closed.dispatch (h : Closed s) (hused : s.used a = true) :
    Closed (dispatch (yielded s site) s.current a) := by
  have hkeep : (yielded s site).used = s.used := (sameCore_yielded s site).used
  refine ⟨?_, fun z hz => ?_, fun b z hz => ?_⟩
  · change (yielded s site).used a = true
    rw [hkeep]
    exact hused
  · have hz' : (yielded s site).firstReady = some z := hz
    change (yielded s site).used z = true
    rw [hkeep]
    by_cases hrunning : s.state s.current = running
    · rw [yielded_of_running hrunning, putBack_first] at hz'
      split at hz'
      · exact Option.some.inj hz' ▸ h.current
      · exact h.first z hz'
    · rw [yielded_of_not_running hrunning] at hz'
      exact h.first z hz'
  · rw [dispatch_next] at hz
    change (yielded s site).used z = true
    rw [hkeep]
    by_cases hrunning : s.state s.current = running
    · rw [yielded_of_running hrunning, putBack_next] at hz
      split at hz
      · simp at hz
      · split at hz
        · exact Option.some.inj hz ▸ h.current
        · exact h.next b z hz
    · rw [yielded_of_not_running hrunning] at hz
      exact h.next b z hz

theorem Closed.scheduled (h : Closed s) (hr : Scheduled s site r) : Closed r.2 := by
  cases hr with
  | postponed => exact h.aside ⟨_, _, _, _, _, _, _, rfl⟩
  | empty => exact h
  | onlyIdle => exact ⟨h.current, by simp, h.next⟩
  | picked _ hpop =>
    obtain ⟨hu, hused⟩ := h.popped hpop
    rw [← (sameCore_popped hpop).current]
    exact hu.dispatch hused

theorem Closed.behindLast (h : Closed s) (hused : s.used task = true) : Closed (behindLast s task) := by
  have hcore := sameCore_behindLast s task
  refine ⟨?_, ?_, fun b z hz => ?_⟩
  · rw [hcore.used, hcore.current]
    exact h.current
  · rw [hcore.used, behindLast_first]
    exact h.first
  · rw [hcore.used]
    rw [behindLast_next] at hz
    split at hz
    · exact Option.some.inj hz ▸ hused
    · exact h.next b z hz

theorem Closed.call (h : Closed s) (hc : ∀ task, c = .unblockTask task → s.used task = true) :
    Closed (s.call c) := by
  cases c with
  | createKernelTask e =>
    rcases createKernelTask_cases s e with heq | ⟨task, _, _, heq⟩
    · simpa only [Sched.call, heq] using h
    · simpa only [Sched.call, heq] using h.addTask e
  | lockScheduler => exact h.aside (aside_lockScheduler s)
  | schedule =>
    have hnoted := h.aside (aside_noted s)
    exact (hnoted.scheduled (schedule_cases s.noted .schedule)).aside (aside_finish _ _)
  | unlockScheduler => exact h.aside (aside_unlockScheduler s)
  | blockTask reason =>
    have hmarked : Closed (s.marked reason) :=
      ⟨h.current, h.first, fun b z hz => h.next b z (by rwa [marked_next] at hz)⟩
    have hnoted := hmarked.aside (aside_noted _)
    exact (hnoted.scheduled (schedule_cases _ .unlock)).aside (aside_finish _ _)
  | unblockTask task =>
    have hcleared : Closed (s.cleared task) := ⟨h.current, h.first, h.next⟩
    have hused := hc task rfl
    cases unblockTask_cases s task with
    | postponed _ _ haside => exact hcleared.aside haside
    | preempts _ _ haside => exact (hcleared.dispatch hused).aside haside
    | queued _ haside => exact (hcleared.behindLast hused).aside haside
  | acquireLock => exact h.aside (aside_acquireLock s)
  | releaseLock =>
    rcases releaseLock_cases s with ⟨_, _, hnoted, r, hr, hafter⟩ | haside
    · exact ((h.aside hnoted).scheduled hr).aside hafter
    · exact h.aside haside

/-- Where a task is in its `lock_scheduler(); Schedule(); unlock_scheduler();`. -/
inductive BracketPhase where
  | outside
  | locked
  | scheduled
  deriving DecidableEq, Repr

structure Bracketed where
  sched : Sched
  phase : TaskId → BracketPhase

/-- `Schedule` and its locks only as a bracket, nothing else inside one, a release for an
acquire, and an unblock for any task there is. -/
def Bracketed.allows (b : Bracketed) : SchedCall → Bool
  | .schedule => decide (b.phase b.sched.current = .locked)
  | .unlockScheduler => decide (b.phase b.sched.current = .scheduled)
  | .unblockTask task => decide (b.phase b.sched.current = .outside) && b.sched.used task
  | .releaseLock =>
    decide (b.phase b.sched.current = .outside ∧ 0 < b.sched.postponeTaskSwitchesCounter)
  | _ => decide (b.phase b.sched.current = .outside)

def SchedCall.phase : SchedCall → BracketPhase
  | .lockScheduler => .locked
  | .schedule => .scheduled
  | _ => .outside

def Bracketed.step (b : Bracketed) (c : SchedCall) : Option Bracketed :=
  if b.allows c = true then
    some ⟨b.sched.call c, Function.update b.phase b.sched.current c.phase⟩
  else none

def Bracketed.Outside (b : Bracketed) : Prop :=
  b.phase b.sched.current = .outside ∧ b.sched.postponeTaskSwitchesCounter = 0

/-- `IRQ_disable_counter` counts the locks held, the bracket of the current task, and one
for every task entered so far, which never made up for the lock it was entered under. -/
structure Balanced (s : Sched) (phase : TaskId → BracketPhase) : Prop where
  count : s.irqDisableCounter = s.started + s.postponeTaskSwitchesCounter +
    (if phase s.current = .outside then 0 else 1)
  interrupts : s.interrupts = decide (s.irqDisableCounter = 0)
  away : ∀ b, b ≠ s.current → phase b ≠ .locked ∧ (phase b = .scheduled ↔ s.resume b = .schedule)
  unused : ∀ b, s.used b = false → phase b = .outside

/-- In the middle of a call that has taken the lock, and will go on at `site`. -/
structure Owing (s : Sched) (phase : TaskId → BracketPhase) (site : Resume) : Prop where
  count : s.irqDisableCounter = s.started + s.postponeTaskSwitchesCounter + 1
  interrupts : s.interrupts = false
  away : ∀ b, b ≠ s.current → phase b ≠ .locked ∧ (phase b = .scheduled ↔ s.resume b = .schedule)
  unused : ∀ b, s.used b = false → phase b = .outside
  here : phase s.current ≠ .locked ∧ (phase s.current = .scheduled ↔ site = .schedule)
  site : site ≠ .entry

inductive Moved (s : Sched) (site : Resume) : Bool × Sched → Prop where
  | stays {t : Sched} : t.irqDisableCounter = s.irqDisableCounter → t.interrupts = s.interrupts →
      t.started = s.started → t.postponeTaskSwitchesCounter = s.postponeTaskSwitchesCounter →
      t.resume = s.resume → t.current = s.current → t.used = s.used → Moved s site (false, t)
  | goes {t : Sched} : t.irqDisableCounter = s.irqDisableCounter → t.interrupts = s.interrupts →
      t.resume = Function.update s.resume s.current site →
      t.started = (if t.resume t.current = .entry then s.started + 1 else s.started) →
      t.postponeTaskSwitchesCounter = s.postponeTaskSwitchesCounter → t.used = s.used →
      Moved s site (true, t)

theorem Owing.unlock {phase : TaskId → BracketPhase} (h : Owing s phase .unlock) :
    Balanced (unlockScheduler s) phase := by
  have hout : phase s.current = .outside := by
    cases hp : phase s.current with
    | outside => rfl
    | locked => exact absurd hp h.here.1
    | scheduled => exact absurd (h.here.2.mp hp) (by decide)
  refine ⟨?_, ?_, h.away, h.unused⟩
  · show s.irqDisableCounter - 1 = s.started + s.postponeTaskSwitchesCounter +
      (if phase s.current = .outside then 0 else 1)
    rw [if_pos hout, h.count]
    omega
  · show (if s.irqDisableCounter - 1 = 0 then true else s.interrupts) = _
    rw [h.interrupts]
    rfl

theorem Owing.keep {phase : TaskId → BracketPhase} (h : Owing s phase .schedule) : Balanced s phase := by
  have hin : phase s.current = .scheduled := h.here.2.mpr rfl
  refine ⟨?_, ?_, h.away, h.unused⟩
  · rw [h.count, hin]
    rfl
  · rw [h.interrupts, h.count]
    simp
    omega

theorem Owing.rest {phase : TaskId → BracketPhase} (h : Owing s phase site) :
    Balanced (if site = .unlock then unlockScheduler s else s) phase := by
  cases site with
  | entry => exact absurd rfl h.site
  | schedule =>
    rw [if_neg (by decide)]
    exact h.keep
  | unlock =>
    rw [if_pos rfl]
    exact h.unlock

theorem Owing.everywhere {phase : TaskId → BracketPhase} (h : Owing s phase site)
    (hresume : t.resume = Function.update s.resume s.current site) (b : TaskId) :
    phase b ≠ .locked ∧ (phase b = .scheduled ↔ t.resume b = .schedule) := by
  rw [hresume]
  by_cases hb : b = s.current
  · rw [hb, Function.update_self]
    exact h.here
  · rw [Function.update_of_ne hb]
    exact h.away b hb

/-- A task that is entered at its entrypoint takes the lock for good. -/
theorem Owing.entered {phase : TaskId → BracketPhase} (h : Owing s phase site)
    (hm : Moved s site (true, t)) (hentry : t.resume t.current = .entry) : Balanced t phase := by
  cases hm with
  | goes hirq hint hresume hstarted hcounter hused =>
    have hall := h.everywhere hresume
    have hout : phase t.current = .outside := by
      cases hp : phase t.current with
      | outside => rfl
      | locked => exact absurd hp (hall t.current).1
      | scheduled => exact absurd (hentry.symm.trans ((hall t.current).2.mp hp)) (by decide)
    have hplus : t.started = s.started + 1 := by rw [hstarted, if_pos hentry]
    refine ⟨?_, ?_, fun b _ => hall b, ?_⟩
    · rw [if_pos hout, hirq, hplus, hcounter, h.count]
      push_cast
      omega
    · rw [hint, h.interrupts, hirq, h.count]
      simp
      omega
    · rw [hused]
      exact h.unused

theorem Owing.goes {phase : TaskId → BracketPhase} (h : Owing s phase site)
    (hm : Moved s site (true, t)) (hentry : t.resume t.current ≠ .entry) :
    Owing t phase (t.resume t.current) := by
  cases hm with
  | goes hirq hint hresume hstarted hcounter hused =>
    have hall := h.everywhere hresume
    refine ⟨?_, hint.trans h.interrupts, fun b _ => hall b, ?_, hall t.current, hentry⟩
    · rw [hirq, hstarted, if_neg hentry, hcounter, h.count]
    · rw [hused]
      exact h.unused

theorem Owing.stays {phase : TaskId → BracketPhase} (h : Owing s phase site)
    (hm : Moved s site (false, t)) : Owing t phase site := by
  cases hm with
  | stays hirq hint hstarted hcounter hresume hcurrent hused =>
    refine ⟨?_, hint.trans h.interrupts, ?_, ?_, ?_, h.site⟩
    · rw [hirq, hstarted, hcounter, h.count]
    · rw [hcurrent, hresume]
      exact h.away
    · rw [hused]
      exact h.unused
    · rw [hcurrent]
      exact h.here

theorem Owing.finish {phase : TaskId → BracketPhase} (h : Owing s phase site) (hm : Moved s site r) :
    Balanced (finish site r) phase := by
  obtain ⟨switched, t⟩ := r
  cases switched with
  | false =>
    rw [finish_stayed]
    exact (h.stays hm).rest
  | true =>
    rw [finish_switched]
    by_cases hentry : t.resume t.current = .entry
    · rw [if_neg (by simp [hentry])]
      exact h.entered hm hentry
    · exact (h.goes hm hentry).rest

theorem dispatch_moved (hcore : SameCore s u) :
    Moved s site (true, dispatch (yielded u site) s.current a) := by
  have hy := sameCore_yielded u site
  have hresume : (yielded u site).resume = Function.update s.resume s.current site := by
    refine hy.resume.trans ?_
    rw [hcore.resume, hcore.current]
  refine .goes (hy.irq.trans hcore.irq) (hy.interrupts.trans hcore.interrupts) hresume ?_
    (hy.counter.trans hcore.counter) (hy.used.trans hcore.used)
  show (if (yielded u site).resume a = .entry then (yielded u site).started + 1
    else (yielded u site).started) = _
  rw [hy.started, hcore.started]
  rfl

theorem scheduled_moved (hr : Scheduled s site r) : Moved s site r := by
  cases hr with
  | postponed => exact .stays rfl rfl rfl rfl rfl rfl rfl
  | empty => exact .stays rfl rfl rfl rfl rfl rfl rfl
  | onlyIdle => exact .stays rfl rfl rfl rfl rfl rfl rfl
  | picked _ hpop => exact dispatch_moved (sameCore_popped hpop)

theorem switchToTask_moved (s : Sched) (site : Resume) (next : TaskId) :
    Moved s site (switchToTask s site next) := by
  by_cases hlock : 0 < s.postponeTaskSwitchesCounter
  · rw [switchToTask_postponed hlock]
    exact .stays rfl rfl rfl rfl rfl rfl rfl
  · rw [switchToTask_eq (by omega)]
    exact dispatch_moved ⟨rfl, rfl, rfl, rfl, rfl, rfl, rfl, rfl, rfl, rfl, rfl⟩

variable {b b' : Bracketed}

theorem Balanced.owing {phase : TaskId → BracketPhase} (h : Balanced s phase)
    (hout : phase s.current = .outside)
    (hirq : t.irqDisableCounter = s.irqDisableCounter + 1) (hint : t.interrupts = false)
    (hstarted : t.started = s.started)
    (hcounter : t.postponeTaskSwitchesCounter = s.postponeTaskSwitchesCounter)
    (hcurrent : t.current = s.current) (hresume : t.resume = s.resume) (hused : t.used = s.used) :
    Owing t phase .unlock := by
  refine ⟨?_, hint, ?_, ?_, ?_, by decide⟩
  · rw [hirq, hstarted, hcounter, h.count, if_pos hout]
    omega
  · rw [hcurrent, hresume]
    exact h.away
  · rw [hused]
    exact h.unused
  · rw [hcurrent, hout]
    decide

theorem Balanced.bracket {phase : TaskId → BracketPhase} {p : BracketPhase} (h : Balanced s phase)
    (hin : phase s.current ≠ .outside) (hused : s.used s.current = true)
    (hp : p ≠ .locked ∧ (p = .scheduled ↔ site = .schedule)) (hsite : site ≠ .entry) :
    Owing s (Function.update phase s.current p) site := by
  have hcount := h.count
  rw [if_neg hin] at hcount
  refine ⟨hcount, ?_, fun b hb => ?_, fun b hb => ?_, ?_, hsite⟩
  · rw [h.interrupts, decide_eq_false_iff_not]
    omega
  · rw [Function.update_of_ne hb]
    exact h.away b hb
  · have hb' : b ≠ s.current := fun heq => by simp [heq, hused] at hb
    rw [Function.update_of_ne hb']
    exact h.unused b hb
  · rw [Function.update_self]
    exact hp

theorem Balanced.lock {phase : TaskId → BracketPhase} (h : Balanced s phase)
    (hout : phase s.current = .outside) (hused : s.used s.current = true) :
    Balanced (lockScheduler s) (Function.update phase s.current .locked) := by
  have hcount := h.count
  rw [if_pos hout] at hcount
  refine ⟨?_, ?_, fun b hb => ?_, fun b hb => ?_⟩
  · show s.irqDisableCounter + 1 = s.started + s.postponeTaskSwitchesCounter +
      (if Function.update phase s.current .locked s.current = .outside then 0 else 1)
    rw [Function.update_self, if_neg (by decide), hcount]
    omega
  · show false = decide (s.irqDisableCounter + 1 = 0)
    rw [eq_comm, decide_eq_false_iff_not]
    omega
  · have hb' : b ≠ s.current := hb
    rw [Function.update_of_ne hb']
    exact h.away b hb'
  · have hfree : s.used b = false := hb
    have hb' : b ≠ s.current := fun heq => by simp [heq, hused] at hfree
    rw [Function.update_of_ne hb']
    exact h.unused b hb

theorem Balanced.acquire {phase : TaskId → BracketPhase} (h : Balanced s phase)
    (hout : phase s.current = .outside) : Balanced (acquireLock s) phase := by
  have hcount := h.count
  rw [if_pos hout] at hcount
  refine ⟨?_, ?_, h.away, h.unused⟩
  · show s.irqDisableCounter + 1 = s.started + ((s.postponeTaskSwitchesCounter + 1 : Nat) : Int) +
      (if phase s.current = .outside then 0 else 1)
    rw [if_pos hout, hcount]
    push_cast
    omega
  · show false = decide (s.irqDisableCounter + 1 = 0)
    rw [eq_comm, decide_eq_false_iff_not]
    omega

theorem Balanced.addTask {phase : TaskId → BracketPhase} (h : Balanced s phase)
    (hfree : s.used task = false) (e : BitVec 32) : Balanced (addTask s task e) phase := by
  have hcore := sameCore_linkReady
    { s with
      used := Function.update s.used task true
      tasks := Function.update s.tasks task ⟨none, readyToRun, s.nextTaskId, e⟩
      nextTaskId := s.nextTaskId + 1#32
      resume := Function.update s.resume task .entry
      numTasks := s.numTasks + 1 } task
  have hresume : (SplongleOS.addTask s task e).resume = Function.update s.resume task .entry :=
    hcore.resume
  refine ⟨?_, ?_, fun b hb => ?_, fun b hb => ?_⟩
  · rw [addTask_current, SplongleOS.addTask, hcore.irq, hcore.started, hcore.counter]
    exact h.count
  · rw [SplongleOS.addTask, hcore.interrupts, hcore.irq]
    exact h.interrupts
  · rw [addTask_current] at hb
    rw [hresume]
    by_cases hbt : b = task
    · rw [hbt, Function.update_self, h.unused task hfree]
      decide
    · rw [Function.update_of_ne hbt]
      exact h.away b hb
  · rw [addTask_used] at hb
    split at hb
    · simp at hb
    · exact h.unused b hb

theorem Balanced.release {phase : TaskId → BracketPhase} (h : Balanced s phase)
    (hout : phase s.current = .outside) (hheld : 0 < s.postponeTaskSwitchesCounter) :
    Balanced (releaseLock s) phase := by
  have hcount := h.count
  rw [if_pos hout] at hcount
  have howing : ∀ flag log, Owing { s with
      postponeTaskSwitchesCounter := s.postponeTaskSwitchesCounter - 1
      taskSwitchesPostponed := flag
      log := log } phase .unlock := by
    intro flag log
    refine ⟨?_, ?_, h.away, h.unused, ?_, by decide⟩
    · show s.irqDisableCounter = s.started + ((s.postponeTaskSwitchesCounter - 1 : Nat) : Int) + 1
      omega
    · show s.interrupts = false
      rw [h.interrupts, decide_eq_false_iff_not]
      omega
    · show phase s.current ≠ .locked ∧ _
      rw [hout]
      decide
  rw [releaseLock_eq]
  split
  · exact (howing false _).finish (scheduled_moved (schedule_cases s.released.noted .unlock))
  · exact (howing s.taskSwitchesPostponed s.log).unlock

theorem Bracketed.step_eq (h : b.step c = some b') : b.allows c = true ∧
    b' = ⟨b.sched.call c, Function.update b.phase b.sched.current c.phase⟩ := by
  unfold Bracketed.step at h
  split at h
  · rename_i hallowed
    exact ⟨hallowed, (Option.some.inj h).symm⟩
  · simp at h

theorem Balanced.call (h : Balanced b.sched b.phase) (hclosed : Closed b.sched)
    (hallowed : b.allows c = true) :
    Balanced (b.sched.call c) (Function.update b.phase b.sched.current c.phase) := by
  have hsame : ∀ {t}, b.phase b.sched.current = .outside → Balanced t b.phase →
      Balanced t (Function.update b.phase b.sched.current .outside) := by
    intro t hout ht
    rwa [← hout, Function.update_eq_self]
  cases c with
  | lockScheduler =>
    have hout : b.phase b.sched.current = .outside := by simpa [Bracketed.allows] using hallowed
    exact h.lock hout hclosed.current
  | schedule =>
    have hin : b.phase b.sched.current = .locked := by simpa [Bracketed.allows] using hallowed
    have howing : Owing b.sched (Function.update b.phase b.sched.current .scheduled) .schedule :=
      h.bracket (by simp [hin]) hclosed.current (by decide) (by decide)
    have hnoted : Owing b.sched.noted (Function.update b.phase b.sched.current .scheduled) .schedule :=
      ⟨howing.count, howing.interrupts, howing.away, howing.unused, howing.here, howing.site⟩
    exact hnoted.finish (scheduled_moved (schedule_cases b.sched.noted .schedule))
  | unlockScheduler =>
    have hin : b.phase b.sched.current = .scheduled := by simpa [Bracketed.allows] using hallowed
    have howing : Owing b.sched (Function.update b.phase b.sched.current .outside) .unlock :=
      h.bracket (by simp [hin]) hclosed.current (by decide) (by decide)
    exact howing.unlock
  | createKernelTask e =>
    have hout : b.phase b.sched.current = .outside := by simpa [Bracketed.allows] using hallowed
    refine hsame hout ?_
    rcases createKernelTask_cases b.sched e with heq | ⟨task, _, hfree, heq⟩
    · simpa only [Sched.call, heq] using h
    · simpa only [Sched.call, heq] using h.addTask hfree e
  | blockTask reason =>
    have hout : b.phase b.sched.current = .outside := by simpa [Bracketed.allows] using hallowed
    refine hsame hout ?_
    have howing : Owing (b.sched.marked reason).noted b.phase .unlock :=
      h.owing hout rfl rfl rfl rfl rfl rfl rfl
    exact howing.finish (scheduled_moved (schedule_cases _ .unlock))
  | unblockTask task =>
    have hout : b.phase b.sched.current = .outside := by
      simp only [Bracketed.allows, Bool.and_eq_true, decide_eq_true_eq] at hallowed
      exact hallowed.1
    refine hsame hout ?_
    rw [Sched.call, unblockTask_eq]
    split
    · have howing : Owing (b.sched.cleared task) b.phase .unlock :=
        h.owing hout rfl rfl rfl rfl rfl rfl rfl
      exact howing.finish (switchToTask_moved _ .unlock task)
    · have hcore := sameCore_behindLast (b.sched.cleared task) task
      have howing : Owing (behindLast (b.sched.cleared task) task) b.phase .unlock :=
        h.owing hout hcore.irq hcore.interrupts hcore.started hcore.counter hcore.current
          hcore.resume hcore.used
      exact howing.unlock
  | acquireLock =>
    have hout : b.phase b.sched.current = .outside := by simpa [Bracketed.allows] using hallowed
    exact hsame hout (h.acquire hout)
  | releaseLock =>
    obtain ⟨hout, hheld⟩ : b.phase b.sched.current = .outside ∧
        0 < b.sched.postponeTaskSwitchesCounter := by simpa [Bracketed.allows] using hallowed
    exact hsame hout (h.release hout hheld)

theorem Closed.bracketed (hclosed : Closed b.sched) (h : Balanced b.sched b.phase)
    (hs : b.step c = some b') : Balanced b'.sched b'.phase ∧ Closed b'.sched := by
  obtain ⟨hallowed, rfl⟩ := Bracketed.step_eq hs
  refine ⟨h.call hclosed hallowed, hclosed.call fun task hc => ?_⟩
  subst hc
  simp only [Bracketed.allows, Bool.and_eq_true] at hallowed
  exact hallowed.2

def Bracketed.Booted (b : Bracketed) : Prop := b.sched.Booted ∧ ∀ task, b.phase task = .outside

theorem multitaskingInit_next (idle : BitVec 32) (b : TaskId) :
    (multitaskingInit unscheduled idle).next b = none := by
  show (Function.update (Function.update unscheduled.tasks 0 ⟨none, running, 0#32, 0#32⟩) 1
    ⟨none, readyToRun, 0#32 + 1#32, idle⟩ b).next = none
  by_cases h1 : b = 1
  · subst h1
    simp
  · by_cases h0 : b = 0
    · subst h0
      simp
    · simp [h1, h0, unscheduled]

theorem balanced_of_booted (h : b.Booted) : Balanced b.sched b.phase ∧ Closed b.sched := by
  obtain ⟨⟨idle, hb⟩, hphase⟩ := h
  have hresume : ∀ task, (multitaskingInit unscheduled idle).resume task = .entry := by
    intro task
    show Function.update (fun _ => Resume.entry) 1 Resume.entry task = Resume.entry
    simp
  rw [hb]
  refine ⟨⟨?_, rfl, fun task _ => ?_, fun task _ => hphase task⟩, rfl, fun z hz => ?_, fun a z hz => ?_⟩
  · rw [hphase]
    rfl
  · rw [hphase task, hresume task]
    decide
  · have hone : some 1 = some z := hz
    rw [← Option.some.inj hone]
    rfl
  · simp [multitaskingInit_next] at hz

theorem balanced_of_reach
    (hrun : Runs.Reach Bracketed.step (fun _ _ => True) Bracketed.Booted b) :
    Balanced b.sched b.phase := by
  have hinv : Balanced b.sched b.phase ∧ Closed b.sched := by
    refine Runs.Reach.invariant (I := fun b => Balanced b.sched b.phase ∧ Closed b.sched) ?_ ?_ hrun
    · exact fun b h => balanced_of_booted h
    · exact fun b c b' h _ hs => h.2.bracketed h.1 hs
  exact hinv.1

/-- The task that `Schedule` switches to. -/
def Sched.selected (s : Sched) : Option TaskId :=
  if 0 < s.postponeTaskSwitchesCounter then none
  else
    match s.firstReady with
    | some task =>
      if some task = s.idleTask then
        match s.next task with
        | some other => some other
        | none => if s.state s.current = running then none else some task
      else some task
    | none => none

def Sched.NotRun (s : Sched) (task : TaskId) : Prop := task ≠ s.current ∧ s.resume task = .entry

/-- The call switches to a task that has not run yet. -/
def Sched.FirstRun (s : Sched) : SchedCall → Prop
  | .schedule => ∃ task, s.selected = some task ∧ s.NotRun task
  | .blockTask reason => ∃ task, (s.marked reason).selected = some task ∧ s.NotRun task
  | .unblockTask task => s.Preempts ∧ s.postponeTaskSwitchesCounter = 0 ∧ s.NotRun task
  | .releaseLock => s.postponeTaskSwitchesCounter = 1 ∧ s.taskSwitchesPostponed = true ∧
      ∃ task, s.released.selected = some task ∧ s.NotRun task
  | _ => False

theorem selected_of_popped (hzero : s.postponeTaskSwitchesCounter = 0) (h : Popped s a u) :
    s.selected = some a := by
  unfold Sched.selected
  rw [if_neg (by omega)]
  cases h with
  | head hfirst hidle =>
    by_cases heq : some a = s.idleTask
    · obtain ⟨hnext, hstate⟩ := hidle heq
      simp only [hfirst, if_pos heq, hnext, if_neg hstate]
    · simp only [hfirst, if_neg heq]
  | behindIdle hfirst hidle hnext => simp only [hfirst, if_pos hidle, hnext]

theorem dispatch_started (hcore : SameCore s u) (hsite : site ≠ .entry) (hrun : ¬s.NotRun a) :
    (dispatch (yielded u site) s.current a).started = s.started := by
  have hy := sameCore_yielded u site
  have hresume : (yielded u site).resume = Function.update s.resume s.current site := by
    refine hy.resume.trans ?_
    rw [hcore.resume, hcore.current]
  show (if (yielded u site).resume a = .entry then (yielded u site).started + 1
    else (yielded u site).started) = s.started
  have hne : (yielded u site).resume a ≠ .entry := by
    rw [hresume]
    by_cases ha : a = s.current
    · rw [ha, Function.update_self]
      exact hsite
    · rw [Function.update_of_ne ha]
      exact fun heq => hrun ⟨ha, heq⟩
  rw [if_neg hne, hy.started]
  exact hcore.started

theorem scheduled_started (hr : Scheduled s site r) (hsite : site ≠ .entry)
    (hrun : ∀ task, s.selected = some task → ¬s.NotRun task) : r.2.started = s.started := by
  cases hr with
  | postponed => rfl
  | empty => rfl
  | onlyIdle => rfl
  | picked hzero hpop =>
    exact dispatch_started (sameCore_popped hpop) hsite (hrun _ (selected_of_popped hzero hpop))

theorem schedule_started (hsite : site ≠ .entry)
    (hrun : ∀ task, s.selected = some task → ¬s.NotRun task) :
    (schedule s site).2.started = s.started :=
  (scheduled_started (schedule_cases s.noted site) hsite hrun : (scheduleBody s.noted site).2.started =
    s.noted.started)

theorem finish_started (site : Resume) (r : Bool × Sched) : (finish site r).started = r.2.started := by
  obtain ⟨n, i, heq⟩ := finish_eq site r
  rw [heq]

theorem started_call (hm : c = .releaseLock → 0 < s.postponeTaskSwitchesCounter)
    (hrun : ¬s.FirstRun c) : (s.call c).started = s.started := by
  cases c with
  | createKernelTask e =>
    rcases createKernelTask_cases s e with heq | ⟨task, _, _, heq⟩
    · simp only [Sched.call, heq]
    · simp only [Sched.call, heq]
      exact (sameCore_linkReady _ task).started
  | schedule =>
    refine (finish_started .schedule _).trans ?_
    exact schedule_started (by decide) fun task hsel hnot => hrun ⟨task, hsel, hnot⟩
  | blockTask reason =>
    refine (finish_started .unlock _).trans ?_
    exact schedule_started (s := s.marked reason) (by decide) fun task hsel hnot => hrun ⟨task, hsel, hnot⟩
  | unblockTask task =>
    rw [Sched.call, unblockTask_eq]
    split
    · rename_i hpre
      refine (finish_started .unlock _).trans ?_
      by_cases hlock : 0 < s.postponeTaskSwitchesCounter
      · rw [switchToTask_postponed (s := s.cleared task) hlock]
        rfl
      · have hzero : s.postponeTaskSwitchesCounter = 0 := by omega
        rw [switchToTask_eq (s := s.cleared task) hzero]
        exact dispatch_started (s := s.cleared task)
          ⟨rfl, rfl, rfl, rfl, rfl, rfl, rfl, rfl, rfl, rfl, rfl⟩ (by decide)
          fun hnot => hrun ⟨hpre, hzero, hnot⟩
    · exact (sameCore_behindLast (s.cleared task) task).started
  | releaseLock =>
    rw [Sched.call, releaseLock_eq]
    split
    · rename_i hdue
      have hone : s.postponeTaskSwitchesCounter = 1 := by
        have := hm rfl
        omega
      refine (finish_started .unlock _).trans ?_
      exact schedule_started (s := s.released) (by decide) fun task hsel hnot => hrun ⟨hone, hdue.2, task, hsel, hnot⟩
    · rfl
  | _ => rfl

theorem started_of_reach
    (hrun : Runs.Reach Bracketed.step (fun b c => ¬b.sched.FirstRun c) Bracketed.Booted b) :
    b.sched.started = 0 := by
  refine Runs.Reach.invariant (I := fun b => b.sched.started = 0) ?_ ?_ hrun
  · rintro b ⟨⟨idle, hb⟩, _⟩
    rw [hb]
    rfl
  · intro b c b' hzero hok hs
    obtain ⟨hallowed, rfl⟩ := Bracketed.step_eq hs
    refine (started_call (fun hc => ?_) hok).trans hzero
    subst hc
    simp only [Bracketed.allows, decide_eq_true_eq] at hallowed
    exact hallowed.2

/-- Outside the brackets the counter is the number of tasks entered so far, and it is 0 as
long as no step has switched to a task that has not run yet. -/
theorem lock_handover
    (hrun : Runs.Reach Bracketed.step (fun _ _ => True) Bracketed.Booted b) (hout : b.Outside) :
    (Runs.Reach Bracketed.step (fun b c => ¬b.sched.FirstRun c) Bracketed.Booted b →
      b.sched.irqDisableCounter = 0 ∧ b.sched.interrupts = true) ∧
    b.sched.irqDisableCounter = b.sched.started ∧
    b.sched.interrupts = decide (b.sched.started = 0) := by
  have hbalanced := balanced_of_reach hrun
  have hcount : b.sched.irqDisableCounter = b.sched.started := by
    rw [hbalanced.count, hout.2, if_pos hout.1]
    simp
  have hon : b.sched.interrupts = decide (b.sched.started = 0) := by
    rw [hbalanced.interrupts, hcount]
    simp
  refine ⟨fun hok => ?_, hcount, hon⟩
  rw [hcount, hon, started_of_reach hok]
  exact ⟨rfl, rfl⟩

theorem lock_handover_small : ∃ b, Runs.run Bracketed.step
    ⟨multitaskingInit unscheduled 0x1000#32, fun _ => .outside⟩
      [.lockScheduler, .schedule, .unlockScheduler] = some b ∧
    (b.sched.irqDisableCounter = 0 ∧ b.sched.interrupts = true) ∧
    b.sched.irqDisableCounter = b.sched.started ∧
    b.sched.interrupts = decide (b.sched.started = 0) := by
  have h0 : Runs.Reach Bracketed.step (fun b c => ¬b.sched.FirstRun c) Bracketed.Booted
      ⟨multitaskingInit unscheduled 0x1000#32, fun _ => .outside⟩ := .start ⟨⟨_, rfl⟩, fun _ => rfl⟩
  have h1 := h0.next SchedCall.lockScheduler not_false rfl
  have h2 := h1.next SchedCall.schedule
    (fun ⟨task, hsel, _⟩ => Option.some_ne_none task (hsel.symm.trans (by decide))) rfl
  have h3 := h2.next SchedCall.unlockScheduler not_false rfl
  obtain ⟨hzero, hexact⟩ := lock_handover (h3.weaken fun _ _ _ => trivial) ⟨by decide, by decide⟩
  exact ⟨_, rfl, hzero h3, hexact⟩

/-- The first task that is switched to starts under the lock of the task that left. -/
theorem lock_not_handed_over :
    ¬∀ b, Runs.Reach Bracketed.step (fun _ _ => True) Bracketed.Booted b → b.Outside →
      b.sched.irqDisableCounter = 0 ∧ b.sched.interrupts = true := by
  intro hall
  have h0 : Runs.Reach Bracketed.step (fun _ _ => True) Bracketed.Booted
      ⟨multitaskingInit unscheduled 0x1000#32, fun _ => .outside⟩ := .start ⟨⟨_, rfl⟩, fun _ => rfl⟩
  have h1 := h0.next (SchedCall.createKernelTask 0x2000#32) trivial rfl
  have h2 := h1.next SchedCall.lockScheduler trivial rfl
  have h3 := h2.next SchedCall.schedule trivial rfl
  exact absurd (hall _ h3 ⟨by decide, by decide⟩).1 (by decide)

end SplongleOS
