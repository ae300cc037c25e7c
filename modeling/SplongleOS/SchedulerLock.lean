import SplongleOS.SchedSteps
set_option autoImplicit false

/-! The nested locks: no switch while one is held, and one `Schedule` when the last is
released if a switch was asked for. -/

namespace SplongleOS

variable {s : Sched} {site : Resume} {r : Bool × Sched} {c : SchedCall}

def Sched.requests (s : Sched) : SchedCall → Bool
  | .schedule | .blockTask _ => true
  | .unblockTask _ => decide s.Preempts
  | _ => false

/-- `requested` is a ghost: a switch has been asked for since the counter was last zero. -/
structure Locking where
  sched : Sched
  requested : Bool

def Sched.matched (s : Sched) : SchedCall → Bool
  | .releaseLock => decide (0 < s.postponeTaskSwitchesCounter)
  | _ => true

def Locking.step (l : Locking) (c : SchedCall) : Option Locking :=
  if l.sched.matched c = true then
    some
      { sched := l.sched.call c
        requested :=
          if (l.sched.call c).postponeTaskSwitchesCounter = 0 then false
          else l.requested || (decide (0 < l.sched.postponeTaskSwitchesCounter) && l.sched.requests c) }
  else none

def SchedEvent.scheduleCounter : SchedEvent → Option Nat
  | .schedule counter => some counter
  | .switch _ _ _ => none

def Sched.scheduleCalls (s : Sched) : List Nat := s.log.filterMap SchedEvent.scheduleCounter

/-- The counter stays, a held lock turns the switch into a request, and otherwise at most
one switch is recorded. -/
structure LockEffect (s : Sched) (requests : Bool) (t : Sched) : Prop where
  counter : t.postponeTaskSwitchesCounter = s.postponeTaskSwitchesCounter
  postponed : t.taskSwitchesPostponed =
    (s.taskSwitchesPostponed || (decide (0 < s.postponeTaskSwitchesCounter) && requests))
  switch : (t.current = s.current ∧ t.log = s.log) ∨
    (s.postponeTaskSwitchesCounter = 0 ∧ t.log = .switch s.current t.current 0 :: s.log)

theorem LockEffect.finish (h : LockEffect s true r.2) (site : Resume) :
    LockEffect s true (finish site r) := by
  obtain ⟨n, b, heq⟩ := finish_eq site r
  rw [heq]
  exact ⟨h.counter, h.postponed, h.switch⟩

theorem dispatch_effect {u : Sched} {a : TaskId} (hzero : s.postponeTaskSwitchesCounter = 0)
    (hcore : SameCore s u) :
    LockEffect s true (dispatch (yielded u site) s.current a) := by
  have hy := sameCore_yielded u site
  have hlog : (yielded u site).log = s.log := hy.log.trans hcore.log
  have hcounter : (yielded u site).postponeTaskSwitchesCounter = s.postponeTaskSwitchesCounter :=
    hy.counter.trans hcore.counter
  refine ⟨hcounter, ?_, Or.inr ⟨hzero, ?_⟩⟩
  · have hflag : (yielded u site).taskSwitchesPostponed = s.taskSwitchesPostponed :=
      hy.postponed.trans hcore.postponed
    refine hflag.trans ?_
    simp [hzero]
  · show SchedEvent.switch s.current a (yielded u site).postponeTaskSwitchesCounter ::
      (yielded u site).log = _
    rw [hlog, hcounter, hzero]
    rfl

theorem scheduled_effect (hr : Scheduled s site r) : LockEffect s true r.2 := by
  cases hr with
  | postponed hlock => exact ⟨rfl, by simp [hlock], Or.inl ⟨rfl, rfl⟩⟩
  | empty hzero => exact ⟨rfl, by simp [hzero], Or.inl ⟨rfl, rfl⟩⟩
  | onlyIdle hzero => exact ⟨rfl, by simp [hzero], Or.inl ⟨rfl, rfl⟩⟩
  | picked hzero hpop => exact dispatch_effect hzero (sameCore_popped hpop)

theorem switchToTask_effect (s : Sched) (site : Resume) (next : TaskId) :
    LockEffect s true (switchToTask s site next).2 := by
  by_cases hlock : 0 < s.postponeTaskSwitchesCounter
  · rw [switchToTask_postponed hlock]
    exact ⟨rfl, by simp [hlock], Or.inl ⟨rfl, rfl⟩⟩
  · have hzero : s.postponeTaskSwitchesCounter = 0 := by omega
    rw [switchToTask_eq hzero]
    exact dispatch_effect hzero ⟨rfl, rfl, rfl, rfl, rfl, rfl, rfl, rfl, rfl, rfl, rfl⟩

def Sched.notes (s : Sched) : SchedCall → List SchedEvent
  | .schedule | .blockTask _ => [.schedule s.postponeTaskSwitchesCounter]
  | .releaseLock =>
    if s.postponeTaskSwitchesCounter - 1 = 0 ∧ s.taskSwitchesPostponed = true then [.schedule 0] else []
  | _ => []

def Sched.counterAfter (s : Sched) : SchedCall → Nat
  | .acquireLock => s.postponeTaskSwitchesCounter + 1
  | .releaseLock => s.postponeTaskSwitchesCounter - 1
  | _ => s.postponeTaskSwitchesCounter

def Sched.postponedAfter (s : Sched) : SchedCall → Bool
  | .releaseLock => s.taskSwitchesPostponed && decide (s.postponeTaskSwitchesCounter - 1 ≠ 0)
  | c => s.taskSwitchesPostponed || (decide (0 < s.postponeTaskSwitchesCounter) && s.requests c)

/-- What one call does to the lock, the current task and the record. -/
structure CallEffect (s : Sched) (c : SchedCall) (t : Sched) : Prop where
  counter : t.postponeTaskSwitchesCounter = s.counterAfter c
  postponed : t.taskSwitchesPostponed = s.postponedAfter c
  switch : (t.current = s.current ∧ t.log = s.notes c ++ s.log) ∨
    (t.postponeTaskSwitchesCounter = 0 ∧
      t.log = .switch s.current t.current 0 :: (s.notes c ++ s.log))

theorem schedule_effect (s : Sched) (site : Resume) :
    LockEffect s.noted true (finish site (schedule s site)) :=
  (scheduled_effect (schedule_cases s.noted site)).finish site

theorem createKernelTask_core (s : Sched) (e : BitVec 32) :
    (createKernelTask s e).2.postponeTaskSwitchesCounter = s.postponeTaskSwitchesCounter ∧
      (createKernelTask s e).2.taskSwitchesPostponed = s.taskSwitchesPostponed ∧
      (createKernelTask s e).2.current = s.current ∧ (createKernelTask s e).2.log = s.log := by
  rcases createKernelTask_cases s e with heq | ⟨task, _, _, heq⟩
  · rw [heq]
    exact ⟨rfl, rfl, rfl, rfl⟩
  · have hcore := sameCore_linkReady
      { s with
        used := Function.update s.used task true
        tasks := Function.update s.tasks task ⟨none, readyToRun, s.nextTaskId, e⟩
        nextTaskId := s.nextTaskId + 1#32
        resume := Function.update s.resume task .entry
        numTasks := s.numTasks + 1 } task
    rw [heq]
    exact ⟨hcore.counter, hcore.postponed, hcore.current, hcore.log⟩

theorem unblockTask_effect (s : Sched) (task : TaskId) :
    CallEffect s (.unblockTask task) (unblockTask s task) := by
  rw [unblockTask_eq]
  by_cases hpre : s.Preempts
  · have h := (switchToTask_effect (s.cleared task) .unlock task).finish .unlock
    rw [if_pos hpre]
    refine ⟨h.counter, h.postponed.trans ?_, ?_⟩
    · simp only [Sched.postponedAfter, Sched.requests, hpre, decide_true]
      rfl
    · rw [h.counter]
      exact h.switch
  · have hcore := sameCore_behindLast (s.cleared task) task
    rw [if_neg hpre]
    refine ⟨hcore.counter, hcore.postponed.trans ?_, Or.inl ⟨hcore.current, hcore.log⟩⟩
    simp [Sched.postponedAfter, Sched.requests, hpre, Sched.cleared, lockScheduler]

theorem releaseLock_effect (s : Sched) : CallEffect s .releaseLock (releaseLock s) := by
  rw [releaseLock_eq]
  by_cases hdue : s.postponeTaskSwitchesCounter - 1 = 0 ∧ s.taskSwitchesPostponed = true
  · have h := schedule_effect s.released .unlock
    have hlog : s.released.noted.log = s.notes .releaseLock ++ s.log := by
      simp only [Sched.notes, if_pos hdue]
      rw [← hdue.1]
      rfl
    rw [if_pos hdue]
    refine ⟨h.counter, h.postponed.trans ?_, ?_⟩
    · simp [Sched.postponedAfter, hdue.1, Sched.released, Sched.noted]
    · rw [h.counter, ← hlog]
      exact h.switch
  · rw [if_neg hdue]
    refine ⟨rfl, ?_, Or.inl ⟨rfl, ?_⟩⟩
    · show s.taskSwitchesPostponed = s.postponedAfter .releaseLock
      by_cases hlast : s.postponeTaskSwitchesCounter - 1 = 0
      · have hflag : s.taskSwitchesPostponed = false := by
          simpa using fun hflag => hdue ⟨hlast, hflag⟩
        simp [Sched.postponedAfter, hflag]
      · simp [Sched.postponedAfter, hlast]
    · simp only [Sched.notes, if_neg hdue]
      rfl

theorem call_effect (s : Sched) (c : SchedCall) : CallEffect s c (s.call c) := by
  cases c with
  | createKernelTask e =>
    obtain ⟨hcounter, hpostponed, hcurrent, hlog⟩ := createKernelTask_core s e
    refine ⟨hcounter, hpostponed.trans ?_, Or.inl ⟨hcurrent, hlog⟩⟩
    simp [Sched.postponedAfter, Sched.requests]
  | schedule =>
    have h := schedule_effect s .schedule
    refine ⟨h.counter, h.postponed, ?_⟩
    rw [Sched.call, callSchedule, h.counter]
    exact h.switch
  | blockTask reason =>
    have h := schedule_effect (s.marked reason) .unlock
    refine ⟨h.counter, h.postponed, ?_⟩
    rw [Sched.call, blockTask_eq, h.counter]
    exact h.switch
  | unblockTask task => exact unblockTask_effect s task
  | releaseLock => exact releaseLock_effect s
  | lockScheduler =>
    refine ⟨rfl, ?_, Or.inl ⟨rfl, rfl⟩⟩
    simp [Sched.postponedAfter, Sched.requests, Sched.call, lockScheduler]
  | unlockScheduler =>
    refine ⟨rfl, ?_, Or.inl ⟨rfl, rfl⟩⟩
    simp [Sched.postponedAfter, Sched.requests, Sched.call, unlockScheduler]
  | acquireLock =>
    refine ⟨rfl, ?_, Or.inl ⟨rfl, rfl⟩⟩
    simp [Sched.postponedAfter, Sched.requests, Sched.call, acquireLock]

variable {l l' : Locking}

structure Locking.Tracked (l : Locking) : Prop where
  flag : l.requested = l.sched.taskSwitchesPostponed
  free : l.sched.postponeTaskSwitchesCounter = 0 → l.sched.taskSwitchesPostponed = false

theorem Locking.step_eq (h : l.step c = some l') : l.sched.matched c = true ∧
    l'.sched = l.sched.call c ∧ l'.requested =
      if l.sched.counterAfter c = 0 then false
      else l.requested || (decide (0 < l.sched.postponeTaskSwitchesCounter) && l.sched.requests c) := by
  unfold Locking.step at h
  split at h
  · rename_i hm
    cases h
    refine ⟨hm, rfl, ?_⟩
    rw [← (call_effect l.sched c).counter]
  · simp at h

theorem Locking.Tracked.step (h : l.Tracked) (hs : l.step c = some l') : l'.Tracked := by
  obtain ⟨hm, hsched, hreq⟩ := Locking.step_eq hs
  have heffect := call_effect l.sched c
  rw [← hsched] at heffect
  have hzero : l.sched.postponeTaskSwitchesCounter = 0 → l.sched.taskSwitchesPostponed = false := h.free
  refine ⟨?_, ?_⟩
  · rw [hreq, heffect.postponed, h.flag]
    cases c with
    | releaseLock =>
      simp only [Sched.counterAfter, Sched.postponedAfter, Sched.requests]
      by_cases hlast : l.sched.postponeTaskSwitchesCounter - 1 = 0 <;> simp [hlast]
    | acquireLock => simp [Sched.counterAfter, Sched.postponedAfter, Sched.requests]
    | _ =>
      simp only [Sched.counterAfter, Sched.postponedAfter]
      by_cases hfree : l.sched.postponeTaskSwitchesCounter = 0
      · simp [hfree, hzero hfree]
      · simp [hfree]
  · rw [heffect.counter, heffect.postponed]
    intro hafter
    cases c with
    | releaseLock =>
      have hlast : l.sched.postponeTaskSwitchesCounter - 1 = 0 := hafter
      simp [Sched.postponedAfter, hlast]
    | acquireLock => exact absurd hafter (by simp [Sched.counterAfter])
    | _ =>
      have hfree : l.sched.postponeTaskSwitchesCounter = 0 := hafter
      simp [Sched.postponedAfter, hfree, hzero hfree]

/-- What a step of a run does with the locks held. -/
structure LockRespected (l : Locking) (c : SchedCall) (l' : Locking) : Prop where
  held : 0 < l'.sched.postponeTaskSwitchesCounter → l'.sched.current = l.sched.current
  left : 0 < l.sched.postponeTaskSwitchesCounter → l'.sched.current ≠ l.sched.current →
    c = .releaseLock ∧ l.sched.postponeTaskSwitchesCounter = 1
  recorded : l'.sched.current ≠ l.sched.current →
    l'.sched.log.head? = some (.switch l.sched.current l'.sched.current 0)
  unlocked : ∀ prev next counter, SchedEvent.switch prev next counter ∈ l'.sched.log → counter = 0
  /-- The last release after a request runs `Schedule` once, with the counter at zero. -/
  last : c = .releaseLock → l.sched.postponeTaskSwitchesCounter = 1 → l.requested = true →
    l'.sched.taskSwitchesPostponed = false ∧ l'.sched.scheduleCalls = 0 :: l.sched.scheduleCalls
  inner : c = .releaseLock → 1 < l.sched.postponeTaskSwitchesCounter →
    l'.sched.taskSwitchesPostponed = l.sched.taskSwitchesPostponed ∧
      l'.sched.scheduleCalls = l.sched.scheduleCalls

theorem scheduleCalls_call (s : Sched) (c : SchedCall) :
    (s.call c).scheduleCalls =
      (s.notes c).filterMap SchedEvent.scheduleCounter ++ s.scheduleCalls := by
  unfold Sched.scheduleCalls
  rcases (call_effect s c).switch with ⟨_, hlog⟩ | ⟨_, hlog⟩
  · rw [hlog, List.filterMap_append]
  · rw [hlog, List.filterMap_cons, List.filterMap_append]
    rfl

def Sched.SwitchesUnlocked (s : Sched) : Prop :=
  ∀ prev next counter, SchedEvent.switch prev next counter ∈ s.log → counter = 0

theorem notes_no_switch (s : Sched) (c : SchedCall) (prev next : TaskId) (counter : Nat) :
    SchedEvent.switch prev next counter ∉ s.notes c := by
  cases c with
  | releaseLock =>
    unfold Sched.notes
    split <;> simp
  | _ => simp [Sched.notes]

theorem Sched.SwitchesUnlocked.call (h : s.SwitchesUnlocked) (c : SchedCall) :
    (s.call c).SwitchesUnlocked := by
  intro prev next counter hmem
  have hold : SchedEvent.switch prev next counter ∈ s.notes c ++ s.log → counter = 0 := by
    intro hmem
    rcases List.mem_append.mp hmem with hnote | hlog
    · exact absurd hnote (notes_no_switch s c prev next counter)
    · exact h prev next counter hlog
  rcases (call_effect s c).switch with ⟨_, hlog⟩ | ⟨_, hlog⟩
  · exact hold (hlog ▸ hmem)
  · rw [hlog] at hmem
    rcases List.mem_cons.mp hmem with heq | hmem
    · injection heq
    · exact hold hmem

theorem counter_of_switch (h : (s.call c).current ≠ s.current) :
    s.counterAfter c = 0 ∧ (s.call c).log.head? = some (.switch s.current (s.call c).current 0) := by
  have heffect := call_effect s c
  rcases heffect.switch with ⟨hcurrent, _⟩ | ⟨hzero, hlog⟩
  · exact absurd hcurrent h
  · refine ⟨heffect.counter.symm.trans hzero, ?_⟩
    rw [hlog]
    rfl

def Locking.Booted (l : Locking) : Prop := l.requested = false ∧ l.sched.Booted

theorem scheduler_lock (hrun : Runs.Reach Locking.step (fun _ _ => True) Locking.Booted l)
    (hs : l.step c = some l') : LockRespected l c l' := by
  have hinv : l.Tracked ∧ l.sched.SwitchesUnlocked := by
    refine Runs.Reach.invariant (I := fun l => l.Tracked ∧ l.sched.SwitchesUnlocked) ?_ ?_ hrun
    · rintro ⟨s, requested⟩ ⟨rfl, idle, rfl⟩
      exact ⟨⟨rfl, fun _ => rfl⟩, fun _ _ _ hmem => absurd hmem List.not_mem_nil⟩
    · rintro l c l' ⟨htracked, hunlocked⟩ _ hs
      obtain ⟨_, hsched, _⟩ := Locking.step_eq hs
      exact ⟨htracked.step hs, hsched ▸ hunlocked.call c⟩
  obtain ⟨htracked, hunlocked⟩ := hinv
  obtain ⟨_, hsched, _⟩ := Locking.step_eq hs
  have hcounter := (call_effect l.sched c).counter
  have hpostponed := (call_effect l.sched c).postponed
  refine ⟨?_, ?_, ?_, ?_, ?_, ?_⟩
  · rw [hsched, hcounter]
    intro hheld
    by_contra hne
    have hafter := (counter_of_switch hne).1
    omega
  · rw [hsched]
    intro hheld hne
    have hafter := (counter_of_switch hne).1
    cases c with
    | releaseLock =>
      have hlast : l.sched.postponeTaskSwitchesCounter - 1 = 0 := hafter
      exact ⟨rfl, by omega⟩
    | acquireLock => exact absurd hafter (by simp [Sched.counterAfter])
    | _ =>
      have hfree : l.sched.postponeTaskSwitchesCounter = 0 := hafter
      omega
  · rw [hsched]
    exact fun hne => (counter_of_switch hne).2
  · rw [hsched]
    exact hunlocked.call c
  · rintro rfl hone hrequested
    have hflag : l.sched.taskSwitchesPostponed = true := htracked.flag.symm.trans hrequested
    rw [hsched, hpostponed, scheduleCalls_call]
    simp [Sched.postponedAfter, Sched.notes, hone, hflag, SchedEvent.scheduleCounter]
  · rintro rfl hinner
    have hnot : l.sched.postponeTaskSwitchesCounter - 1 ≠ 0 := by omega
    rw [hsched, hpostponed, scheduleCalls_call]
    simp [Sched.postponedAfter, Sched.notes, hnot]

theorem scheduler_lock_small : ∃ l l' : Locking,
    Runs.run Locking.step ⟨multitaskingInit unscheduled 0x1000#32, false⟩
      [.createKernelTask 0x2000#32, .acquireLock, .acquireLock, .schedule, .releaseLock] = some l ∧
    l.requested = true ∧ l.step .releaseLock = some l' ∧ l'.sched.current = 2 ∧
    LockRespected l .releaseLock l' := by
  have h0 : Runs.Reach Locking.step (fun _ _ => True) Locking.Booted
      ⟨multitaskingInit unscheduled 0x1000#32, false⟩ := .start ⟨rfl, _, rfl⟩
  have h1 := h0.next (SchedCall.createKernelTask 0x2000#32) trivial rfl
  have h2 := h1.next SchedCall.acquireLock trivial rfl
  have h3 := h2.next SchedCall.acquireLock trivial rfl
  have h4 := h3.next SchedCall.schedule trivial rfl
  have h5 := h4.next SchedCall.releaseLock trivial rfl
  exact ⟨_, _, rfl, by decide, rfl, by decide, scheduler_lock h5 rfl⟩

end SplongleOS
