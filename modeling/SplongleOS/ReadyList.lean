import SplongleOS.ReadyChain
set_option autoImplicit false

/-! The ready list as a queue: when head, tail and the pointers between them agree. -/

namespace SplongleOS
open Chain

variable {s t u : Sched} {a task : TaskId} {l : List TaskId} {site : Resume} {c : SchedCall}

/-- Head and tail are NULL together, and between them is a chain without the current task. -/
structure ReadyListOk (s : Sched) : Prop where
  null : s.firstReady = none ↔ s.lastReady = none
  chain : ∃ l, Linked s.next s.firstReady l ∧ l.Nodup ∧ s.lastReady = l.getLast? ∧ s.current ∉ l

structure ReadyQueue (s : Sched) (l : List TaskId) : Prop where
  queue : Queue s.next s.firstReady s.lastReady l
  current : s.current ∉ l
  used : ∀ task ∈ l, s.used task = true
  currentUsed : s.used s.current = true
  blockedUsed : ∀ task, s.blocked task = true → s.used task = true

theorem ReadyQueue.ok (h : ReadyQueue s l) : ReadyListOk s :=
  ⟨h.queue.first_none_iff, l, h.queue.linked, h.queue.linked.nodup, h.queue.last, h.current⟩

theorem ReadyQueue.aside (h : ReadyQueue s l) (ha : Aside s t) : ReadyQueue t l := by
  obtain ⟨_, _, _, _, _, _, _, rfl⟩ := ha
  exact ⟨h.queue, h.current, h.used, h.currentUsed, h.blockedUsed⟩

theorem ReadyQueue.addTask (h : ReadyQueue s l) (hfree : s.used task = false) (e : BitVec 32) :
    ReadyQueue (addTask s task e) (l ++ [task]) := by
  have ht : task ∉ l := fun hmem => by simp [h.used task hmem] at hfree
  have hc : s.current ≠ task := fun heq => by simp [← heq, h.currentUsed] at hfree
  have hkeep : ∀ b, s.used b = true → (SplongleOS.addTask s task e).used b = true := by
    intro b hb
    rw [addTask_used, hb]
    exact ite_self true
  refine ⟨addTask_queue h.queue ht e, ?_, ?_, ?_, ?_⟩
  · rw [addTask_current]
    simp [h.current, hc]
  · intro b hb
    rcases List.mem_append.mp hb with hb | hb
    · exact hkeep b (h.used b hb)
    · rw [addTask_used, if_pos (List.mem_singleton.mp hb)]
  · rw [addTask_current]
    exact hkeep _ h.currentUsed
  · rw [addTask_blocked]
    exact fun b hb => hkeep b (h.blockedUsed b hb)

theorem ReadyQueue.popped (h : ReadyQueue s l) (hspare : s.SpareTail) (hpop : Popped s a u) :
    ∃ l', ReadyQueue u l' ∧ a ∉ l' ∧ a ≠ u.current ∧ u.used a = true := by
  obtain ⟨hlinked, hal, hlast⟩ := popped_linked h.queue.linked hpop
  have hperm := List.perm_cons_erase hal
  have hcore := sameCore_popped hpop
  have hsub : ∀ b, b = a ∨ b ∈ l.erase a → b ∈ l := fun b hb => hperm.mem_iff.mpr (List.mem_cons.mpr hb)
  have hnodup := hperm.nodup_iff.mp h.queue.linked.nodup
  refine ⟨l.erase a, ⟨⟨hlinked, hlast (hspare.ne_last hpop) h.queue.last⟩, ?_, ?_, ?_, ?_⟩, ?_, ?_, ?_⟩
  · rw [hcore.current]
    exact fun hmem => h.current (hsub _ (Or.inr hmem))
  · rw [hcore.used]
    exact fun b hb => h.used b (hsub b (Or.inr hb))
  · rw [hcore.used, hcore.current]
    exact h.currentUsed
  · rw [hcore.used, hcore.blocked]
    exact h.blockedUsed
  · exact (List.nodup_cons.mp hnodup).1
  · rw [hcore.current]
    rintro rfl
    exact h.current (hsub _ (Or.inl rfl))
  · rw [hcore.used]
    exact h.used a (hsub a (Or.inl rfl))

theorem ReadyQueue.dispatch (h : ReadyQueue s l) (ha : a ∉ s.lined l) (hused : s.used a = true)
    (site : Resume) : ReadyQueue (dispatch (yielded s site) s.current a) (s.lined l) := by
  have hcore := sameCore_yielded s site
  refine ⟨?_, ha, ?_, ?_, ?_⟩
  · rw [dispatch_next]
    exact yielded_queue h.queue h.current
  · intro b hb
    refine (congrFun hcore.used b).trans ?_
    rcases mem_lined.mp hb with hb | ⟨rfl, _⟩
    · exact h.used b hb
    · exact h.currentUsed
  · exact (congrFun hcore.used a).trans hused
  · intro b hb
    exact (congrFun hcore.used b).trans (h.blockedUsed b ((congrFun hcore.blocked b).symm.trans hb))

theorem ReadyQueue.scheduled {r : Bool × Sched} (h : ReadyQueue s l)
    (hok : 0 < s.postponeTaskSwitchesCounter ∨ s.SpareTail) (hr : Scheduled s site r) :
    ∃ l', ReadyQueue r.2 l' := by
  cases hr with
  | postponed => exact ⟨l, h.aside ⟨_, _, _, _, _, _, _, rfl⟩⟩
  | empty => exact ⟨l, h⟩
  | onlyIdle hzero hfirst hidle hnext =>
    have hspare : s.SpareTail := hok.resolve_left (by omega)
    exact absurd hnext (hspare.next_some hfirst hidle)
  | picked hzero hpop =>
    have hspare : s.SpareTail := hok.resolve_left (by omega)
    obtain ⟨l', hq, hmem, hne, hused⟩ := h.popped hspare hpop
    have hcore := sameCore_popped hpop
    rw [← hcore.current]
    exact ⟨_, hq.dispatch (fun ha => (mem_lined.mp ha).elim hmem fun h => hne h.1) hused site⟩

theorem ReadyQueue.marked (h : ReadyQueue s l) (reason : BitVec 32) : ReadyQueue (s.marked reason) l := by
  refine ⟨?_, h.current, h.used, h.currentUsed, fun b hb => ?_⟩
  · rw [marked_next]
    exact h.queue
  · rw [marked_blocked] at hb
    split at hb
    · rename_i hbc
      exact hbc ▸ h.currentUsed
    · exact h.blockedUsed b hb

theorem spareTail_marked (h : s.SpareTail) (reason : BitVec 32) : (s.marked reason).SpareTail := by
  intro a hfirst
  rw [marked_next]
  exact h a hfirst

theorem ReadyQueue.cleared (h : ReadyQueue s l) (task : TaskId) : ReadyQueue (s.cleared task) l := by
  refine ⟨h.queue, h.current, h.used, h.currentUsed, fun b hb => h.blockedUsed b ?_⟩
  rw [cleared_blocked] at hb
  split at hb
  · simp at hb
  · exact hb

theorem ReadyQueue.behindLast (h : ReadyQueue s l) (ht : task ∉ l) (hc : task ≠ s.current)
    (hnone : s.next task = none) (hused : s.used task = true) (hfirst : s.firstReady ≠ none) :
    ReadyQueue (behindLast s task) (l ++ [task]) := by
  have hcore := sameCore_behindLast s task
  refine ⟨behindLast_queue h.queue ht hnone hfirst, ?_, ?_, ?_, ?_⟩
  · rw [hcore.current]
    simp [h.current, hc.symm]
  · rw [hcore.used]
    intro b hb
    rcases List.mem_append.mp hb with hb | hb
    · exact h.used b hb
    · exact List.mem_singleton.mp hb ▸ hused
  · rw [hcore.used, hcore.current]
    exact h.currentUsed
  · rw [hcore.used, hcore.blocked]
    exact h.blockedUsed

/-- The calls that leave the list a queue: a task is only taken off when it is not the last
one, and an unblocked task that is to be listed is in no other place and points nowhere. -/
def ListStepOk (s : Sched) : SchedCall → Prop
  | .schedule | .blockTask _ => 0 < s.postponeTaskSwitchesCounter ∨ s.SpareTail
  | .releaseLock =>
    s.postponeTaskSwitchesCounter = 1 → s.taskSwitchesPostponed = true → s.SpareTail
  | .unblockTask task =>
    if s.Preempts then
      0 < s.postponeTaskSwitchesCounter ∨
        (¬s.Ready task ∧ (task = s.current → s.state s.current ≠ running))
    else ¬s.Ready task ∧ task ≠ s.current ∧ s.next task = none
  | _ => True

theorem ReadyQueue.unblocked (h : ReadyQueue s l) (hblocked : s.blocked task = true)
    (hok : ListStepOk s (.unblockTask task)) (hu : Unblocked s task t) : ∃ l', ReadyQueue t l' := by
  have hcleared := h.cleared task
  cases hu with
  | postponed _ _ haside => exact ⟨l, hcleared.aside haside⟩
  | preempts hzero hpre haside =>
    simp only [ListStepOk, if_pos hpre, ready_iff h.queue.linked] at hok
    obtain ⟨ht, hself⟩ := hok.resolve_left (by omega)
    have hmem : task ∉ (s.cleared task).lined l := fun hmem =>
      (mem_lined.mp hmem).elim ht fun hc => hself hc.1 hc.2
    exact ⟨_, (hcleared.dispatch hmem (h.blockedUsed task hblocked) .unlock).aside haside⟩
  | queued hpre haside =>
    simp only [ListStepOk, if_neg hpre, ready_iff h.queue.linked] at hok
    obtain ⟨ht, hc, hnone⟩ := hok
    have hfirst : s.firstReady ≠ none := fun heq => hpre (Or.inl heq)
    exact ⟨_, (hcleared.behindLast ht hc hnone (h.blockedUsed task hblocked) hfirst).aside haside⟩

theorem ReadyQueue.step (h : ReadyQueue s l) (hok : ListStepOk s c) (hs : s.step c = some t) :
    ∃ l', ReadyQueue t l' := by
  obtain ⟨rfl, hblocked, hheld⟩ := Sched.step_eq hs
  cases c with
  | createKernelTask e =>
    rcases createKernelTask_cases s e with heq | ⟨task, _, hfree, heq⟩
    · exact ⟨l, by simpa only [Sched.call, heq] using h⟩
    · exact ⟨_, by simpa only [Sched.call, heq] using h.addTask hfree e⟩
  | lockScheduler => exact ⟨l, h.aside (aside_lockScheduler s)⟩
  | schedule =>
    have hnoted := h.aside (aside_noted s)
    obtain ⟨l', hl'⟩ := hnoted.scheduled hok (schedule_cases s.noted .schedule)
    exact ⟨l', hl'.aside (aside_finish _ _)⟩
  | unlockScheduler => exact ⟨l, h.aside (aside_unlockScheduler s)⟩
  | blockTask reason =>
    have hmarked := (h.marked reason).aside (aside_noted _)
    have hok' : 0 < s.postponeTaskSwitchesCounter ∨ (s.marked reason).SpareTail :=
      hok.imp_right fun hspare => spareTail_marked hspare reason
    obtain ⟨l', hl'⟩ := hmarked.scheduled hok' (schedule_cases _ .unlock)
    exact ⟨l', hl'.aside (aside_finish _ _)⟩
  | unblockTask task => exact h.unblocked (hblocked task rfl) hok (unblockTask_cases s task)
  | acquireLock => exact ⟨l, h.aside (aside_acquireLock s)⟩
  | releaseLock =>
    rcases releaseLock_cases s with ⟨hlast, hdue, hnoted, r, hr, hafter⟩ | haside
    · have hone : s.postponeTaskSwitchesCounter = 1 := by
        have := hheld rfl
        omega
      obtain ⟨l', hl'⟩ := (h.aside hnoted).scheduled (Or.inr (hok hone hdue)) hr
      exact ⟨l', hl'.aside hafter⟩
    · exact ⟨l, h.aside haside⟩

theorem multitaskingInit_queue (idle : BitVec 32) :
    ReadyQueue (multitaskingInit unscheduled idle) [1] := by
  refine ⟨⟨⟨rfl, rfl⟩, rfl⟩, ?_, fun task htask => ?_, rfl, fun task h => ?_⟩
  · show (0 : TaskId) ∉ [1]
    decide
  · rw [List.mem_singleton.mp htask]
    rfl
  · exact absurd h Bool.false_ne_true

theorem ready_list_ok (hrun : Runs.Reach Sched.step ListStepOk Sched.Booted s) : ReadyListOk s := by
  have hinv : ∃ l, ReadyQueue s l := by
    refine Runs.Reach.invariant (I := fun s => ∃ l, ReadyQueue s l) ?_ ?_ hrun
    · rintro _ ⟨idle, rfl⟩
      exact ⟨[1], multitaskingInit_queue idle⟩
    · rintro s c t ⟨l, h⟩ hok hs
      exact h.step hok hs
  obtain ⟨l, h⟩ := hinv
  exact h.ok

theorem ready_list_ok_small : ∃ s, Runs.run Sched.step (multitaskingInit unscheduled 0x1000#32)
    [.createKernelTask 0x2000#32, .createKernelTask 0x3000#32, .schedule] = some s ∧
      s.current = 2 ∧ ReadyListOk s := by
  have h0 : Runs.Reach Sched.step ListStepOk Sched.Booted (multitaskingInit unscheduled 0x1000#32) :=
    .start ⟨_, rfl⟩
  have h1 := h0.next (SchedCall.createKernelTask 0x2000#32) trivial rfl
  have h2 := h1.next (SchedCall.createKernelTask 0x3000#32) trivial rfl
  have h3 := h2.next SchedCall.schedule (Or.inr (by unfold Sched.SpareTail; decide)) rfl
  exact ⟨_, rfl, by decide, ready_list_ok h3⟩

/-- With one task beside the idle task, `Schedule` takes the last task of the list and puts
the previous one behind it. -/
theorem ready_list_broken :
    ¬∀ s, Runs.Reach Sched.step (fun _ _ => True) Sched.Booted s → ReadyListOk s := by
  intro hall
  have h0 : Runs.Reach Sched.step (fun _ _ => True) Sched.Booted
      (multitaskingInit unscheduled 0x1000#32) := .start ⟨_, rfl⟩
  have h1 := h0.next (SchedCall.createKernelTask 0x2000#32) trivial rfl
  have h2 := h1.next SchedCall.schedule trivial rfl
  obtain ⟨l, hlinked, _, hlast, _⟩ := (hall _ h2).chain
  have hidle : l = [1] := hlinked.unique ⟨by decide, linked_nil.mpr (by decide)⟩
  rw [hidle] at hlast
  exact absurd hlast (by decide)

end SplongleOS
