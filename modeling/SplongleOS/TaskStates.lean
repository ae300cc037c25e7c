import SplongleOS.ReadyChain
set_option autoImplicit false

/-! The state byte of a task against the place the task is in, while no lock is held. -/

namespace SplongleOS
open Chain

variable {s t u : Sched} {a task : TaskId} {l : List TaskId} {site : Resume} {c : SchedCall}

/-- The current task and no other is RUNNING, those on the ready list are READY_TO_RUN, and
the current task is not waiting for an `unblock_task`. -/
structure StatesAgree (s : Sched) : Prop where
  current : s.state s.current = running
  others : ∀ b, s.used b = true → b ≠ s.current → s.state b ≠ running
  ready : ∀ b, s.Ready b → s.state b = readyToRun
  currentFree : s.blocked s.current = false

structure Stated (s : Sched) (l : List TaskId) : Prop where
  linked : Linked s.next s.firstReady l
  listed : ∀ b ∈ l, s.state b = readyToRun ∧ s.used b = true ∧ s.blocked b = false
  current : s.current ∉ l
  currentUsed : s.used s.current = true
  lastUsed : ∀ z, s.lastReady = some z → s.used z = true
  blockedUsed : ∀ b, s.blocked b = true → s.used b = true
  others : ∀ b, s.used b = true → s.state b = running → b = s.current

structure Acting (s : Sched) (l : List TaskId) : Prop where
  stated : Stated s l
  currentRunning : s.state s.current = running
  currentFree : s.blocked s.current = false

theorem Acting.agree (h : Acting s l) : StatesAgree s := by
  refine ⟨h.currentRunning, fun b hb hne hrun => hne (h.stated.others b hb hrun), fun b hb => ?_,
    h.currentFree⟩
  exact (h.stated.listed b ((ready_iff h.stated.linked).mp hb)).1

theorem Stated.aside (h : Stated s l) (ha : Aside s t) : Stated t l := by
  obtain ⟨_, _, _, _, _, _, _, rfl⟩ := ha
  exact ⟨h.linked, h.listed, h.current, h.currentUsed, h.lastUsed, h.blockedUsed, h.others⟩

theorem Acting.aside (h : Acting s l) (ha : Aside s t) : Acting t l := by
  have hstated := h.stated.aside ha
  obtain ⟨_, _, _, _, _, _, _, rfl⟩ := ha
  exact ⟨hstated, h.currentRunning, h.currentFree⟩

theorem Stated.popped (h : Stated s l) (hpop : Popped s a u) :
    ∃ l', Stated u l' ∧ a ∉ l' ∧ a ≠ u.current ∧ u.used a = true ∧ u.blocked a = false := by
  obtain ⟨hlinked, hal, _⟩ := popped_linked h.linked hpop
  have hperm := List.perm_cons_erase hal
  have hcore := sameCore_popped hpop
  have hstate : u.state = s.state := funext (popped_state hpop)
  have hmem : ∀ b, b ∈ l.erase a → b ∈ l := fun b hb => hperm.mem_iff.mpr (List.mem_cons_of_mem a hb)
  have hnodup := List.nodup_cons.mp (hperm.nodup_iff.mp h.linked.nodup)
  refine ⟨l.erase a, ⟨hlinked, ?_, ?_, ?_, ?_, ?_, ?_⟩, hnodup.1, ?_, ?_, ?_⟩
  · rw [hstate, hcore.used, hcore.blocked]
    exact fun b hb => h.listed b (hmem b hb)
  · rw [hcore.current]
    exact fun hc => h.current (hmem _ hc)
  · rw [hcore.used, hcore.current]
    exact h.currentUsed
  · rw [hcore.used, popped_last hpop]
    exact h.lastUsed
  · rw [hcore.used, hcore.blocked]
    exact h.blockedUsed
  · rw [hcore.used, hstate, hcore.current]
    exact h.others
  · rw [hcore.current]
    exact fun heq => h.current (heq ▸ hal)
  · rw [hcore.used]
    exact (h.listed a hal).2.1
  · rw [hcore.blocked]
    exact (h.listed a hal).2.2

theorem Stated.dispatch (h : Stated s l) (hal : a ∉ l) (hac : a ≠ s.current)
    (hused : s.used a = true) (hfree : s.blocked a = false)
    (hrole : s.state s.current = running → s.blocked s.current = false) :
    ∃ l', Acting (dispatch (yielded s site) s.current a) l' := by
  obtain ⟨l', hlinked, hsub⟩ := yielded_linked h.linked h.current
  have hcore := sameCore_yielded s site
  have hused' : (yielded s site).used = s.used := hcore.used
  have hblocked' : (yielded s site).blocked = s.blocked := hcore.blocked
  have hal' : a ∉ l' := fun hmem => (mem_lined.mp (hsub a hmem)).elim hal fun hc => hac hc.1
  refine ⟨l', ⟨⟨?_, ?_, hal', ?_, ?_, ?_, ?_⟩, ?_, ?_⟩⟩
  · rw [dispatch_next]
    exact hlinked
  · intro b hb
    have hba : b ≠ a := fun heq => hal' (heq ▸ hb)
    change (SplongleOS.dispatch (yielded s site) s.current a).state b = readyToRun ∧
      (yielded s site).used b = true ∧ (yielded s site).blocked b = false
    rw [dispatch_state, if_neg hba, yielded_state, hused', hblocked']
    rcases mem_lined.mp (hsub b hb) with hbl | ⟨rfl, hrunning⟩
    · have hready := (h.listed b hbl).1
      rw [hready, ite_self]
      exact ⟨rfl, (h.listed b hbl).2⟩
    · rw [if_pos ⟨rfl, hrunning⟩]
      exact ⟨rfl, h.currentUsed, hrole hrunning⟩
  · change (yielded s site).used a = true
    rw [hused']
    exact hused
  · intro z hz
    have hz' : (yielded s site).lastReady = some z := hz
    change (yielded s site).used z = true
    rw [yielded_last] at hz'
    rw [hused']
    split at hz'
    · exact Option.some.inj hz' ▸ h.currentUsed
    · exact h.lastUsed z hz'
  · change ∀ b, (yielded s site).blocked b = true → (yielded s site).used b = true
    rw [hused', hblocked']
    exact h.blockedUsed
  · intro b hb hrun
    by_contra hne
    have hba : b ≠ a := hne
    have hb' : s.used b = true := (congrFun hused' b).symm.trans hb
    rw [dispatch_state, if_neg hba, yielded_state] at hrun
    split at hrun
    · exact absurd hrun (by decide)
    · rename_i hnot
      have hbc := h.others b hb' hrun
      subst hbc
      exact hnot ⟨rfl, hrun⟩
  · exact (dispatch_state _ _ a a).trans (if_pos rfl)
  · change (yielded s site).blocked a = false
    rw [hblocked']
    exact hfree

theorem Acting.addTask (h : Acting s l) (hfree : s.used task = false) (e : BitVec 32) :
    ∃ l', Acting (addTask s task e) l' := by
  have ht : task ∉ l := fun hmem => by simp [(h.stated.listed task hmem).2.1] at hfree
  have hc : s.current ≠ task := fun heq => by simp [← heq, h.stated.currentUsed] at hfree
  have hlast : s.lastReady ≠ some task := fun heq => by simp [h.stated.lastUsed task heq] at hfree
  have hwait : s.blocked task = false := by
    by_contra hne
    simp [h.stated.blockedUsed task (by simpa using hne)] at hfree
  obtain ⟨l', hlinked, hsub⟩ := addTask_linked h.stated.linked ht hlast e
  refine ⟨l', ⟨⟨hlinked, fun b hb => ?_, ?_, ?_, ?_, ?_, ?_⟩, ?_, ?_⟩⟩
  · rw [addTask_state, addTask_used, addTask_blocked]
    rcases hsub b hb with hbl | rfl
    · obtain ⟨hready, hused, hbfree⟩ := h.stated.listed b hbl
      simp [hready, hused, hbfree]
    · simp [hwait]
  · rw [addTask_current]
    exact fun hmem => (hsub _ hmem).elim h.stated.current hc
  · rw [addTask_current, addTask_used, h.stated.currentUsed]
    exact ite_self true
  · intro z hz
    rw [addTask_last] at hz
    rw [addTask_used, if_pos (Option.some.inj hz).symm]
  · intro b hb
    rw [addTask_blocked] at hb
    rw [addTask_used, h.stated.blockedUsed b hb]
    exact ite_self true
  · intro b hb hrun
    rw [addTask_state] at hrun
    rw [addTask_used] at hb
    rw [addTask_current]
    split at hrun
    · exact absurd hrun (by decide)
    · rename_i hbt
      rw [if_neg hbt] at hb
      exact h.stated.others b hb hrun
  · rw [addTask_current, addTask_state, if_neg hc]
    exact h.currentRunning
  · rw [addTask_current, addTask_blocked]
    exact h.currentFree

/-- The calls of tasks that hold no lock and wait only with a state of their own. -/
def StateCall (s : Sched) : SchedCall → Prop
  | .acquireLock | .releaseLock => False
  | .blockTask reason => s.postponeTaskSwitchesCounter = 0 ∧ reason ≠ 0#32 ∧ reason ≠ 1#32
  | _ => s.postponeTaskSwitchesCounter = 0

/-- A task blocks itself where another one is ready, with a state that is not RUNNING, and
an unblocked task pre-empts, is linked to nothing, or is ready and points nowhere. -/
def StateStepOk (s : Sched) (c : SchedCall) : Prop :=
  StateCall s c ∧
    match c with
    | .blockTask reason => s.firstReady ≠ none ∧ reason.setWidth 8 ≠ running
    | .unblockTask task => s.Preempts ∨ (∀ z, s.lastReady = some z → ¬s.Ready z) ∨
        (s.state task = readyToRun ∧ s.next task = none)
    | _ => True

theorem Stated.scheduled {r : Bool × Sched} (h : Stated s l) (hr : Scheduled s site r)
    (hzero : s.postponeTaskSwitchesCounter = 0)
    (hrole : s.state s.current = running ∧ s.blocked s.current = false ∨
      s.state s.current ≠ running ∧ s.firstReady ≠ none) : ∃ l', Acting r.2 l' := by
  cases hr with
  | postponed hlock => omega
  | empty _ hempty =>
    obtain ⟨hrunning, hfree⟩ := hrole.resolve_right fun hw => hw.2 hempty
    exact ⟨l, h, hrunning, hfree⟩
  | onlyIdle _ _ _ _ hrunning =>
    have hfree := (hrole.resolve_right fun hw => hw.1 hrunning).2
    exact ⟨[], ⟨linked_nil.mpr rfl, by simp, by simp, h.currentUsed, h.lastUsed, h.blockedUsed,
      h.others⟩, hrunning, hfree⟩
  | picked _ hpop =>
    obtain ⟨l', hstated, hal, hac, hused, hfree⟩ := h.popped hpop
    have hcore := sameCore_popped hpop
    rw [← hcore.current]
    refine hstated.dispatch hal hac hused hfree fun hrunning => ?_
    rw [popped_state hpop, hcore.current] at hrunning
    rw [hcore.blocked, hcore.current]
    exact (hrole.resolve_right fun hw => hw.1 hrunning).2

theorem Acting.marked (h : Acting s l) {reason : BitVec 32} (hreason : reason.setWidth 8 ≠ running) :
    Stated (s.marked reason) l := by
  have hother : ∀ b ∈ l, b ≠ s.current := fun b hb heq => h.stated.current (heq ▸ hb)
  refine ⟨?_, fun b hb => ?_, h.stated.current, h.stated.currentUsed, h.stated.lastUsed,
    fun b hb => ?_, fun b hb hrun => ?_⟩
  · rw [marked_next]
    exact h.stated.linked
  · rw [marked_state, marked_blocked, if_neg (hother b hb), if_neg (hother b hb)]
    exact h.stated.listed b hb
  · rw [marked_blocked] at hb
    split at hb
    · rename_i hbc
      exact hbc ▸ h.stated.currentUsed
    · exact h.stated.blockedUsed b hb
  · rw [marked_state] at hrun
    split at hrun
    · exact absurd hrun hreason
    · exact h.stated.others b hb hrun

theorem Acting.cleared (h : Acting s l) (task : TaskId) : Acting (s.cleared task) l := by
  have hfree : ∀ b, s.blocked b = false → (s.cleared task).blocked b = false := by
    intro b hb
    rw [cleared_blocked, hb]
    exact ite_self false
  refine ⟨⟨h.stated.linked, fun b hb => ?_, h.stated.current, h.stated.currentUsed,
    h.stated.lastUsed, fun b hb => ?_, h.stated.others⟩, h.currentRunning, hfree _ h.currentFree⟩
  · obtain ⟨hready, hused, hbfree⟩ := h.stated.listed b hb
    exact ⟨hready, hused, hfree b hbfree⟩
  · rw [cleared_blocked] at hb
    split at hb
    · simp at hb
    · exact h.stated.blockedUsed b hb

theorem behindLast_linked {p : Prop} (h : Linked s.next s.firstReady l) (htask : task ∉ l)
    (hjoin : (∀ z, s.lastReady = some z → z ∉ l) ∨ (p ∧ s.next task = none)) :
    ∃ l', Linked (behindLast s task).next s.firstReady l' ∧ ∀ b ∈ l', b ∈ l ∨ (b = task ∧ p) := by
  by_cases hout : ∀ z, s.lastReady = some z → z ∉ l
  · refine ⟨l, h.congr fun b hb => ?_, fun b hb => Or.inl hb⟩
    rw [behindLast_next, if_neg fun heq => hout b heq hb]
  · obtain ⟨hp, hnone⟩ := hjoin.resolve_left hout
    have hself : s.lastReady ≠ some task := by
      intro heq
      refine hout fun z hz => ?_
      rwa [← Option.some.inj (heq.symm.trans hz)]
    have hkeep : ∀ b ∈ l, s.lastReady ≠ some b → (behindLast s task).next b = s.next b := by
      intro b _ hne
      rw [behindLast_next, if_neg hne]
    have hend : ∀ z, s.lastReady = some z → (behindLast s task).next z = some task := by
      intro z hz
      rw [behindLast_next, if_pos hz]
    have hnext : (behindLast s task).next task = none := by
      rw [behindLast_next, if_neg hself, hnone]
    obtain ⟨l', hlinked, hsub⟩ := h.relink hkeep hend hnext
    exact ⟨l', hlinked, fun b hb => (hsub b hb).imp_right fun heq => ⟨heq, hp⟩⟩

/-- Whatever the pointer is written to, only ready tasks are reachable. -/
theorem Acting.behindLast (h : Acting s l) (htask : task ∉ l) (hused : s.used task = true)
    (hfree : s.blocked task = false) (hc : s.current ≠ task)
    (hjoin : (∀ z, s.lastReady = some z → z ∉ l) ∨
      (s.state task = readyToRun ∧ s.next task = none)) : ∃ l', Acting (behindLast s task) l' := by
  have hcore := sameCore_behindLast s task
  obtain ⟨l', hlinked, hsub⟩ := behindLast_linked h.stated.linked htask hjoin
  refine ⟨l', ⟨⟨?_, fun b hb => ?_, ?_, ?_, fun z hz => ?_, ?_, ?_⟩, ?_, ?_⟩⟩
  · rw [behindLast_first]
    exact hlinked
  · rw [behindLast_state, hcore.used, hcore.blocked]
    rcases hsub b hb with hbl | ⟨rfl, hready⟩
    · exact h.stated.listed b hbl
    · exact ⟨hready, hused, hfree⟩
  · rw [hcore.current]
    exact fun hmem => (hsub _ hmem).elim h.stated.current fun heq => hc heq.1
  · rw [hcore.used, hcore.current]
    exact h.stated.currentUsed
  · cases hz
    rw [hcore.used]
    exact hused
  · rw [hcore.used, hcore.blocked]
    exact h.stated.blockedUsed
  · rw [hcore.used, hcore.current]
    intro b hb hrun
    rw [behindLast_state] at hrun
    exact h.stated.others b hb hrun
  · rw [hcore.current, behindLast_state]
    exact h.currentRunning
  · rw [hcore.current, hcore.blocked]
    exact h.currentFree

theorem Acting.unblocked (h : Acting s l) (hblocked : s.blocked task = true)
    (hok : StateStepOk s (.unblockTask task)) (hu : Unblocked s task t) : ∃ l', Acting t l' := by
  obtain ⟨hzero, hok⟩ := hok
  have hzero : s.postponeTaskSwitchesCounter = 0 := hzero
  have hcleared := h.cleared task
  have hused := h.stated.blockedUsed task hblocked
  have hfree : (s.cleared task).blocked task = false := by rw [cleared_blocked, if_pos rfl]
  have htask : task ∉ l := by
    intro hmem
    simp [(h.stated.listed task hmem).2.2] at hblocked
  have hc : task ≠ s.current := by
    intro heq
    simp [heq, h.currentFree] at hblocked
  cases hu with
  | postponed hlock => omega
  | preempts _ hpre haside =>
    obtain ⟨l', hl'⟩ :=
      hcleared.stated.dispatch htask hc hused hfree fun _ => hcleared.currentFree
    exact ⟨l', hl'.aside haside⟩
  | queued hpre haside =>
    have hjoin := hok.resolve_left hpre
    simp only [ready_iff h.stated.linked] at hjoin
    obtain ⟨l', hl'⟩ := hcleared.behindLast htask hused hfree hc.symm hjoin
    exact ⟨l', hl'.aside haside⟩

theorem Acting.step (h : Acting s l) (hok : StateStepOk s c) (hs : s.step c = some t) :
    ∃ l', Acting t l' := by
  obtain ⟨rfl, hblocked, _⟩ := Sched.step_eq hs
  cases c with
  | createKernelTask e =>
    rcases createKernelTask_cases s e with heq | ⟨task, _, hfree, heq⟩
    · exact ⟨l, by simpa only [Sched.call, heq] using h⟩
    · obtain ⟨l', hl'⟩ := h.addTask hfree e
      exact ⟨l', by simpa only [Sched.call, heq] using hl'⟩
  | lockScheduler => exact ⟨l, h.aside (aside_lockScheduler s)⟩
  | schedule =>
    have hnoted := h.aside (aside_noted s)
    obtain ⟨l', hl'⟩ := hnoted.stated.scheduled (schedule_cases s.noted .schedule) hok.1
      (Or.inl ⟨hnoted.currentRunning, hnoted.currentFree⟩)
    exact ⟨l', hl'.aside (aside_finish _ _)⟩
  | unlockScheduler => exact ⟨l, h.aside (aside_unlockScheduler s)⟩
  | blockTask reason =>
    obtain ⟨⟨hzero, _⟩, hfirst, hreason⟩ := hok
    have hmarked := (h.marked hreason).aside (aside_noted _)
    have hstate : (s.marked reason).state s.current ≠ running := by
      rw [marked_state, if_pos rfl]
      exact hreason
    obtain ⟨l', hl'⟩ := hmarked.scheduled (schedule_cases _ .unlock) hzero (Or.inr ⟨hstate, hfirst⟩)
    exact ⟨l', hl'.aside (aside_finish _ _)⟩
  | unblockTask task => exact h.unblocked (hblocked task rfl) hok (unblockTask_cases s task)
  | acquireLock => exact hok.1.elim
  | releaseLock => exact hok.1.elim

theorem multitaskingInit_acting (idle : BitVec 32) : Acting (multitaskingInit unscheduled idle) [1] := by
  have hone : ∀ b : TaskId, b ∈ [1] → b = 1 := fun b hb => List.mem_singleton.mp hb
  refine ⟨⟨⟨rfl, rfl⟩, fun b hb => ?_, ?_, rfl, fun z hz => ?_, fun b h => ?_, fun b hb hrun => ?_⟩,
    rfl, rfl⟩
  · rw [hone b hb]
    exact ⟨rfl, rfl, rfl⟩
  · show (0 : TaskId) ∉ [1]
    decide
  · have hz1 : some 1 = some z := hz
    rw [← Option.some.inj hz1]
    rfl
  · exact absurd h Bool.false_ne_true
  · rcases multitaskingInit_used hb with rfl | rfl
    · rfl
    · have hready : readyToRun = running := hrun
      exact absurd hready (by decide)

theorem states_agree (hrun : Runs.Reach Sched.step StateStepOk Sched.Booted s) : StatesAgree s := by
  have hinv : ∃ l, Acting s l := by
    refine Runs.Reach.invariant (I := fun s => ∃ l, Acting s l) ?_ ?_ hrun
    · rintro _ ⟨idle, rfl⟩
      exact ⟨[1], multitaskingInit_acting idle⟩
    · rintro s c t ⟨l, h⟩ hok hs
      exact h.step hok hs
  obtain ⟨l, h⟩ := hinv
  exact h.agree

theorem states_agree_small : ∃ s, Runs.run Sched.step (multitaskingInit unscheduled 0x1000#32)
    [.createKernelTask 0x2000#32, .blockTask 2#32, .blockTask 2#32, .unblockTask 0] = some s ∧
      s.current = 0 ∧ StatesAgree s := by
  have h0 : Runs.Reach Sched.step StateStepOk Sched.Booted (multitaskingInit unscheduled 0x1000#32) :=
    .start ⟨_, rfl⟩
  have h1 := h0.next (SchedCall.createKernelTask 0x2000#32) ⟨rfl, trivial⟩ rfl
  have h2 := h1.next (SchedCall.blockTask 2#32)
    ⟨⟨by decide, by decide, by decide⟩, by decide, by decide⟩ rfl
  have h3 := h2.next (SchedCall.blockTask 2#32)
    ⟨⟨by decide, by decide, by decide⟩, by decide, by decide⟩ rfl
  have h4 := h3.next (SchedCall.unblockTask 0) ⟨rfl, Or.inl (by decide)⟩ rfl
  exact ⟨_, rfl, by decide, states_agree h4⟩

theorem states_disagree :
    ¬∀ s, Runs.Reach Sched.step StateCall Sched.Booted s → StatesAgree s := by
  intro hall
  have h0 : Runs.Reach Sched.step StateCall Sched.Booted (multitaskingInit unscheduled 0x1000#32) :=
    .start ⟨_, rfl⟩
  have h1 := h0.next (SchedCall.createKernelTask 0x2000#32) rfl rfl
  have h2 := h1.next (SchedCall.createKernelTask 0x3000#32) rfl rfl
  have h3 := h2.next (SchedCall.blockTask 2#32) ⟨by decide, by decide, by decide⟩ rfl
  have h4 := h3.next (SchedCall.unblockTask 0) rfl rfl
  have hready := (hall _ h4).ready 0 ⟨2, by decide⟩
  exact absurd hready (by decide)

end SplongleOS
