import SplongleOS.ReadyChain
set_option autoImplicit false

/-! Where the created tasks are: running, on the ready list, or blocked. -/

namespace SplongleOS
open Chain

variable {s t u : Sched} {a task : TaskId} {l : List TaskId} {hand : Option TaskId} {site : Resume}
  {c : SchedCall}

def ExactlyOne (p q r : Prop) : Prop := (p ∧ ¬q ∧ ¬r) ∨ (¬p ∧ q ∧ ¬r) ∨ (¬p ∧ ¬q ∧ r)

/-- `task` is reached exactly once from `g_first_ready` through `next`. -/
def Sched.ReadyOnce (s : Sched) (task : TaskId) : Prop :=
  ∃ k, visit s.next s.firstReady k = some task ∧
    ∀ j, visit s.next s.firstReady j = some task → j = k

def NoTaskLost (s : Sched) : Prop := ∀ task, s.used task = true →
  ExactlyOne (s.current = task) (s.ReadyOnce task) (s.blocked task = true)

/-- The places while `hand` is off the list and not yet anywhere else. -/
structure Spread (s : Sched) (hand : Option TaskId) (l : List TaskId) : Prop where
  linked : Linked s.next s.firstReady l
  listed : ∀ b ∈ l, s.used b = true ∧ s.blocked b = false
  current : s.current ∉ l
  currentUsed : s.used s.current = true
  blockedUsed : ∀ b, s.blocked b = true → s.used b = true
  inHand : ∀ b, hand = some b → b ∉ l ∧ b ≠ s.current ∧ s.used b = true ∧ s.blocked b = false
  covered : ∀ b, s.used b = true → hand = some b ∨ b = s.current ∨ b ∈ l ∨ s.blocked b = true

structure Placed (s : Sched) (l : List TaskId) : Prop where
  spread : Spread s none l
  currentRunning : s.state s.current = running
  currentFree : s.blocked s.current = false

theorem readyOnce_iff (h : Linked s.next s.firstReady l) : s.ReadyOnce task ↔ task ∈ l := by
  constructor
  · rintro ⟨k, hk, _⟩
    exact h.visited_iff.mp ⟨k, hk⟩
  · exact fun hmem => h.exists_unique_visit hmem

theorem Placed.noTaskLost (h : Placed s l) : NoTaskLost s := by
  intro b hb
  unfold ExactlyOne
  rw [readyOnce_iff h.spread.linked]
  rcases h.spread.covered b hb with hhand | rfl | hmem | hblocked
  · simp at hhand
  · simp [h.spread.current, h.currentFree]
  · have hc : s.current ≠ b := fun heq => h.spread.current (heq ▸ hmem)
    simp [hc, hmem, (h.spread.listed b hmem).2]
  · have hc : s.current ≠ b := by
      rintro rfl
      simp [h.currentFree] at hblocked
    have hmem : b ∉ l := fun hmem => by simp [(h.spread.listed b hmem).2] at hblocked
    simp [hc, hmem, hblocked]

theorem Spread.aside (h : Spread s hand l) (ha : Aside s t) : Spread t hand l := by
  obtain ⟨_, _, _, _, _, _, _, rfl⟩ := ha
  exact ⟨h.linked, h.listed, h.current, h.currentUsed, h.blockedUsed, h.inHand, h.covered⟩

theorem Placed.aside (h : Placed s l) (ha : Aside s t) : Placed t l := by
  have hspread := h.spread.aside ha
  obtain ⟨_, _, _, _, _, _, _, rfl⟩ := ha
  exact ⟨hspread, h.currentRunning, h.currentFree⟩

theorem Spread.popped (h : Spread s none l) (hpop : Popped s a u) :
    ∃ l', Spread u (some a) l' ∧
      (s.lastReady ≠ some a → s.lastReady = l.getLast? → u.lastReady = l'.getLast?) := by
  obtain ⟨hlinked, hal, hlast⟩ := popped_linked h.linked hpop
  have hperm := List.perm_cons_erase hal
  have hcore := sameCore_popped hpop
  have hmem : ∀ b, b ∈ l ↔ b = a ∨ b ∈ l.erase a := fun b => hperm.mem_iff.trans List.mem_cons
  have hnodup := List.nodup_cons.mp (hperm.nodup_iff.mp h.linked.nodup)
  refine ⟨l.erase a, ⟨hlinked, ?_, ?_, ?_, ?_, ?_, ?_⟩, fun hne hq => hlast hne hq⟩
  · rw [hcore.used, hcore.blocked]
    exact fun b hb => h.listed b ((hmem b).mpr (Or.inr hb))
  · rw [hcore.current]
    exact fun hc => h.current ((hmem _).mpr (Or.inr hc))
  · rw [hcore.used, hcore.current]
    exact h.currentUsed
  · rw [hcore.used, hcore.blocked]
    exact h.blockedUsed
  · rw [hcore.used, hcore.blocked, hcore.current]
    rintro b hb
    cases hb
    exact ⟨hnodup.1, fun heq => h.current (heq ▸ hal), h.listed a hal⟩
  · rw [hcore.used, hcore.blocked, hcore.current]
    intro b hb
    rcases h.covered b hb with hhand | hc | hl | hblocked
    · simp at hhand
    · exact Or.inr (Or.inl hc)
    · rcases (hmem b).mp hl with rfl | hl'
      · exact Or.inl rfl
      · exact Or.inr (Or.inr (Or.inl hl'))
    · exact Or.inr (Or.inr (Or.inr hblocked))

theorem Spread.dispatch (h : Spread s (some a) l)
    (hrole : s.state s.current = running ↔ s.blocked s.current = false)
    (hlinked : Linked (yielded s site).next (yielded s site).firstReady (s.lined l)) :
    Placed (dispatch (yielded s site) s.current a) (s.lined l) := by
  have hcore := sameCore_yielded s site
  have hused : (yielded s site).used = s.used := hcore.used
  have hblocked : (yielded s site).blocked = s.blocked := hcore.blocked
  obtain ⟨hal, hac, haused, hafree⟩ := h.inHand a rfl
  have haline : a ∉ s.lined l := fun hmem => (mem_lined.mp hmem).elim hal fun hc => hac hc.1
  refine ⟨⟨?_, ?_, haline, ?_, ?_, by simp, ?_⟩, ?_, ?_⟩
  · rw [dispatch_next]
    exact hlinked
  · intro b hb
    change (yielded s site).used b = true ∧ (yielded s site).blocked b = false
    rw [hused, hblocked]
    rcases mem_lined.mp hb with hb | ⟨rfl, hrunning⟩
    · exact h.listed b hb
    · exact ⟨h.currentUsed, hrole.mp hrunning⟩
  · change (yielded s site).used a = true
    rw [hused]
    exact haused
  · change ∀ b, (yielded s site).blocked b = true → (yielded s site).used b = true
    rw [hused, hblocked]
    exact h.blockedUsed
  · intro b hb
    change (yielded s site).used b = true at hb
    change none = some b ∨ b = a ∨ b ∈ s.lined l ∨ (yielded s site).blocked b = true
    rw [hused] at hb
    rw [hblocked, mem_lined]
    rcases h.covered b hb with hhand | rfl | hmem | hwait
    · exact Or.inr (Or.inl (Option.some.inj hhand).symm)
    · by_cases hrunning : s.state s.current = running
      · exact Or.inr (Or.inr (Or.inl (Or.inr ⟨rfl, hrunning⟩)))
      · have hwait : s.blocked s.current = true := by
          cases hb : s.blocked s.current
          · exact absurd (hrole.mpr hb) hrunning
          · rfl
        exact Or.inr (Or.inr (Or.inr hwait))
    · exact Or.inr (Or.inr (Or.inl (Or.inl hmem)))
    · exact Or.inr (Or.inr (Or.inr hwait))
  · exact (dispatch_state _ _ a a).trans (if_pos rfl)
  · change (yielded s site).blocked a = false
    rw [hblocked]
    exact hafree

theorem Placed.addTask (h : Placed s l) (hlast : s.lastReady = l.getLast?)
    (hfree : s.used task = false) (e : BitVec 32) : Placed (addTask s task e) (l ++ [task]) := by
  have ht : task ∉ l := fun hmem => by simp [(h.spread.listed task hmem).1] at hfree
  have hc : s.current ≠ task := fun heq => by simp [← heq, h.spread.currentUsed] at hfree
  have hwait : s.blocked task = false := by
    by_contra hne
    simp [h.spread.blockedUsed task (by simpa using hne)] at hfree
  have hq := addTask_queue ⟨h.spread.linked, hlast⟩ ht e
  refine ⟨⟨hq.linked, ?_, ?_, ?_, ?_, by simp, ?_⟩, ?_, ?_⟩
  · intro b hb
    rw [addTask_used, addTask_blocked]
    rcases List.mem_append.mp hb with hb | hb
    · simp [(h.spread.listed b hb).1, (h.spread.listed b hb).2]
    · rw [List.mem_singleton.mp hb]
      simp [hwait]
  · rw [addTask_current]
    simp [h.spread.current, hc]
  · rw [addTask_current, addTask_used, h.spread.currentUsed]
    exact ite_self true
  · intro b hb
    rw [addTask_blocked] at hb
    rw [addTask_used, h.spread.blockedUsed b hb]
    exact ite_self true
  · intro b hb
    rw [addTask_used] at hb
    rw [addTask_current, addTask_blocked]
    by_cases hbt : b = task
    · simp [hbt]
    · rw [if_neg hbt] at hb
      simpa [hbt] using h.spread.covered b hb
  · rw [addTask_current, addTask_state, if_neg hc]
    exact h.currentRunning
  · rw [addTask_current, addTask_blocked]
    exact h.currentFree

theorem Spread.behindLast (h : Spread s (some task) l) (hlast : s.lastReady = l.getLast?)
    (hnone : s.next task = none) (hfirst : s.firstReady ≠ none)
    (hrunning : s.state s.current = running) (hcurrent : s.blocked s.current = false) :
    Placed (behindLast s task) (l ++ [task]) := by
  have hcore := sameCore_behindLast s task
  obtain ⟨ht, hc, hused, hfree⟩ := h.inHand task rfl
  have hq := behindLast_queue ⟨h.linked, hlast⟩ ht hnone hfirst
  refine ⟨⟨hq.linked, ?_, ?_, ?_, ?_, by simp, ?_⟩, ?_, ?_⟩
  · rw [hcore.used, hcore.blocked]
    intro b hb
    rcases List.mem_append.mp hb with hb | hb
    · exact h.listed b hb
    · exact List.mem_singleton.mp hb ▸ ⟨hused, hfree⟩
  · rw [hcore.current]
    simp [h.current, hc.symm]
  · rw [hcore.used, hcore.current]
    exact h.currentUsed
  · rw [hcore.used, hcore.blocked]
    exact h.blockedUsed
  · rw [hcore.used, hcore.blocked, hcore.current]
    intro b hb
    rcases h.covered b hb with hhand | hbc | hmem | hwait
    · simp [Option.some.inj hhand]
    · simp [hbc]
    · simp [hmem]
    · simp [hwait]
  · rw [hcore.current, behindLast_state]
    exact hrunning
  · rw [hcore.current, hcore.blocked]
    exact hcurrent

def Sched.TailOk (s : Sched) : Prop := ∃ l, Queue s.next s.firstReady s.lastReady l

theorem Sched.TailOk.last (h : s.TailOk) (hl : Linked s.next s.firstReady l) :
    s.lastReady = l.getLast? := by
  obtain ⟨l', hq⟩ := h
  rw [hq.unique hl]
  exact hq.last

/-- The calls that lose no task: a task is only put behind a tail that is the end of the
list and stays on it, is only blocked where there is another one to run, and is only linked
when it points nowhere. -/
def PlaceStepOk (s : Sched) : SchedCall → Prop
  | .createKernelTask _ => s.numTasks < 16 → s.TailOk
  | .schedule =>
    0 < s.postponeTaskSwitchesCounter ∨ s.firstReady = none ∨ (s.TailOk ∧ s.SpareTail)
  | .blockTask reason =>
    s.postponeTaskSwitchesCounter = 0 ∧ reason.setWidth 8 ≠ running ∧ s.firstReady ≠ none
  | .unblockTask task => s.TailOk ∧
      if s.Preempts then s.postponeTaskSwitchesCounter = 0 else s.next task = none
  | .releaseLock => s.postponeTaskSwitchesCounter = 1 → s.taskSwitchesPostponed = true →
      s.firstReady = none ∨ (s.TailOk ∧ s.SpareTail)
  | _ => True

theorem Placed.scheduled {r : Bool × Sched} (h : Placed s l) (hr : Scheduled s site r)
    (hok : 0 < s.postponeTaskSwitchesCounter ∨ s.firstReady = none ∨ (s.TailOk ∧ s.SpareTail)) :
    ∃ l', Placed r.2 l' := by
  cases hr with
  | postponed => exact ⟨l, h.aside ⟨_, _, _, _, _, _, _, rfl⟩⟩
  | empty => exact ⟨l, h⟩
  | onlyIdle hzero hfirst hidle hnext =>
    rcases hok with hlock | hempty | ⟨_, hspare⟩
    · omega
    · simp [hfirst] at hempty
    · exact absurd hnext (hspare.next_some hfirst hidle)
  | picked hzero hpop =>
    have hboth := (hok.resolve_left (by omega)).resolve_left hpop.first_ne
    obtain ⟨l', hspread, hlast⟩ := h.spread.popped hpop
    have hcore := sameCore_popped hpop
    have hq := hlast (hboth.2.ne_last hpop) (hboth.1.last h.spread.linked)
    rw [← hcore.current]
    refine ⟨_, hspread.dispatch ?_ (yielded_queue ⟨hspread.linked, hq⟩ hspread.current).linked⟩
    rw [popped_state hpop, hcore.current, hcore.blocked]
    simp [h.currentRunning, h.currentFree]

theorem Placed.marked (h : Placed s l) (reason : BitVec 32) : Spread (s.marked reason) none l := by
  refine ⟨?_, fun b hb => ?_, h.spread.current, h.spread.currentUsed, fun b hb => ?_, by simp,
    fun b hb => ?_⟩
  · rw [marked_next]
    exact h.spread.linked
  · have hbc : b ≠ s.current := fun heq => h.spread.current (heq ▸ hb)
    rw [marked_blocked, if_neg hbc]
    exact h.spread.listed b hb
  · rw [marked_blocked] at hb
    split at hb
    · rename_i hbc
      exact hbc ▸ h.spread.currentUsed
    · exact h.spread.blockedUsed b hb
  · rw [marked_blocked]
    by_cases hbc : b = s.current
    · exact Or.inr (Or.inl hbc)
    · rw [if_neg hbc]
      exact h.spread.covered b hb

theorem Spread.scheduled {r : Bool × Sched} (h : Spread s none l) (hr : Scheduled s site r)
    (hstate : s.state s.current ≠ running) (hwait : s.blocked s.current = true)
    (hzero : s.postponeTaskSwitchesCounter = 0) (hfirst : s.firstReady ≠ none) :
    ∃ l', Placed r.2 l' := by
  cases hr with
  | postponed hlock => omega
  | empty _ hempty => exact absurd hempty hfirst
  | onlyIdle _ _ _ _ hrunning => exact absurd hrunning hstate
  | picked _ hpop =>
    obtain ⟨l', hspread, _⟩ := h.popped hpop
    have hcore := sameCore_popped hpop
    rw [← hcore.current] at hstate hwait
    rw [← popped_state hpop] at hstate
    rw [← hcore.blocked] at hwait
    rw [← hcore.current]
    refine ⟨_, hspread.dispatch ?_ ?_⟩
    · simp [hstate, hwait]
    · rw [yielded_of_not_running hstate, Sched.lined, if_neg hstate]
      exact hspread.linked

theorem Placed.blockTask {reason : BitVec 32} (h : Placed s l)
    (hok : PlaceStepOk s (.blockTask reason)) : ∃ l', Placed (blockTask s reason) l' := by
  obtain ⟨hzero, hreason, hfirst⟩ := hok
  have hspread := (h.marked reason).aside (aside_noted _)
  have hstate : (s.marked reason).state s.current ≠ running := by
    rw [marked_state, if_pos rfl]
    exact hreason
  have hwait : (s.marked reason).blocked s.current = true := by
    rw [marked_blocked, if_pos rfl]
  obtain ⟨l', hl'⟩ := hspread.scheduled (schedule_cases _ .unlock) hstate hwait hzero hfirst
  exact ⟨l', hl'.aside (aside_finish _ _)⟩

theorem Placed.cleared (h : Placed s l) (hblocked : s.blocked task = true) :
    Spread (s.cleared task) (some task) l := by
  have hfree : ∀ b, s.blocked b = false → (s.cleared task).blocked b = false := by
    intro b hb
    rw [cleared_blocked, hb]
    exact ite_self false
  refine ⟨h.spread.linked, fun b hb => ?_, h.spread.current, h.spread.currentUsed, fun b hb => ?_,
    fun b hb => ?_, fun b hb => ?_⟩
  · exact ⟨(h.spread.listed b hb).1, hfree b (h.spread.listed b hb).2⟩
  · rw [cleared_blocked] at hb
    split at hb
    · simp at hb
    · exact h.spread.blockedUsed b hb
  · cases hb
    refine ⟨fun hmem => ?_, ?_, h.spread.blockedUsed task hblocked, ?_⟩
    · simp [(h.spread.listed task hmem).2] at hblocked
    · intro heq
      have hc : task = s.current := heq
      simp [hc, h.currentFree] at hblocked
    · rw [cleared_blocked, if_pos rfl]
  · rw [cleared_blocked]
    by_cases hbt : b = task
    · exact Or.inl (congrArg some hbt.symm)
    · rw [if_neg hbt]
      exact Or.inr ((h.spread.covered b hb).resolve_left (by simp))

theorem Placed.unblocked (h : Placed s l) (hblocked : s.blocked task = true)
    (hok : PlaceStepOk s (.unblockTask task)) (hu : Unblocked s task t) : ∃ l', Placed t l' := by
  obtain ⟨htail, hok⟩ := hok
  have hspread := h.cleared hblocked
  have hlast := htail.last h.spread.linked
  have hcurrent : (s.cleared task).blocked s.current = false := by
    rw [cleared_blocked, h.currentFree]
    exact ite_self false
  cases hu with
  | postponed hlock hpre =>
    rw [if_pos hpre] at hok
    omega
  | preempts hzero hpre haside =>
    have hrole : (s.cleared task).state (s.cleared task).current = running ↔
        (s.cleared task).blocked (s.cleared task).current = false :=
      ⟨fun _ => hcurrent, fun _ => h.currentRunning⟩
    refine ⟨_, (hspread.dispatch hrole ?_).aside haside⟩
    exact (yielded_queue ⟨hspread.linked, hlast⟩ hspread.current).linked
  | queued hpre haside =>
    rw [if_neg hpre] at hok
    have hfirst : s.firstReady ≠ none := fun heq => hpre (Or.inl heq)
    exact ⟨_, (hspread.behindLast hlast hok hfirst h.currentRunning hcurrent).aside haside⟩

theorem Placed.step (h : Placed s l) (hok : PlaceStepOk s c) (hs : s.step c = some t) :
    ∃ l', Placed t l' := by
  obtain ⟨rfl, hblocked, hheld⟩ := Sched.step_eq hs
  cases c with
  | createKernelTask e =>
    rcases createKernelTask_cases s e with heq | ⟨task, hroom, hfree, heq⟩
    · exact ⟨l, by simpa only [Sched.call, heq] using h⟩
    · have hlast := (hok hroom).last h.spread.linked
      exact ⟨_, by simpa only [Sched.call, heq] using h.addTask hlast hfree e⟩
  | lockScheduler => exact ⟨l, h.aside (aside_lockScheduler s)⟩
  | schedule =>
    have hnoted := h.aside (aside_noted s)
    obtain ⟨l', hl'⟩ := hnoted.scheduled (schedule_cases s.noted .schedule) hok
    exact ⟨l', hl'.aside (aside_finish _ _)⟩
  | unlockScheduler => exact ⟨l, h.aside (aside_unlockScheduler s)⟩
  | blockTask reason => exact h.blockTask hok
  | unblockTask task => exact h.unblocked (hblocked task rfl) hok (unblockTask_cases s task)
  | acquireLock => exact ⟨l, h.aside (aside_acquireLock s)⟩
  | releaseLock =>
    rcases releaseLock_cases s with ⟨hlast, hdue, hnoted, r, hr, hafter⟩ | haside
    · have hone : s.postponeTaskSwitchesCounter = 1 := by
        have := hheld rfl
        omega
      obtain ⟨l', hl'⟩ := (h.aside hnoted).scheduled hr (Or.inr (hok hone hdue))
      exact ⟨l', hl'.aside hafter⟩
    · exact ⟨l, h.aside haside⟩

theorem multitaskingInit_placed (idle : BitVec 32) : Placed (multitaskingInit unscheduled idle) [1] := by
  refine ⟨⟨⟨rfl, rfl⟩, fun b hb => ?_, ?_, rfl, fun b h => ?_, by simp, fun b hb => ?_⟩, rfl, rfl⟩
  · rw [List.mem_singleton.mp hb]
    exact ⟨rfl, rfl⟩
  · show (0 : TaskId) ∉ [1]
    decide
  · exact absurd h Bool.false_ne_true
  · rcases multitaskingInit_used hb with rfl | rfl
    · exact Or.inr (Or.inl rfl)
    · exact Or.inr (Or.inr (Or.inl (List.mem_singleton.mpr rfl)))

theorem no_task_lost (hrun : Runs.Reach Sched.step PlaceStepOk Sched.Booted s) : NoTaskLost s := by
  have hinv : ∃ l, Placed s l := by
    refine Runs.Reach.invariant (I := fun s => ∃ l, Placed s l) ?_ ?_ hrun
    · rintro _ ⟨idle, rfl⟩
      exact ⟨[1], multitaskingInit_placed idle⟩
    · rintro s c t ⟨l, h⟩ hok hs
      exact h.step hok hs
  obtain ⟨l, h⟩ := hinv
  exact h.noTaskLost

theorem no_task_lost_small : ∃ s, Runs.run Sched.step (multitaskingInit unscheduled 0x1000#32)
    [.createKernelTask 0x2000#32, .createKernelTask 0x3000#32, .schedule, .blockTask 2#32] = some s ∧
      s.current = 3 ∧ s.blocked 2 = true ∧ NoTaskLost s := by
  have h0 : Runs.Reach Sched.step PlaceStepOk Sched.Booted (multitaskingInit unscheduled 0x1000#32) :=
    .start ⟨_, rfl⟩
  have h1 := h0.next (SchedCall.createKernelTask 0x2000#32)
    (fun _ => ⟨[1], ⟨⟨by decide, linked_nil.mpr (by decide)⟩, by decide⟩⟩) rfl
  have h2 := h1.next (SchedCall.createKernelTask 0x3000#32)
    (fun _ => ⟨[1, 2], ⟨⟨by decide, by decide, linked_nil.mpr (by decide)⟩, by decide⟩⟩) rfl
  have h3 := h2.next SchedCall.schedule
    (Or.inr (Or.inr ⟨⟨[1, 2, 3], ⟨⟨by decide, by decide, by decide, linked_nil.mpr (by decide)⟩,
      by decide⟩⟩, by unfold Sched.SpareTail; decide⟩)) rfl
  have h4 := h3.next (SchedCall.blockTask 2#32) ⟨by decide, by decide, by decide⟩ rfl
  exact ⟨_, rfl, by decide, by decide, no_task_lost h4⟩

/-- With one task beside the idle task, `Schedule` loses the task that called it. -/
theorem task_lost : ¬∀ s, Runs.Reach Sched.step (fun _ _ => True) Sched.Booted s → NoTaskLost s := by
  intro hall
  have h0 : Runs.Reach Sched.step (fun _ _ => True) Sched.Booted
      (multitaskingInit unscheduled 0x1000#32) := .start ⟨_, rfl⟩
  have h1 := h0.next (SchedCall.createKernelTask 0x2000#32) trivial rfl
  have h2 := h1.next SchedCall.lockScheduler trivial rfl
  have h3 := h2.next SchedCall.schedule trivial rfl
  rcases hall _ h3 0 (by decide) with ⟨hcurrent, _⟩ | ⟨_, hready, _⟩ | ⟨_, _, hblocked⟩
  · exact absurd hcurrent (by decide)
  · exact absurd ((readyOnce_iff (l := [1]) ⟨by decide, linked_nil.mpr (by decide)⟩).mp hready)
      (by decide)
  · exact absurd hblocked (by decide)

end SplongleOS
