import SplongleOS.TaskPlaces
set_option autoImplicit false

/-! Where `unblock_task` puts a task. Behind the last ready task it neither clears the
pointer the task was left with nor marks the task READY_TO_RUN, and while switches are
postponed it may not put it anywhere. -/

namespace SplongleOS
open Chain

variable {s t : Sched} {task : TaskId} {l : List TaskId}

structure Enqueued (s t : Sched) (task : TaskId) (l : List TaskId) : Prop where
  nonempty : l ≠ []
  busy : some s.current ≠ s.idleTask
  queue : Queue t.next t.firstReady t.lastReady (l ++ [task])
  state : t.state task = readyToRun

structure Preempted (s t : Sched) (task : TaskId) (l : List TaskId) : Prop where
  current : t.current = task
  state : t.state task = running
  last : s.state s.current = running →
    Queue t.next t.firstReady t.lastReady (l ++ [s.current])

/-- What is expected of the state `t` that `unblock_task` leaves. -/
structure WellUnblocked (s t : Sched) (task : TaskId) (l : List TaskId) : Prop where
  placed : Enqueued s t task l ∨ Preempted s t task l
  postponed : 0 < s.postponeTaskSwitchesCounter → t.ReadyOnce task

theorem preempts_iff (hqueue : Queue s.next s.firstReady s.lastReady l) :
    s.Preempts ↔ l = [] ∨ some s.current = s.idleTask :=
  or_congr_left hqueue.linked.eq_nil_iff.symm

theorem unlisted_of_postponed (hqueue : Queue s.next s.firstReady s.lastReady l) (htask : task ∉ l)
    (haside : Aside (s.cleared task) t) : ¬t.ReadyOnce task := by
  obtain ⟨_, _, _, _, _, _, _, rfl⟩ := haside
  exact fun honce => htask ((readyOnce_iff hqueue.linked).mp honce)

theorem preempted_of_dispatch (hqueue : Queue s.next s.firstReady s.lastReady l)
    (hcurrent : s.current ∉ l)
    (haside : Aside (dispatch (yielded (s.cleared task) .unlock) s.current task) t) :
    Preempted s t task l := by
  obtain ⟨_, _, _, _, _, _, _, rfl⟩ := haside
  refine ⟨rfl, ?_, fun hrunning => ?_⟩
  · exact (dispatch_state (yielded (s.cleared task) .unlock) s.current task task).trans (if_pos rfl)
  · have hline : (s.cleared task).lined l = l ++ [s.current] := if_pos hrunning
    have hyield : Queue (yielded (s.cleared task) .unlock).next
        (yielded (s.cleared task) .unlock).firstReady (yielded (s.cleared task) .unlock).lastReady
        ((s.cleared task).lined l) := yielded_queue hqueue hcurrent
    rw [hline, ← dispatch_next _ s.current task] at hyield
    exact hyield

/-- The list behind the last task is what the task itself points to. -/
theorem enqueued_iff (hqueue : Queue s.next s.firstReady s.lastReady l) (htask : task ∉ l)
    (hpre : ¬s.Preempts) (haside : Aside (behindLast (s.cleared task) task) t) :
    Enqueued s t task l ↔ s.next task = none ∧ s.state task = readyToRun := by
  have hnot := mt (preempts_iff hqueue).mpr hpre
  obtain ⟨_, _, _, _, _, _, _, rfl⟩ := haside
  have hstate : (behindLast (s.cleared task) task).state task = s.state task :=
    behindLast_state _ task task
  constructor
  · intro h
    refine ⟨?_, hstate.symm.trans h.state⟩
    have hend : (behindLast (s.cleared task) task).next task = none := h.queue.linked.last_next
    rw [behindLast_next] at hend
    have hself : ¬(s.cleared task).lastReady = some task := fun heq => htask (hqueue.last_mem heq)
    rwa [if_neg hself] at hend
  · rintro ⟨hnext, hready⟩
    have hfirst : s.firstReady ≠ none := fun heq => hpre (Or.inl heq)
    exact ⟨fun hnil => hnot (Or.inl hnil), fun hidle => hnot (Or.inr hidle),
      behindLast_queue (s := s.cleared task) hqueue htask hnext hfirst, hstate.trans hready⟩

/-- Where others are ready `unblock_task` needs a task that points nowhere and is marked
READY_TO_RUN already, and elsewhere that no lock is held. -/
theorem unblock_task_iff (s : Sched) (task : TaskId) (l : List TaskId)
    (hqueue : Queue s.next s.firstReady s.lastReady l) (hcurrent : s.current ∉ l)
    (htask : task ∉ l) (hblocked : s.state task ≠ running) :
    WellUnblocked s (unblockTask s task) task l ↔
      if s.Preempts then s.postponeTaskSwitchesCounter = 0
      else s.next task = none ∧ s.state task = readyToRun := by
  have hcase := unblockTask_cases s task
  generalize unblockTask s task = t at hcase
  cases hcase with
  | postponed hlock hpre haside =>
    rw [if_pos hpre]
    refine iff_of_false (fun h => ?_) (by omega)
    exact unlisted_of_postponed hqueue htask haside (h.postponed hlock)
  | preempts hzero hpre haside =>
    rw [if_pos hpre]
    refine iff_of_true ⟨Or.inr ?_, fun hlock => ?_⟩ hzero
    · exact preempted_of_dispatch hqueue hcurrent haside
    · omega
  | queued hpre haside =>
    rw [if_neg hpre, ← enqueued_iff hqueue htask hpre haside]
    constructor
    · intro h
      have hkept : t.state task = s.state task := by
        obtain ⟨_, _, _, _, _, _, _, rfl⟩ := haside
        exact behindLast_state (s.cleared task) task task
      exact h.placed.resolve_right fun hrun => hblocked (hkept.symm.trans hrun.state)
    · intro h
      exact ⟨Or.inl h, fun _ => (readyOnce_iff h.queue.linked).mpr (by simp)⟩

theorem unblock_task_small :
    let s := (((multitaskingInit unscheduled 0x1000#32).call (.createKernelTask 0x2000#32)).call
      (.createKernelTask 0x3000#32)).call (.blockTask 1#32)
    WellUnblocked s (unblockTask s 0) 0 [1, 3] := by
  intro s
  exact (unblock_task_iff s 0 [1, 3] ⟨⟨rfl, rfl, rfl⟩, rfl⟩ (by decide) (by decide)
    (by decide)).mpr (by decide)

def TurnCall (_ : Sched) : SchedCall → Prop
  | .createKernelTask _ | .schedule | .blockTask _ => True
  | _ => False

/-- Task 2 has been taken off the list once before it waits, and still points to task 3,
which points to the last ready task: behind that one it closes a cycle. -/
theorem unblock_task_cycle : ∃ s, Runs.Reach Sched.step TurnCall Sched.Booted s ∧
    Queue s.next s.firstReady s.lastReady [1, 0] ∧ s.current ∉ [1, 0] ∧ s.blocked 2 = true ∧
      s.state 2 ≠ running ∧ ¬WellUnblocked s (unblockTask s 2) 2 [1, 0] ∧
        ∀ l, ¬Linked (unblockTask s 2).next (unblockTask s 2).firstReady l := by
  have h0 : Runs.Reach Sched.step TurnCall Sched.Booted (multitaskingInit unscheduled 0x1000#32) :=
    .start ⟨_, rfl⟩
  have h1 := h0.next (SchedCall.createKernelTask 0x2000#32) trivial rfl
  have h2 := h1.next (SchedCall.createKernelTask 0x3000#32) trivial rfl
  have h3 := h2.next SchedCall.schedule trivial rfl
  have h4 := h3.next (SchedCall.blockTask 2#32) trivial rfl
  refine ⟨_, h4, ⟨⟨rfl, rfl, rfl⟩, rfl⟩, by decide, by decide, by decide, fun h => ?_, fun l hl => ?_⟩
  · rcases h.placed with hlisted | hrun
    · exact absurd hlisted.state (by decide)
    · exact absurd hrun.current (by decide)
  · have hmem : (0 : TaskId) ∈ l := hl.visited_iff.mp ⟨1, by decide⟩
    obtain ⟨k, _, honce⟩ := hl.exists_unique_visit hmem
    have hfirst := honce 1 (by decide)
    have hagain := honce 4 (by decide)
    omega

end SplongleOS
