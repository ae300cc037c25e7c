import SplongleOS.SchedSteps
set_option autoImplicit false

/-! What the scheduler's steps do to the chain of ready tasks: taking one off, putting the
previous task back, and adding a new one. -/

namespace SplongleOS
open Chain

variable {s t u : Sched} {a task : TaskId} {l : List TaskId} {site : Resume}

/-- `task` is reachable from `g_first_ready` through `next`. -/
def Sched.Ready (s : Sched) (task : TaskId) : Prop := ∃ k, visit s.next s.firstReady k = some task

theorem ready_iff (h : Linked s.next s.firstReady l) : s.Ready task ↔ task ∈ l := h.visited_iff

/-- What `Schedule` takes off the list is not the last task of it. -/
def Sched.SpareTail (s : Sched) : Prop :=
  ∀ a, s.firstReady = some a →
    if some a = s.idleTask then ∃ b, s.next a = some b ∧ s.lastReady ≠ some b
    else s.lastReady ≠ some a

theorem Sched.SpareTail.ne_last (h : s.SpareTail) (hpop : Popped s a u) : s.lastReady ≠ some a := by
  cases hpop with
  | head hfirst hidle =>
    have hspare := h a hfirst
    split at hspare
    · rename_i heq
      obtain ⟨b, hb, _⟩ := hspare
      rw [(hidle heq).1] at hb
      exact absurd hb.symm (Option.some_ne_none b)
    · exact hspare
  | behindIdle hfirst hidle hnext =>
    have hspare := h _ hfirst
    rw [if_pos hidle] at hspare
    obtain ⟨b, hb, hne⟩ := hspare
    rw [hnext] at hb
    rwa [Option.some.inj hb]

theorem Sched.SpareTail.next_some (h : s.SpareTail) (hfirst : s.firstReady = some a)
    (hidle : some a = s.idleTask) : s.next a ≠ none := by
  have hspare := h a hfirst
  rw [if_pos hidle] at hspare
  obtain ⟨b, hb, _⟩ := hspare
  rw [hb]
  exact Option.some_ne_none b

theorem Popped.place (hlinked : Linked s.next s.firstReady l) (h : Popped s a u) :
    (∃ rest, l = a :: rest ∧ u = { s with firstReady := s.next a } ∧
      (some a = s.idleTask → rest = [] ∧ s.state s.current ≠ running)) ∨
    ∃ idle rest, l = idle :: a :: rest ∧ some idle = s.idleTask ∧ idle ≠ a ∧
      u = { s.setNext idle (s.next a) with firstReady := some idle } := by
  cases h with
  | head hfirst hidle =>
    cases l with
    | nil => exact absurd (hfirst.symm.trans hlinked) (Option.some_ne_none a)
    | cons b rest =>
      have hab : a = b := Option.some.inj (hfirst.symm.trans hlinked.1)
      subst hab
      refine Or.inl ⟨rest, rfl, rfl, fun heq => ?_⟩
      obtain ⟨hnext, hstate⟩ := hidle heq
      exact ⟨hlinked.2.eq_nil_iff.mpr hnext, hstate⟩
  | @behindIdle idle a hfirst hidle hnext =>
    cases l with
    | nil => exact absurd (hfirst.symm.trans hlinked) (Option.some_ne_none idle)
    | cons b rest =>
      have hib : idle = b := Option.some.inj (hfirst.symm.trans hlinked.1)
      subst hib
      cases rest with
      | nil => exact absurd (hnext.symm.trans hlinked.2) (Option.some_ne_none a)
      | cons c rest =>
        have hac : a = c := Option.some.inj (hnext.symm.trans hlinked.2.1)
        subst hac
        have hne : idle ≠ a := by
          rintro rfl
          simpa using hlinked.nodup
        exact Or.inr ⟨idle, rest, rfl, hidle, hne, rfl⟩

/-- Taking a task off leaves the others, in their order, and the tail where it was unless
it was the task taken. -/
theorem popped_linked (hlinked : Linked s.next s.firstReady l) (h : Popped s a u) :
    Linked u.next u.firstReady (l.erase a) ∧ a ∈ l ∧
      (s.lastReady ≠ some a → s.lastReady = l.getLast? →
        u.lastReady = (l.erase a).getLast?) := by
  rcases h.place hlinked with ⟨rest, rfl, rfl, _⟩ | ⟨idle, rest, rfl, _, hne, rfl⟩
  · rw [List.erase_cons_head]
    refine ⟨hlinked.2, List.mem_cons_self, fun hspare hlast => ?_⟩
    have hqueue : Queue s.next s.firstReady s.lastReady (a :: rest) := ⟨hlinked, hlast⟩
    exact (hqueue.pop hspare).last
  · rw [List.erase_cons_tail (by simpa using hne), List.erase_cons_head]
    have hkeep : ∀ b ∈ rest, (s.setNext idle (s.next a)).next b = s.next b := by
      intro b hb
      have hnodup := hlinked.nodup
      have hbi : b ≠ idle := by
        rintro rfl
        simp [hb] at hnodup
      exact (setNext_next s idle _ b).trans (if_neg hbi)
    have hidle : (s.setNext idle (s.next a)).next idle = s.next a :=
      (setNext_next s idle _ idle).trans (if_pos rfl)
    refine ⟨⟨rfl, ?_⟩, List.mem_cons_of_mem idle List.mem_cons_self, fun hspare hlast => ?_⟩
    · show Linked (s.setNext idle (s.next a)).next ((s.setNext idle (s.next a)).next idle) rest
      rw [hidle]
      exact hlinked.2.2.congr hkeep
    · have hqueue : Queue s.next s.firstReady s.lastReady (idle :: a :: rest) := ⟨hlinked, hlast⟩
      exact (hqueue.popSecond hspare hidle hkeep).last

def Sched.lined (s : Sched) (l : List TaskId) : List TaskId :=
  if s.state s.current = running then l ++ [s.current] else l

theorem mem_lined : task ∈ s.lined l ↔ task ∈ l ∨ (task = s.current ∧ s.state s.current = running) := by
  unfold Sched.lined
  split <;> simp [*]

theorem yielded_queue (h : Queue s.next s.firstReady s.lastReady l) (hcurrent : s.current ∉ l) :
    Queue (yielded s site).next (yielded s site).firstReady (yielded s site).lastReady
      (s.lined l) := by
  unfold Sched.lined
  by_cases hrunning : s.state s.current = running
  · rw [if_pos hrunning, yielded_of_running hrunning]
    exact queue_putBack (s := { s with resume := Function.update s.resume s.current site }) h hcurrent
  · rw [if_neg hrunning, yielded_of_not_running hrunning]
    exact h

theorem yielded_linked (h : Linked s.next s.firstReady l) (hcurrent : s.current ∉ l) :
    ∃ l', Linked (yielded s site).next (yielded s site).firstReady l' ∧ ∀ b ∈ l', b ∈ s.lined l := by
  by_cases hrunning : s.state s.current = running
  · rw [yielded_of_running hrunning]
    let r : Sched := { s with resume := Function.update s.resume s.current site }
    have hself : (putBack r s.current).next s.current = none := by
      rw [putBack_next, if_pos rfl]
    have hmem : ∀ b, b ∈ l ∨ b = s.current → b ∈ s.lined l := by
      intro b hb
      exact mem_lined.mpr (hb.imp_right fun h => ⟨h, hrunning⟩)
    by_cases hlast : s.lastReady = none
    · have hfirst := (putBack_first r s.current).trans (if_pos hlast)
      exact ⟨[s.current], ⟨hfirst, hself⟩, fun b hb => hmem b (Or.inr (List.mem_singleton.mp hb))⟩
    · have hfirst := (putBack_first r s.current).trans (if_neg hlast)
      have hkeep : ∀ b ∈ l, s.lastReady ≠ some b → (putBack r s.current).next b = s.next b := by
        intro b hb hne
        have hbc : b ≠ s.current := fun heq => hcurrent (heq ▸ hb)
        rw [putBack_next, if_neg hbc]
        exact if_neg hne
      by_cases htail : s.lastReady = some s.current
      · have hkeep' : ∀ b ∈ l, (putBack r s.current).next b = s.next b := by
          intro b hb
          refine hkeep b hb fun heq => hcurrent ?_
          rwa [Option.some.inj (htail.symm.trans heq)]
        refine ⟨l, ?_, fun b hb => hmem b (Or.inl hb)⟩
        rw [hfirst]
        exact h.congr hkeep'
      · have hend : ∀ z, s.lastReady = some z → (putBack r s.current).next z = some s.current := by
          intro z hz
          have hzc : z ≠ s.current := fun heq => htail (heq ▸ hz)
          rw [putBack_next, if_neg hzc]
          exact if_pos hz
        obtain ⟨l', hl', hsub⟩ := h.relink hkeep hend hself
        refine ⟨l', ?_, fun b hb => hmem b (hsub b hb)⟩
        rw [hfirst]
        exact hl'
  · rw [yielded_of_not_running hrunning]
    exact ⟨l, h, fun b hb => mem_lined.mpr (Or.inl hb)⟩

theorem addTask_next (s : Sched) (task : TaskId) (e : BitVec 32) (b : TaskId) :
    (addTask s task e).next b =
      if s.lastReady = some b then some task else if b = task then none else s.next b := by
  unfold addTask
  refine (linkReady_next _ task b).trans (if_congr Iff.rfl rfl ?_)
  unfold Sched.next
  by_cases h : b = task
  · subst h
    simp
  · simp [h]

theorem addTask_last (s : Sched) (task : TaskId) (e : BitVec 32) :
    (addTask s task e).lastReady = some task := linkReady_last _ task

theorem addTask_queue (h : Queue s.next s.firstReady s.lastReady l) (ht : task ∉ l) (e : BitVec 32) :
    Queue (addTask s task e).next (addTask s task e).firstReady (addTask s task e).lastReady
      (l ++ [task]) := by
  rw [addTask_last]
  refine h.push (fun b hb hne => ?_) (fun z hz => ?_) ?_ (linkReady_first _ task)
  · have hbt : b ≠ task := fun heq => ht (heq ▸ hb)
    rw [addTask_next, if_neg hne, if_neg hbt]
  · rw [addTask_next, if_pos hz]
  · have hself : s.lastReady ≠ some task := fun heq => ht (h.last_mem heq)
    rw [addTask_next, if_neg hself, if_pos rfl]

theorem addTask_linked (h : Linked s.next s.firstReady l) (ht : task ∉ l)
    (hlast : s.lastReady ≠ some task) (e : BitVec 32) :
    ∃ l', Linked (addTask s task e).next (addTask s task e).firstReady l' ∧
      ∀ b ∈ l', b ∈ l ∨ b = task := by
  have hself : (addTask s task e).next task = none := by
    rw [addTask_next, if_neg hlast, if_pos rfl]
  have hfirst : (addTask s task e).firstReady =
      if s.lastReady = none then some task else s.firstReady := linkReady_first _ task
  rw [hfirst]
  by_cases hnone : s.lastReady = none
  · rw [if_pos hnone]
    exact ⟨[task], ⟨rfl, hself⟩, fun b hb => Or.inr (List.mem_singleton.mp hb)⟩
  · rw [if_neg hnone]
    have hkeep : ∀ b ∈ l, s.lastReady ≠ some b → (addTask s task e).next b = s.next b := by
      intro b hb hne
      have hbt : b ≠ task := fun heq => ht (heq ▸ hb)
      rw [addTask_next, if_neg hne, if_neg hbt]
    have hend : ∀ z, s.lastReady = some z → (addTask s task e).next z = some task := by
      intro z hz
      rw [addTask_next, if_pos hz]
    exact h.relink hkeep hend hself

theorem addTask_used (s : Sched) (task : TaskId) (e : BitVec 32) (b : TaskId) :
    (addTask s task e).used b = if b = task then true else s.used b := by
  have h := (sameCore_linkReady
    { s with
      used := Function.update s.used task true
      tasks := Function.update s.tasks task ⟨none, readyToRun, s.nextTaskId, e⟩
      nextTaskId := s.nextTaskId + 1#32
      resume := Function.update s.resume task .entry
      numTasks := s.numTasks + 1 } task).used
  refine (congrFun h b).trans ?_
  by_cases hb : b = task <;> simp [hb]

theorem addTask_current (s : Sched) (task : TaskId) (e : BitVec 32) :
    (addTask s task e).current = s.current := (sameCore_linkReady _ task).current

theorem addTask_blocked (s : Sched) (task : TaskId) (e : BitVec 32) :
    (addTask s task e).blocked = s.blocked := (sameCore_linkReady _ task).blocked

theorem addTask_state (s : Sched) (task : TaskId) (e : BitVec 32) (b : TaskId) :
    (addTask s task e).state b = if b = task then readyToRun else s.state b := by
  unfold addTask
  refine (linkReady_state _ task b).trans ?_
  unfold Sched.state
  by_cases h : b = task
  · subst h
    simp
  · simp [h]

theorem behindLast_queue (h : Queue s.next s.firstReady s.lastReady l) (ht : task ∉ l)
    (hnone : s.next task = none) (hfirst : s.firstReady ≠ none) :
    Queue (behindLast s task).next (behindLast s task).firstReady (behindLast s task).lastReady
      (l ++ [task]) := by
  have hlast : s.lastReady ≠ none := fun heq => hfirst (h.first_none_iff.mpr heq)
  refine h.push (fun b _ hne => ?_) (fun b hb => ?_) ?_ ?_
  · rw [behindLast_next, if_neg hne]
  · rw [behindLast_next, if_pos hb]
  · rw [behindLast_next, if_neg fun heq => ht (h.last_mem heq), hnone]
  · rw [if_neg hlast, behindLast_first]

end SplongleOS
