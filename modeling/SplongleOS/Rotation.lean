import SplongleOS.Base.RoundRobin
import SplongleOS.ReadyChain
set_option autoImplicit false

/-! Whether `Schedule` is a turn of round robin. The task it takes off may be the last of
the list: then `g_last_ready` stays on it, and `switch_to_task` links the previous task
behind a task that is no longer listed. -/

namespace SplongleOS
open Chain

variable {s t u : Sched} {a c : TaskId} {l : List TaskId} {site : Resume}
  {r : RoundRobin.State TaskId}

def Sched.isIdle (s : Sched) (t : TaskId) : Bool := decide (some t = s.idleTask)

/-- The current task is the one that runs, and the ready list is the line of the others. -/
structure Sched.Represents (s : Sched) (r : RoundRobin.State TaskId) : Prop where
  current : s.current = r.running
  queue : Queue s.next s.firstReady s.lastReady r.ready
  apart : s.current ∉ r.ready

theorem Sched.Represents.distinct (h : s.Represents r) : r.Distinct :=
  List.nodup_cons.mpr ⟨h.current ▸ h.apart, h.queue.linked.nodup⟩

theorem Sched.Represents.aside (h : s.Represents r) (ha : Aside s t) : t.Represents r := by
  obtain ⟨_, _, _, _, _, _, _, rfl⟩ := ha
  exact ⟨h.current, h.queue, h.apart⟩

/-- At least two tasks wait, or three when the idle task is the first of them. -/
def RoomToTurn (idle : Option TaskId) (l : List TaskId) : Prop :=
  if l.head? = idle then 3 ≤ l.length else 2 ≤ l.length

instance (idle : Option TaskId) (l : List TaskId) : Decidable (RoomToTurn idle l) :=
  inferInstanceAs (Decidable (if l.head? = idle then 3 ≤ l.length else 2 ≤ l.length))

theorem popped_first (hqueue : Queue s.next s.firstReady s.lastReady l)
    (hrunning : s.state s.current = running) (h : Popped s a u) :
    (l.find? fun t => !s.isIdle t) = some a ∧ (s.lastReady ≠ some a ↔ RoomToTurn s.idleTask l) := by
  have hnodup := hqueue.linked.nodup
  rcases h.place hqueue.linked with ⟨rest, rfl, _, hidle⟩ | ⟨idle, rest, rfl, hidle, hne, _⟩
  · have hbusy : some a ≠ s.idleTask := fun heq => (hidle heq).2 hrunning
    refine ⟨List.find?_cons_of_pos (by simpa [Sched.isIdle] using hbusy), ?_⟩
    rw [hqueue.last, getLast?_ne_head hnodup, RoomToTurn, List.head?_cons, if_neg hbusy,
      ← List.length_pos_iff, List.length_cons]
    omega
  · have hbusy : some a ≠ s.idleTask := by
      rw [← hidle]
      simpa using hne.symm
    refine ⟨?_, ?_⟩
    · rw [List.find?_cons_of_neg (by simpa [Sched.isIdle] using hidle)]
      exact List.find?_cons_of_pos (by simpa [Sched.isIdle] using hbusy)
    · rw [hqueue.last, List.getLast?_cons_cons, getLast?_ne_head (List.nodup_cons.mp hnodup).2,
        RoomToTurn, List.head?_cons, if_pos hidle, ← List.length_pos_iff, List.length_cons,
        List.length_cons]
      omega

/-- Behind a tail that has been taken off, the previous task is on no list: the pointers of
the listed tasks stay as they are. -/
theorem stale_tail (hlinked : Linked u.next u.firstReady l) (hcurrent : u.current ∉ l)
    (hrunning : u.state u.current = running) (hlast : u.lastReady = some a) (ha : a ∉ l) :
    Linked (yielded u site).next (yielded u site).firstReady l := by
  rw [yielded_of_running hrunning]
  have hfirst : (putBack { u with resume := Function.update u.resume u.current site }
      u.current).firstReady = u.firstReady := by
    rw [putBack_first]
    exact if_neg (by simp [hlast])
  rw [hfirst]
  refine hlinked.congr fun b hb => ?_
  have hbc : b ≠ u.current := fun heq => hcurrent (heq ▸ hb)
  have hba : ¬u.lastReady = some b := by
    rw [hlast]
    intro heq
    exact ha (Option.some.inj heq ▸ hb)
  rw [putBack_next, if_neg hbc]
  exact if_neg hba

theorem picked_queue_iff (hqueue : Queue s.next s.firstReady s.lastReady l)
    (hcurrent : s.current ∉ l) (hrunning : s.state s.current = running) (h : Popped s a u) :
    Queue (yielded u site).next (yielded u site).firstReady (yielded u site).lastReady
      (l.erase a ++ [s.current]) ↔ s.lastReady ≠ some a := by
  have hcore := sameCore_popped h
  obtain ⟨hlinked, _, hlast⟩ := popped_linked hqueue.linked h
  have hcu : u.current ∉ l.erase a := by
    rw [hcore.current]
    exact fun hmem => hcurrent (List.mem_of_mem_erase hmem)
  have hru : u.state u.current = running := by
    rw [hcore.current, popped_state h, hrunning]
  constructor
  · intro hq heq
    have hae : a ∉ l.erase a := hqueue.linked.nodup.not_mem_erase
    have hstale : Linked (yielded u site).next (yielded u site).firstReady (l.erase a) :=
      stale_tail hlinked hcu hru ((popped_last h).trans heq) hae
    have hlen := congrArg List.length (hq.linked.unique hstale)
    simp at hlen
  · intro hne
    have hq : Queue (yielded u site).next (yielded u site).firstReady (yielded u site).lastReady
        (u.lined (l.erase a)) := yielded_queue ⟨hlinked, hlast hne hqueue.last⟩ hcu
    rw [Sched.lined, if_pos hru, hcore.current] at hq
    exact hq

/-- `Schedule` from a running task is a turn of round robin when the list has room, and
only then. -/
theorem schedule_turn_iff (s : Sched) (r : RoundRobin.State TaskId) (site : Resume)
    (hrep : s.Represents r) (hne : r.ready ≠ []) (hrunning : s.state s.current = running)
    (hlock : s.postponeTaskSwitchesCounter = 0) :
    (schedule s site).2.Represents (r.turn s.isIdle) ↔ RoomToTurn s.idleTask r.ready := by
  have hdistinct := hrep.distinct.turn s.isIdle
  obtain ⟨c, l⟩ := r
  obtain ⟨rfl, hqueue, hcurrent⟩ := hrep
  have hcase := schedule_cases s.noted site
  rw [schedule]
  generalize scheduleBody s.noted site = result at hcase
  cases hcase with
  | postponed hheld =>
    have hheld' : 0 < s.postponeTaskSwitchesCounter := hheld
    omega
  | empty _ hfirst => exact absurd (hqueue.linked.eq_nil_iff.mpr hfirst) hne
  | @onlyIdle idle _ hfirst hidle hnext _ =>
    change some idle = s.idleTask at hidle
    have hl : l = [idle] := hqueue.linked.unique ⟨hfirst, hnext⟩
    subst hl
    have hroom : ¬RoomToTurn s.idleTask [idle] := by
      rw [RoomToTurn, List.head?_cons, if_pos hidle]
      simp
    have hsame : RoundRobin.State.turn s.isIdle ⟨s.current, [idle]⟩ = ⟨s.current, [idle]⟩ :=
      RoundRobin.turn_of_all_skipped (by simpa [Sched.isIdle] using hidle)
    rw [hsame]
    refine iff_of_false (fun h => ?_) hroom
    exact absurd h.queue.linked.1 (Option.some_ne_none idle).symm
  | @picked a u _ hpop =>
    obtain ⟨hfind, htail⟩ := popped_first (s := s.noted) hqueue hrunning hpop
    have hturn : RoundRobin.State.turn s.isIdle ⟨s.current, l⟩ = ⟨a, l.erase a ++ [s.current]⟩ :=
      RoundRobin.turn_of_find hfind
    have hqueue' : Queue (yielded u site).next (yielded u site).firstReady
        (yielded u site).lastReady (l.erase a ++ [s.current]) ↔ RoomToTurn s.idleTask l :=
      (picked_queue_iff (s := s.noted) hqueue hcurrent hrunning hpop).trans htail
    have hnext := dispatch_next (yielded u site) s.current a
    rw [hturn] at hdistinct ⊢
    rw [← hqueue', ← hnext]
    exact ⟨fun h => h.queue, fun h => ⟨rfl, h, (List.nodup_cons.mp hdistinct).1⟩⟩

theorem schedule_turn_small :
    let s := ((multitaskingInit unscheduled 0x1000#32).call (.createKernelTask 0x2000#32)).call
      (.createKernelTask 0x3000#32)
    s.Represents ⟨0, [1, 2, 3]⟩ ∧ (schedule s .schedule).2.Represents ⟨2, [1, 3, 0]⟩ := by
  intro s
  have hrep : s.Represents ⟨0, [1, 2, 3]⟩ := ⟨rfl, ⟨⟨rfl, rfl, rfl, rfl⟩, rfl⟩, by decide⟩
  exact ⟨hrep, (schedule_turn_iff s _ .schedule hrep (by decide) rfl rfl).mpr (by decide)⟩

/-- The list with nothing but the idle task is emptied, and with one task beside it the
previous task is on no list. -/
theorem schedule_turn_fails :
    let s := multitaskingInit unscheduled 0x1000#32
    let t := s.call (.createKernelTask 0x2000#32)
    (s.Represents ⟨0, [1]⟩ ∧
      ¬(schedule s .schedule).2.Represents (RoundRobin.State.turn s.isIdle ⟨0, [1]⟩)) ∧
    t.Represents ⟨0, [1, 2]⟩ ∧
      ¬(schedule t .schedule).2.Represents (RoundRobin.State.turn t.isIdle ⟨0, [1, 2]⟩) := by
  intro s t
  refine ⟨⟨⟨rfl, ⟨⟨rfl, rfl⟩, rfl⟩, by decide⟩, fun h => ?_⟩,
    ⟨rfl, ⟨⟨rfl, rfl, rfl⟩, rfl⟩, by decide⟩, fun h => ?_⟩
  · have hfirst : (schedule s .schedule).2.firstReady = some 1 := h.queue.linked.1
    exact absurd hfirst (by decide)
  · have hnext : (schedule t .schedule).2.next 1 = some 0 := h.queue.linked.2.1
    exact absurd hnext (by decide)

theorem scheduled_running {x : Bool × Sched} (hrunning : s.state s.current = running)
    (h : Scheduled s site x) : x.2.state x.2.current = running ∧
      x.2.postponeTaskSwitchesCounter = s.postponeTaskSwitchesCounter ∧
      x.2.idleTask = s.idleTask := by
  cases h with
  | postponed => exact ⟨hrunning, rfl, rfl⟩
  | empty => exact ⟨hrunning, rfl, rfl⟩
  | onlyIdle => exact ⟨hrunning, rfl, rfl⟩
  | @picked a u _ hpop =>
    have hcore := sameCore_popped hpop
    have hyield := sameCore_yielded u site
    refine ⟨?_, hyield.counter.trans hcore.counter, hyield.idleTask.trans hcore.idleTask⟩
    exact (dispatch_state _ _ _ a).trans (if_pos rfl)

theorem schedule_turns (n : Nat) (hrep : s.Represents r) (hroom : 3 ≤ r.ready.length)
    (hrunning : s.state s.current = running) (hlock : s.postponeTaskSwitchesCounter = 0) :
    (callSchedule^[n] s).Represents ((RoundRobin.State.turn s.isIdle)^[n] r) := by
  induction n generalizing s r with
  | zero => exact hrep
  | succ n ih =>
    have hne : r.ready ≠ [] := by
      intro hnil
      simp [hnil] at hroom
    have hroom' : RoomToTurn s.idleTask r.ready := by
      unfold RoomToTurn
      split <;> omega
    have hturn := (schedule_turn_iff s r .schedule hrep hne hrunning hlock).mpr hroom'
    obtain ⟨hrun, hcounter, hidle⟩ := scheduled_running (s := s.noted) hrunning
      (schedule_cases s.noted .schedule)
    have hstep := hturn.aside (aside_finish .schedule _)
    obtain ⟨irq, interrupts, hcall⟩ := finish_eq .schedule (schedule s .schedule)
    have hcall' : callSchedule s = { (schedule s .schedule).2 with
      irqDisableCounter := irq, interrupts := interrupts } := hcall
    have hskip : (callSchedule s).isIdle = s.isIdle := by
      funext t
      rw [hcall']
      exact congrArg (fun idle => decide (some t = idle)) hidle
    rw [Function.iterate_succ_apply, Function.iterate_succ_apply, ← hskip]
    refine ih (hskip ▸ hstep) ?_ ?_ ?_
    · rw [RoundRobin.length_turn]
      exact hroom
    · rw [hcall']
      exact hrun
    · rw [hcall']
      exact hcounter.trans hlock

end SplongleOS
