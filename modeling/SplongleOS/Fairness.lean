import SplongleOS.Rotation
set_option autoImplicit false

/-! How long a task waits for the processor. -/

namespace SplongleOS

variable {s : Sched} {r : RoundRobin.State TaskId}

theorem turn_iterate_perm (skip : TaskId → Bool) (r : RoundRobin.State TaskId) (n : Nat) :
    let u := (RoundRobin.State.turn skip)^[n] r
    (u.running :: u.ready).Perm (r.running :: r.ready) := by
  induction n generalizing r with
  | zero => exact List.Perm.refl _
  | succ n ih => exact (ih (r.turn skip)).trans (RoundRobin.turn_perm skip r)

/-- With three tasks waiting no task starves, and the wait is known: from one `Schedule` to the
next, a waiting task other than the idle task runs after exactly the other tasks before it, the
idle task not counted; and at any time, each such task runs again within as many calls as there
are tasks. -/
theorem schedule_fair (hrep : s.Represents r) (hroom : 3 ≤ r.ready.length)
    (hrunning : s.state s.current = running) (hlock : s.postponeTaskSwitchesCounter = 0)
    (t : TaskId) (hidle : s.isIdle t = false) :
    (∀ pre post, r.ready = pre ++ t :: post →
      (callSchedule^[(pre.filter fun u => !s.isIdle u).length + 1] s).current = t ∧
        ∀ i ≤ (pre.filter fun u => !s.isIdle u).length, (callSchedule^[i] s).current ≠ t) ∧
    (t ∈ r.running :: r.ready → ∀ n, ∃ m, 1 ≤ m ∧ m ≤ r.ready.length + 1 ∧
      (callSchedule^[n + m] s).current = t) := by
  have hcurrent (n : Nat) : (callSchedule^[n] s).current =
      ((RoundRobin.State.turn s.isIdle)^[n] r).running :=
    (schedule_turns n hrep hroom hrunning hlock).current
  have hdistinct := hrep.distinct
  constructor
  · intro pre post hready
    obtain ⟨hruns, hwaits⟩ := RoundRobin.turn_iterate_waiting hdistinct hready hidle rfl
    refine ⟨(hcurrent _).trans hruns, fun i hi => ?_⟩
    rw [hcurrent]
    exact hwaits i hi
  · intro hmem n
    have hperm := turn_iterate_perm s.isIdle r n
    have hlength := hperm.length_eq
    rw [List.length_cons, List.length_cons] at hlength
    obtain ⟨m, hone, hm, hruns⟩ := RoundRobin.turn_again (hdistinct.iterate s.isIdle n)
      (hperm.mem_iff.mpr hmem) hidle
    refine ⟨m, hone, by omega, ?_⟩
    rw [hcurrent, Nat.add_comm, Function.iterate_add_apply]
    exact hruns

theorem schedule_fair_small :
    let s := ((multitaskingInit unscheduled 0x1000#32).call (.createKernelTask 0x2000#32)).call
      (.createKernelTask 0x3000#32)
    (callSchedule^[2] s).current = 3 ∧
      ∀ n, ∃ m, 1 ≤ m ∧ m ≤ 4 ∧ (callSchedule^[n + m] s).current = 3 := by
  intro s
  have hrep : s.Represents ⟨0, [1, 2, 3]⟩ := ⟨rfl, ⟨⟨rfl, rfl, rfl, rfl⟩, rfl⟩, by decide⟩
  obtain ⟨hwait, hagain⟩ := schedule_fair hrep (by decide) rfl rfl 3 (by decide)
  exact ⟨(hwait [1, 2] [] rfl).1, hagain (by decide)⟩

end SplongleOS
