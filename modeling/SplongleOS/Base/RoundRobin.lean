import Mathlib.Data.List.Perm.Basic
import Mathlib.Logic.Function.Iterate
set_option autoImplicit false

/-! Round robin: one task runs, the others wait in a line, and some are only to run when
nothing else can. -/

namespace RoundRobin

variable {ι : Type}

structure State (ι : Type) where
  running : ι
  ready : List ι
  deriving DecidableEq, Repr

def State.Distinct (s : State ι) : Prop := (s.running :: s.ready).Nodup

variable [DecidableEq ι] {skip : ι → Bool} {s : State ι} {t : ι}

/-- The first task in line that is not skipped runs, and the one that ran goes to the end. -/
def State.turn (skip : ι → Bool) (s : State ι) : State ι :=
  match s.ready.find? fun t => !skip t with
  | some t => ⟨t, s.ready.erase t ++ [s.running]⟩
  | none => s

theorem turn_of_find (h : (s.ready.find? fun t => !skip t) = some t) :
    s.turn skip = ⟨t, s.ready.erase t ++ [s.running]⟩ := by
  rw [State.turn, h]

theorem turn_of_all_skipped (h : ∀ t ∈ s.ready, skip t = true) : s.turn skip = s := by
  have hnone : (s.ready.find? fun t => !skip t) = none := by
    rw [List.find?_eq_none]
    intro t ht
    simp [h t ht]
  rw [State.turn, hnone]

theorem turn_perm (skip : ι → Bool) (s : State ι) :
    ((s.turn skip).running :: (s.turn skip).ready).Perm (s.running :: s.ready) := by
  cases h : s.ready.find? fun t => !skip t with
  | none =>
    rw [State.turn, h]
  | some t =>
    rw [turn_of_find h]
    have hmem := List.mem_of_find?_eq_some h
    calc t :: (s.ready.erase t ++ [s.running])
      _ = (t :: s.ready.erase t) ++ [s.running] := rfl
      List.Perm _ (s.ready ++ [s.running]) := (List.perm_cons_erase hmem).symm.append_right _
      List.Perm _ (s.running :: s.ready) := List.perm_append_comm

theorem State.Distinct.turn (h : s.Distinct) (skip : ι → Bool) : (s.turn skip).Distinct :=
  (turn_perm skip s).nodup_iff.mpr h

theorem length_turn (skip : ι → Bool) (s : State ι) :
    (s.turn skip).ready.length = s.ready.length := by
  have hlen := (turn_perm skip s).length_eq
  simpa using hlen

theorem State.Distinct.iterate (h : s.Distinct) (skip : ι → Bool) (n : Nat) :
    ((State.turn skip)^[n] s).Distinct := by
  induction n generalizing s with
  | zero => exact h
  | succ n ih => exact ih (h.turn skip)

theorem turn_iterate_waiting {pre post : List ι} {k : Nat} (hdistinct : s.Distinct)
    (hready : s.ready = pre ++ t :: post) (ht : skip t = false)
    (hk : (pre.filter fun u => !skip u).length = k) :
    ((State.turn skip)^[k + 1] s).running = t ∧
      ∀ i ≤ k, ((State.turn skip)^[i] s).running ≠ t := by
  have hnow : s.running ≠ t := by
    rintro heq
    have hmem : s.running ∈ s.ready := by
      rw [hready, heq]
      exact List.mem_append_right _ List.mem_cons_self
    exact (List.nodup_cons.mp hdistinct).1 hmem
  induction k generalizing s pre post with
  | zero =>
    have hskipped : (pre.find? fun u => !skip u) = none := by
      rw [← List.head?_filter, List.length_eq_zero_iff.mp hk]
      rfl
    have hfind : (s.ready.find? fun u => !skip u) = some t := by
      rw [hready, List.find?_append, hskipped, List.find?_cons, ht]
      rfl
    refine ⟨congrArg State.running (turn_of_find hfind), fun i hi => ?_⟩
    rw [Nat.le_zero.mp hi]
    exact hnow
  | succ k ih =>
    obtain ⟨x, hx⟩ : ∃ x, (pre.find? fun u => !skip u) = some x := by
      rw [← List.head?_filter]
      cases hfilter : pre.filter fun u => !skip u with
      | nil =>
        rw [hfilter] at hk
        contradiction
      | cons x xs => exact ⟨x, rfl⟩
    have hfind : (s.ready.find? fun u => !skip u) = some x := by
      rw [hready, List.find?_append, hx]
      rfl
    obtain ⟨hgo, as, bs, hpre, hskipped⟩ := List.find?_eq_some_iff_append.mp hx
    have hnodup : s.ready.Nodup := (List.nodup_cons.mp hdistinct).2
    have hnotin : x ∉ as := fun hmem => by
      have hskip := hskipped x hmem
      rw [hgo] at hskip
      contradiction
    have hturn : (s.turn skip).ready = (as ++ bs) ++ t :: (post ++ [s.running]) := by
      rw [turn_of_find hfind]
      change s.ready.erase x ++ [s.running] = _
      rw [hready, hpre, List.append_assoc, List.erase_append_right _ hnotin, List.cons_append,
        List.erase_cons_head]
      simp
    have hleft : ((as ++ bs).filter fun u => !skip u).length = k := by
      rw [hpre] at hk
      simp only [List.filter_append, List.filter_cons, hgo, if_true, List.length_append,
        List.length_cons] at hk ⊢
      omega
    have hother : (s.turn skip).running ≠ t := by
      rw [turn_of_find hfind]
      rintro rfl
      rw [hready] at hnodup
      exact (List.nodup_append.mp hnodup).2.2 x (List.mem_of_find?_eq_some hx) x
        List.mem_cons_self rfl
    obtain ⟨hruns, hwaits⟩ := ih (hdistinct.turn skip) hturn hleft hother
    refine ⟨hruns, fun i hi => ?_⟩
    cases i with
    | zero => exact hnow
    | succ i => exact hwaits i (by omega)

/-- A task that is not skipped runs again before every other task has run twice. -/
theorem turn_again (hdistinct : s.Distinct) (hmem : t ∈ s.running :: s.ready)
    (ht : skip t = false) : ∃ m, 1 ≤ m ∧ m ≤ s.ready.length + 1 ∧
      ((State.turn skip)^[m] s).running = t := by
  have hwaiting {u : State ι} (hu : u.Distinct) (hlength : u.ready.length = s.ready.length)
      (hin : t ∈ u.ready) : ∃ m, 1 ≤ m ∧ m ≤ s.ready.length ∧
        ((State.turn skip)^[m] u).running = t := by
    obtain ⟨pre, post, hready⟩ := List.append_of_mem hin
    have hk := List.length_filter_le (fun u => !skip u) pre
    have hsplit := congrArg List.length hready
    rw [List.length_append, List.length_cons] at hsplit
    exact ⟨_, Nat.le_add_left _ _, by omega, (turn_iterate_waiting hu hready ht rfl).1⟩
  rcases List.mem_cons.mp hmem with hrunning | hin
  · cases hfind : s.ready.find? fun u => !skip u with
    | none =>
      refine ⟨1, Nat.le_refl _, Nat.le_add_left _ _, ?_⟩
      change (s.turn skip).running = t
      rw [State.turn, hfind, hrunning]
    | some x =>
      have hback : t ∈ (s.turn skip).ready := by
        rw [turn_of_find hfind, hrunning]
        exact List.mem_append_right _ (List.mem_singleton_self _)
      obtain ⟨m, _, hm, hruns⟩ := hwaiting (hdistinct.turn skip) (length_turn skip s) hback
      exact ⟨m + 1, Nat.le_add_left _ _, Nat.succ_le_succ hm, hruns⟩
  · obtain ⟨m, hone, hm, hruns⟩ := hwaiting hdistinct rfl hin
    exact ⟨m, hone, Nat.le_succ_of_le hm, hruns⟩

end RoundRobin
