import Mathlib.Data.List.Nodup
import Mathlib.Logic.Function.Basic
set_option autoImplicit false

/-! Lines with a fixed priority: requests wait until their line is granted, the first enabled one
in the order first. -/

namespace Arbiter

variable {ι : Type}

structure State (ι : Type) where
  pending : ι → Bool
  enabled : ι → Bool

/-- What would be granted, in the order of priority. -/
def State.due (order : List ι) (s : State ι) : List ι :=
  order.filter fun l => s.pending l && s.enabled l

def State.grant (order : List ι) (s : State ι) : Option ι :=
  order.find? fun l => s.pending l && s.enabled l

variable {order : List ι} {s : State ι} {l : ι}

theorem grant_eq (order : List ι) (s : State ι) : s.grant order = (s.due order).head? := by
  rw [State.grant, State.due, List.head?_filter]

theorem mem_due : l ∈ s.due order ↔ l ∈ order ∧ s.pending l = true ∧ s.enabled l = true := by
  rw [State.due, List.mem_filter, Bool.and_eq_true]

theorem of_grant (h : s.grant order = some l) :
    l ∈ order ∧ s.pending l = true ∧ s.enabled l = true := by
  rw [grant_eq] at h
  exact mem_due.mp (List.mem_of_head? h)

variable [DecidableEq ι]

theorem idxOf_grant_le (h : s.grant order = some l) {k : ι} (hpending : s.pending k = true)
    (henabled : s.enabled k = true) : order.idxOf l ≤ order.idxOf k := by
  have hk : (s.pending k && s.enabled k) = true := by rw [hpending, henabled]; rfl
  have hl : (s.pending l && s.enabled l) = true := Bool.and_eq_true_iff.mpr (of_grant h).2
  unfold State.grant at h
  induction order with
  | nil => contradiction
  | cons a order ih =>
    cases ha : s.pending a && s.enabled a with
    | true =>
      rw [List.find?_cons, ha] at h
      obtain rfl := Option.some.inj h
      rw [List.idxOf_cons_self]
      exact Nat.zero_le _
    | false =>
      have hne {x : ι} (hx : (s.pending x && s.enabled x) = true) : a ≠ x := by
        rintro rfl
        rw [hx] at ha
        contradiction
      rw [List.find?_cons, ha] at h
      rw [List.idxOf_cons_ne _ (hne hl), List.idxOf_cons_ne _ (hne hk)]
      exact Nat.succ_le_succ (ih h)

def State.raise (s : State ι) (l : ι) : State ι :=
  { s with pending := Function.update s.pending l true }

def State.clear (s : State ι) (l : ι) : State ι :=
  { s with pending := Function.update s.pending l false }

theorem due_clear (hnodup : order.Nodup) (s : State ι) (l : ι) :
    (s.clear l).due order = (s.due order).erase l := by
  have hdue : (s.due order).Nodup := hnodup.filter _
  rw [hdue.erase_eq_filter, State.due, State.due, List.filter_filter]
  refine List.filter_congr fun k _ => ?_
  by_cases hk : k = l
  · simp [hk, State.clear]
  · simp [hk, State.clear, Function.update_of_ne]

theorem due_clear_of_grant (hnodup : order.Nodup) (h : s.grant order = some l) :
    s.due order = l :: (s.clear l).due order := by
  rw [due_clear hnodup]
  rw [grant_eq] at h
  cases hdue : s.due order with
  | nil =>
    rw [hdue] at h
    contradiction
  | cons k ks =>
    rw [hdue] at h
    obtain rfl := Option.some.inj h
    rw [List.erase_cons_head]

end Arbiter
