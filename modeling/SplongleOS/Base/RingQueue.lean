import Mathlib.Data.List.Basic
import Mathlib.Logic.Function.Basic
import Mathlib.Tactic.Common
set_option autoImplicit false

/-! A bounded first-in first-out queue in a ring of `N` slots, one of which stays empty
so that a full ring and an empty one differ. -/

namespace RingQueue

variable {α : Type} {N tail head : Nat} {buf : Nat → α} {x : α} {xs : List α}

theorem slot_eq {i : Nat} (ht : tail < N) (hi : i ≤ N) :
    (tail + i) % N = if tail + i < N then tail + i else tail + i - N := by
  split
  · exact Nat.mod_eq_of_lt ‹_›
  · rw [Nat.mod_eq_sub_mod (by omega), Nat.mod_eq_of_lt (by omega)]

theorem slot_inj {i j : Nat} (ht : tail < N) (hi : i < N) (hj : j < N) :
    (tail + i) % N = (tail + j) % N ↔ i = j := by
  rw [slot_eq ht (by omega), slot_eq ht (by omega)]
  split <;> split <;> omega

theorem slot_succ (i : Nat) : ((tail + 1) % N + i) % N = (tail + (i + 1)) % N := by
  rw [Nat.mod_add_mod]
  congr 1
  omega

/-- The ring holds `xs`, oldest first: from `tail` up to `head`. -/
structure Holds (N : Nat) (buf : Nat → α) (tail head : Nat) (xs : List α) : Prop where
  room : xs.length < N
  tail_lt : tail < N
  head_eq : head = (tail + xs.length) % N
  slots : ∀ i y, xs[i]? = some y → buf ((tail + i) % N) = y

theorem holds_nil (h : tail < N) : Holds N buf tail tail [] where
  room := by simpa using Nat.zero_lt_of_lt h
  tail_lt := h
  head_eq := by simp [Nat.mod_eq_of_lt h]
  slots := by simp

theorem Holds.head_lt (h : Holds N buf tail head xs) : head < N := by
  have ht := h.tail_lt
  rw [h.head_eq]
  exact Nat.mod_lt _ (by omega)

theorem Holds.slot_eq_tail_iff {i : Nat} (h : Holds N buf tail head xs) (hi : i ≤ xs.length) :
    (tail + i) % N = tail ↔ i = 0 := by
  have hroom := h.room
  have htail := slot_inj (i := i) (j := 0) h.tail_lt (by omega) (by omega)
  rwa [Nat.add_zero, Nat.mod_eq_of_lt h.tail_lt] at htail

theorem Holds.empty_iff (h : Holds N buf tail head xs) : head = tail ↔ xs = [] := by
  rw [h.head_eq, h.slot_eq_tail_iff (Nat.le_refl _), List.length_eq_zero_iff]

theorem Holds.full_iff (h : Holds N buf tail head xs) : (head + 1) % N = tail ↔ xs.length + 1 = N := by
  have hroom := h.room
  have htail := h.tail_lt
  rw [h.head_eq, Nat.mod_add_mod, Nat.add_assoc, slot_eq htail (by omega)]
  split <;> omega

theorem Holds.push (h : Holds N buf tail head xs) (hroom : xs.length + 1 < N) :
    Holds N (Function.update buf head x) tail ((head + 1) % N) (xs ++ [x]) where
  room := by simpa using hroom
  tail_lt := h.tail_lt
  head_eq := by
    rw [h.head_eq, Nat.mod_add_mod, List.length_append, Nat.add_assoc]
    rfl
  slots i y hy := by
    rcases Nat.lt_trichotomy i xs.length with hlt | heq | hgt
    · have hne : (tail + i) % N ≠ head := by
        rw [h.head_eq, ne_eq, slot_inj h.tail_lt (by omega) (by omega)]
        omega
      rw [Function.update_of_ne hne]
      rw [List.getElem?_append_left hlt] at hy
      exact h.slots i y hy
    · subst heq
      have hx : x = y := by simpa using hy
      rw [← h.head_eq, Function.update_self, hx]
    · have hnone : (xs ++ [x])[i]? = none := List.getElem?_eq_none (by simp; omega)
      simp [hnone] at hy

theorem Holds.peek (h : Holds N buf tail head (x :: xs)) : buf tail = x := by
  have hslot := h.slots 0 x rfl
  rwa [Nat.add_zero, Nat.mod_eq_of_lt h.tail_lt] at hslot

theorem Holds.pop (h : Holds N buf tail head (x :: xs)) : Holds N buf ((tail + 1) % N) head xs where
  room := by
    have hroom := h.room
    rw [List.length_cons] at hroom
    omega
  tail_lt := Nat.mod_lt _ (Nat.zero_lt_of_lt h.tail_lt)
  head_eq := by rw [slot_succ, h.head_eq, List.length_cons]
  slots i y hy := by
    rw [slot_succ]
    exact h.slots (i + 1) y (by simpa using hy)

end RingQueue
