import Mathlib.Data.Finset.Card
import Mathlib.Data.Finset.Range
set_option autoImplicit false

/-! Walks along a next function until a test fails, as loops over records that name the
place of the next one. Whether the walk ends is read off the places it passes. -/

namespace Walk

variable {α : Type} (next : α → α) (more : α → Prop) [DecidablePred more]

/-- The places passed, on fuel. -/
def walk : Nat → α → Option (List α)
  | 0, _ => none
  | fuel + 1, a => if more a then (walk fuel (next a)).map (a :: ·) else some []

/-- The walk from `a` ends, and `P` holds at every place it passes. -/
inductive Ends (P : α → Prop) : α → Prop where
  | done {a : α} : ¬more a → Ends P a
  | step {a : α} : more a → P a → Ends P (next a) → Ends P a

variable {next more} {a b : α} {l l' : List α} {n m : Nat}

theorem walk_cons (h : walk next more (n + 1) a = some (b :: l)) :
    b = a ∧ more a ∧ walk next more n (next a) = some l := by
  rw [walk] at h
  split at h
  · rename_i hmore
    obtain ⟨l', hl', heq⟩ := Option.map_eq_some_iff.mp h
    obtain ⟨rfl, rfl⟩ := List.cons.inj heq
    exact ⟨rfl, hmore, hl'⟩
  · exact absurd (Option.some.inj h) (by simp)

theorem not_more_of_walk_nil (h : walk next more n a = some []) : ¬more a := by
  intro hmore
  cases n with
  | zero => simp [walk] at h
  | succ n => simp [walk, hmore] at h

theorem walk_stalled (hnext : next a = a) (hmore : more a) : walk next more n a = none := by
  induction n with
  | zero => rfl
  | succ n ih => rw [walk, if_pos hmore, hnext, ih, Option.map_none]

theorem walk_mono (h : walk next more n a = some l) (hle : n ≤ m) : walk next more m a = some l := by
  induction n generalizing m a l with
  | zero => simp [walk] at h
  | succ n ih =>
    obtain ⟨m, rfl⟩ : ∃ k, m = k + 1 := ⟨m - 1, by omega⟩
    rw [walk] at h ⊢
    split
    · rename_i hmore
      rw [if_pos hmore] at h
      obtain ⟨l', hl', heq⟩ := Option.map_eq_some_iff.mp h
      rw [ih hl' (by omega), Option.map_some, heq]
    · rename_i hmore
      rwa [if_neg hmore] at h

theorem walk_unique (h : walk next more n a = some l) (h' : walk next more m a = some l') : l = l' := by
  have hn := walk_mono h (Nat.le_max_left n m)
  have hm := walk_mono h' (Nat.le_max_right n m)
  exact Option.some.inj (hn.symm.trans hm)

/-- As many steps as there are places, and the test that ends the walk. -/
theorem walk_exact (h : walk next more n a = some l) : walk next more (l.length + 1) a = some l := by
  induction n generalizing a l with
  | zero => simp [walk] at h
  | succ n ih =>
    cases l with
    | nil =>
      rw [walk] at h ⊢
      split at h
      · simp at h
      · rename_i hmore
        rw [if_neg hmore]
    | cons b l =>
      obtain ⟨rfl, hmore, hrest⟩ := walk_cons h
      rw [List.length_cons, walk, if_pos hmore, ih hrest, Option.map_some]

theorem walk_from (h : walk next more n a = some l) (hb : b ∈ l) :
    ∃ l', walk next more n b = some l' ∧ l'.length ≤ l.length := by
  induction n generalizing a l with
  | zero => simp [walk] at h
  | succ n ih =>
    cases l with
    | nil => simp at hb
    | cons c l =>
      obtain ⟨rfl, _, hrest⟩ := walk_cons h
      rcases List.mem_cons.mp hb with rfl | hmem
      · exact ⟨_, h, Nat.le_refl _⟩
      · obtain ⟨l', hl', hlen⟩ := ih hrest hmem
        exact ⟨l', walk_mono hl' (Nat.le_succ n), by simp; omega⟩

theorem walk_nodup (h : walk next more n a = some l) : l.Nodup := by
  induction n generalizing a l with
  | zero => simp [walk] at h
  | succ n ih =>
    cases l with
    | nil => exact List.nodup_nil
    | cons c l =>
      obtain ⟨rfl, _, hrest⟩ := walk_cons h
      refine List.nodup_cons.mpr ⟨fun hmem => ?_, ih hrest⟩
      obtain ⟨l', hl', hlen⟩ := walk_from hrest hmem
      have hsame := congrArg List.length (walk_unique h hl')
      simp at hsame
      omega

theorem walk_more (h : walk next more n a = some l) (hb : b ∈ l) : more b := by
  induction n generalizing a l with
  | zero => simp [walk] at h
  | succ n ih =>
    cases l with
    | nil => simp at hb
    | cons c l =>
      obtain ⟨rfl, hmore, hrest⟩ := walk_cons h
      rcases List.mem_cons.mp hb with rfl | hmem
      · exact hmore
      · exact ih hrest hmem

theorem ends_iff {P : α → Prop} :
    Ends next more P a ↔ ∃ n l, walk next more n a = some l ∧ ∀ b ∈ l, P b := by
  constructor
  · intro h
    induction h with
    | done hmore => exact ⟨1, [], by rw [walk, if_neg hmore], by simp⟩
    | @step a hmore hp _ ih =>
      obtain ⟨n, l, hl, hall⟩ := ih
      refine ⟨n + 1, a :: l, by rw [walk, if_pos hmore, hl, Option.map_some], ?_⟩
      exact List.forall_mem_cons.mpr ⟨hp, hall⟩
  · rintro ⟨n, l, hl, hall⟩
    induction n generalizing a l with
    | zero => simp [walk] at hl
    | succ n ih =>
      by_cases hmore : more a
      · rw [walk, if_pos hmore] at hl
        obtain ⟨l', hl', rfl⟩ := Option.map_eq_some_iff.mp hl
        obtain ⟨hp, hrest⟩ := List.forall_mem_cons.mp hall
        exact .step hmore hp (ih l' hl' hrest)
      · exact .done hmore

/-- Among `bound` places, `bound + 1` steps are enough for every walk that ends. -/
theorem walk_bounded {next : Nat → Nat} {more : Nat → Prop} [DecidablePred more] {n a bound : Nat}
    {l : List Nat} (h : walk next more n a = some l) (hbound : ∀ b, more b → b < bound) :
    walk next more (bound + 1) a = some l := by
  have hsub : l.toFinset ⊆ Finset.range bound := by
    intro b hb
    exact Finset.mem_range.mpr (hbound b (walk_more h (List.mem_toFinset.mp hb)))
  have hcard := Finset.card_le_card hsub
  rw [List.toFinset_card_of_nodup (walk_nodup h), Finset.card_range] at hcard
  exact walk_mono (walk_exact h) (by omega)

end Walk
