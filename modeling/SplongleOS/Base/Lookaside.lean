set_option autoImplicit false

/-! A cache of answers in front of a lookup that may change under it. Nothing but
`flush` and `empty` takes an answer out. -/

namespace Lookaside

variable {κ ν : Type}

/-- Every cached answer is the one the lookup gives now. -/
def Coherent (cache : List (κ × ν)) (lookup : κ → Option ν) : Prop :=
  ∀ e ∈ cache, lookup e.1 = some e.2

def Cached (cache : List (κ × ν)) (k : κ) : Prop := ∃ e ∈ cache, e.1 = k

def fill (lookup : κ → Option ν) (k : κ) (cache : List (κ × ν)) : List (κ × ν) :=
  match lookup k with
  | some v => (k, v) :: cache
  | none => cache

def flush [DecidableEq κ] (k : κ) (cache : List (κ × ν)) : List (κ × ν) :=
  cache.filter fun e => e.1 ≠ k

variable {cache : List (κ × ν)} {lookup lookup' : κ → Option ν}

theorem coherent_nil : Coherent [] lookup := fun _ he => absurd he List.not_mem_nil

theorem mem_fill {k : κ} {e : κ × ν} :
    e ∈ fill lookup k cache ↔ (e.1 = k ∧ lookup k = some e.2) ∨ e ∈ cache := by
  obtain ⟨k', v⟩ := e
  unfold fill
  cases h : lookup k with
  | none => simp
  | some w =>
    simp only [List.mem_cons, Prod.mk.injEq, Option.some.injEq]
    constructor
    · rintro (⟨rfl, rfl⟩ | hmem)
      · exact Or.inl ⟨rfl, rfl⟩
      · exact Or.inr hmem
    · rintro (⟨rfl, rfl⟩ | hmem)
      · exact Or.inl ⟨rfl, rfl⟩
      · exact Or.inr hmem

theorem Coherent.fill (h : Coherent cache lookup) (k : κ) :
    Coherent (fill lookup k cache) lookup := by
  intro e he
  rcases mem_fill.mp he with ⟨hk, hv⟩ | hmem
  · exact hk ▸ hv
  · exact h e hmem

def CoherentExcept (k : κ) (cache : List (κ × ν)) (lookup : κ → Option ν) : Prop :=
  ∀ e ∈ cache, e.1 ≠ k → lookup e.1 = some e.2

theorem Coherent.except {k : κ} (h : Coherent cache lookup)
    (hsame : ∀ e ∈ cache, e.1 ≠ k → lookup' e.1 = lookup e.1) :
    CoherentExcept k cache lookup' :=
  fun e he hne => (hsame e he hne).trans (h e he)

theorem CoherentExcept.fill {k : κ} (h : CoherentExcept k cache lookup) (k' : κ) :
    CoherentExcept k (fill lookup k' cache) lookup := by
  intro e he hne
  rcases mem_fill.mp he with ⟨hk, hv⟩ | hmem
  · exact hk ▸ hv
  · exact h e hmem hne

theorem CoherentExcept.flush [DecidableEq κ] {k : κ} (h : CoherentExcept k cache lookup) :
    Coherent (flush k cache) lookup := by
  intro e he
  simp only [Lookaside.flush, List.mem_filter, decide_eq_true_eq] at he
  exact h e he.1 he.2

/-- Without a flush the changed key must not be cached. -/
theorem CoherentExcept.uncached {k : κ} (h : CoherentExcept k cache lookup) (hk : ¬Cached cache k) :
    Coherent cache lookup := fun e he => h e he fun heq => hk ⟨e, he, heq⟩

theorem not_coherent_of_cached {k : κ} (hk : Cached cache k) (hnone : lookup k = none) :
    ¬Coherent cache lookup := by
  intro h
  obtain ⟨e, he, rfl⟩ := hk
  have heq := h e he
  rw [hnone] at heq
  contradiction

end Lookaside
