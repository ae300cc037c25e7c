import Mathlib.Data.List.Perm.Basic
import Mathlib.Data.List.Perm.Lattice
set_option autoImplicit false

/-! Ownership of a shared pool: a list of live owners, what each of them holds, and
which elements of the pool are in use. -/

namespace Ownership

variable {β ι : Type}

/-- What the live owners hold is in use, and no two of them hold the same element. -/
structure Owns (holds : ι → β → Prop) (used : β → Prop) (live : List ι) : Prop where
  used : ∀ e ∈ live, ∀ b, holds e b → used b
  disjoint : live.Pairwise fun e e' => ∀ b, holds e b → ¬holds e' b

variable {holds : ι → β → Prop} {used used' : β → Prop} {live : List ι} {e : ι}

theorem Owns.nil : Owns holds used [] := ⟨by simp, .nil⟩

theorem Owns.mono (h : Owns holds used live)
    (hu : ∀ e ∈ live, ∀ b, holds e b → used b → used' b) : Owns holds used' live :=
  ⟨fun e he b hb => hu e he b hb (h.used e he b hb), h.disjoint⟩

theorem Owns.acquire (h : Owns holds used live) (hfresh : ∀ b, holds e b → ¬used b)
    (htake : ∀ b, holds e b → used' b)
    (hkeep : ∀ e' ∈ live, ∀ b, holds e' b → used b → used' b) :
    Owns holds used' (e :: live) := by
  refine ⟨?_, List.pairwise_cons.mpr ⟨?_, h.disjoint⟩⟩
  · intro e' he' b hb
    rcases List.mem_cons.mp he' with rfl | he'
    · exact htake b hb
    · exact hkeep e' he' b hb (h.used e' he' b hb)
  · intro e' he' b hb hb'
    exact hfresh b hb (h.used e' he' b hb')

theorem Owns.disjoint_of_fresh (h : Owns holds used live) (hfresh : ∀ b, holds e b → ¬used b) :
    ∀ e' ∈ live, ∀ b, holds e b → ¬holds e' b :=
  fun e' he' b hb hb' => hfresh b hb (h.used e' he' b hb')

theorem Owns.release [DecidableEq ι] (h : Owns holds used live) (he : e ∈ live)
    (hkeep : ∀ e' ∈ live, ∀ b, holds e' b → used b → ¬holds e b → used' b) :
    Owns holds used' (live.erase e) := by
  have hperm := List.perm_cons_erase he
  have hpair : (e :: live.erase e).Pairwise fun e e' => ∀ b, holds e b → ¬holds e' b :=
    (hperm.pairwise_iff fun h b hb hb' => h b hb' hb).mp h.disjoint
  obtain ⟨hhead, htail⟩ := List.pairwise_cons.mp hpair
  refine ⟨fun e' he' b hb => ?_, htail⟩
  have hmem := List.mem_of_mem_erase he'
  exact hkeep e' hmem b hb (h.used e' hmem b hb) fun hb' => hhead e' he' b hb' hb

/-- Within `dom`, what is in use is what was in use at the start and what the live owners
hold. -/
def Exact (holds : ι → β → Prop) (dom base used : β → Prop) (live : List ι) : Prop :=
  ∀ b, dom b → (used b ↔ base b ∨ ∃ e ∈ live, holds e b)

variable {dom base : β → Prop}

theorem Exact.start : Exact holds dom base base ([] : List ι) :=
  fun b _ => by simp

theorem Exact.congr (h : Exact holds dom base used live) (hu : ∀ b, dom b → (used' b ↔ used b)) :
    Exact holds dom base used' live :=
  fun b hb => (hu b hb).trans (h b hb)

theorem Exact.acquire (h : Exact holds dom base used live)
    (hu : ∀ b, dom b → (used' b ↔ holds e b ∨ used b)) :
    Exact holds dom base used' (e :: live) := by
  intro b hb
  rw [hu b hb, h b hb, List.exists_mem_cons_iff]
  exact or_left_comm

theorem Exact.release [DecidableEq ι] (h : Exact holds dom base used live) (he : e ∈ live)
    (howns : Owns holds used live) (hbase : ∀ b, holds e b → ¬base b)
    (hu : ∀ b, dom b → (used' b ↔ ¬holds e b ∧ used b)) :
    Exact holds dom base used' (live.erase e) := by
  have hperm := List.perm_cons_erase he
  have hpair : (e :: live.erase e).Pairwise fun e e' => ∀ b, holds e b → ¬holds e' b :=
    (hperm.pairwise_iff fun h b hb hb' => h b hb' hb).mp howns.disjoint
  have hhead := (List.pairwise_cons.mp hpair).1
  intro b hb
  rw [hu b hb, h b hb]
  constructor
  · rintro ⟨hnot, hstart | ⟨e', he', hb'⟩⟩
    · exact Or.inl hstart
    · refine Or.inr ⟨e', ?_, hb'⟩
      rcases List.mem_cons.mp (hperm.mem_iff.mp he') with rfl | hrest
      · exact absurd hb' hnot
      · exact hrest
  · rintro (hstart | ⟨e', he', hb'⟩)
    · exact ⟨fun hb' => hbase b hb' hstart, Or.inl hstart⟩
    · exact ⟨fun hheld => hhead e' he' b hheld hb', Or.inr ⟨e', List.mem_of_mem_erase he', hb'⟩⟩

structure Exclusive (holds : ι → β → Prop) (ok : β → Prop) : Prop where
  ok : ∀ e b, holds e b → ok b
  unique : ∀ e e' b, holds e b → holds e' b → e = e'

variable {holds' : ι → β → Prop} {ok ok' : β → Prop}

theorem Exclusive.mono (h : Exclusive holds ok) (hsub : ∀ e b, holds' e b → holds e b)
    (hok : ∀ b, ok b → ok' b) : Exclusive holds' ok' :=
  ⟨fun e b hb => hok b (h.ok e b (hsub e b hb)),
    fun e e' b hb hb' => h.unique e e' b (hsub e b hb) (hsub e' b hb')⟩

/-- One name takes an element nobody holds; it may give up what it held. -/
theorem Exclusive.take {e₀ : ι} {b₀ : β} (h : Exclusive holds ok) (hfresh : ∀ e, ¬holds e b₀)
    (hb₀ : ok' b₀) (hok : ∀ b, ok b → ok' b)
    (hsub : ∀ e b, holds' e b → holds e b ∨ (e = e₀ ∧ b = b₀)) : Exclusive holds' ok' := by
  refine ⟨fun e b hb => ?_, fun e e' b hb hb' => ?_⟩
  · rcases hsub e b hb with hold | ⟨_, rfl⟩
    · exact hok b (h.ok e b hold)
    · exact hb₀
  · rcases hsub e b hb with hold | ⟨rfl, rfl⟩
    · rcases hsub e' b hb' with hold' | ⟨_, rfl⟩
      · exact h.unique e e' b hold hold'
      · exact absurd hold (hfresh e)
    · rcases hsub e' b hb' with hold' | ⟨rfl, _⟩
      · exact absurd hold' (hfresh e')
      · rfl

end Ownership
