import Mathlib.Data.List.Nodup
import Mathlib.Data.List.Perm.Basic
set_option autoImplicit false

/-! Singly linked lists as a memory holds them: a `next` pointer for every node, a head,
and for queues a tail. -/

namespace Chain

variable {ι : Type}

/-- Following `next` from `head` gives the nodes of `l` and then ends. -/
def Linked (next : ι → Option ι) : Option ι → List ι → Prop
  | head, [] => head = none
  | head, a :: l => head = some a ∧ Linked next (next a) l

variable {next next' : ι → Option ι} {head head' : Option ι} {l l' : List ι} {a b z : ι}

@[simp] theorem linked_nil : Linked next head [] ↔ head = none := Iff.rfl

@[simp] theorem linked_cons : Linked next head (a :: l) ↔ head = some a ∧ Linked next (next a) l :=
  Iff.rfl

theorem Linked.unique (h : Linked next head l) (h' : Linked next head l') : l = l' := by
  induction l generalizing head l' with
  | nil =>
    cases l' with
    | nil => rfl
    | cons b l' => simp_all
  | cons a l ih =>
    cases l' with
    | nil => simp_all
    | cons b l' =>
      obtain ⟨hhead, htail⟩ := h
      obtain ⟨hhead', htail'⟩ := h'
      have hab : a = b := Option.some.inj (hhead.symm.trans hhead')
      subst hab
      rw [ih htail htail']

theorem Linked.congr (h : Linked next head l) (hsame : ∀ a ∈ l, next' a = next a) :
    Linked next' head l := by
  induction l generalizing head with
  | nil => exact h
  | cons a l ih =>
    refine ⟨h.1, ?_⟩
    rw [hsame a List.mem_cons_self]
    exact ih h.2 fun b hb => hsame b (List.mem_cons_of_mem a hb)

theorem Linked.drop {m : List ι} (h : Linked next head (l ++ m)) : ∃ head', Linked next head' m := by
  induction l generalizing head with
  | nil => exact ⟨head, h⟩
  | cons a l ih => exact ih h.2

theorem Linked.last_next (h : Linked next head (l ++ [z])) : next z = none := by
  obtain ⟨head', hz⟩ := h.drop
  exact hz.2

theorem Linked.nodup (h : Linked next head l) : l.Nodup := by
  induction l generalizing head with
  | nil => exact List.nodup_nil
  | cons a l ih =>
    refine List.nodup_cons.mpr ⟨fun hmem => ?_, ih h.2⟩
    obtain ⟨p, q, rfl⟩ := List.append_of_mem hmem
    obtain ⟨head', hq⟩ := h.2.drop
    have hnext := h.2.unique hq.2
    have hlen := congrArg List.length hnext
    simp at hlen
    omega

theorem Linked.eq_nil_iff (h : Linked next head l) : l = [] ↔ head = none := by
  cases l with
  | nil => simpa using h
  | cons a l => simp [h.1]

theorem getLast?_ne_head (h : (a :: l).Nodup) : (a :: l).getLast? ≠ some a ↔ l ≠ [] := by
  cases l with
  | nil => simp
  | cons b l =>
    rw [List.getLast?_cons_cons]
    refine iff_of_true (fun hlast => ?_) (List.cons_ne_nil b l)
    exact (List.nodup_cons.mp h).1 (List.mem_of_getLast? hlast)

theorem Linked.snoc (h : Linked next head (l ++ [z])) (hkeep : ∀ b ∈ l, next' b = next b)
    (hz : next' z = some a) (ha : next' a = none) : Linked next' head (l ++ [z, a]) := by
  induction l generalizing head with
  | nil => exact ⟨h.1, hz, ha⟩
  | cons c l ih =>
    refine ⟨h.1, ?_⟩
    rw [hkeep c List.mem_cons_self]
    exact ih h.2 fun b hb => hkeep b (List.mem_cons_of_mem c hb)

/-- Linking a node behind `last`, which may be anywhere, cuts the list there or leaves it. -/
theorem Linked.relink {last : Option ι} (h : Linked next head l)
    (hkeep : ∀ b ∈ l, last ≠ some b → next' b = next b)
    (hlast : ∀ z, last = some z → next' z = some a) (ha : next' a = none) :
    ∃ l', Linked next' head l' ∧ ∀ b ∈ l', b ∈ l ∨ b = a := by
  induction l generalizing head with
  | nil => exact ⟨[], h, by simp⟩
  | cons c l ih =>
    by_cases hc : last = some c
    · exact ⟨[c, a], ⟨h.1, hlast c hc, ha⟩, by simp⟩
    · obtain ⟨l', hl', hmem⟩ := ih h.2 fun b hb => hkeep b (List.mem_cons_of_mem c hb)
      have hnext := hkeep c List.mem_cons_self hc
      refine ⟨c :: l', ⟨h.1, ?_⟩, ?_⟩
      · rw [hnext]
        exact hl'
      · intro b hb
        rcases List.mem_cons.mp hb with rfl | hb
        · simp
        · rcases hmem b hb with hb | hb <;> simp [hb]

/-- A list with a pointer to its last node. -/
structure Queue (next : ι → Option ι) (first last : Option ι) (l : List ι) : Prop where
  linked : Linked next first l
  last : last = l.getLast?

variable {first first' last : Option ι}

theorem Queue.unique (h : Queue next first last l) (h' : Linked next first l') : l' = l :=
  h'.unique h.linked

theorem Queue.last_mem (h : Queue next first last l) (hz : last = some z) : z ∈ l :=
  List.mem_of_getLast? (h.last.symm.trans hz)

theorem Queue.first_none_iff (h : Queue next first last l) : first = none ↔ last = none := by
  rw [← h.linked.eq_nil_iff, h.last, List.getLast?_eq_none_iff]

theorem Queue.push (h : Queue next first last l)
    (hkeep : ∀ b ∈ l, last ≠ some b → next' b = next b)
    (hlast : ∀ z, last = some z → next' z = some a) (ha : next' a = none)
    (hfirst : first' = if last = none then some a else first) :
    Queue next' first' (some a) (l ++ [a]) := by
  refine ⟨?_, by simp⟩
  rcases List.eq_nil_or_concat l with rfl | ⟨p, z, hl⟩
  · have hnone : last = none := h.last
    rw [if_pos hnone] at hfirst
    exact ⟨hfirst, ha⟩
  · rw [List.concat_eq_append] at hl
    subst hl
    have hz : last = some z := by
      rw [h.last]
      simp
    have hfirst' : first' = first := by simpa [hz] using hfirst
    have hnodup := h.linked.nodup
    have hpz : z ∉ p := by
      intro hmem
      exact (List.nodup_append.mp hnodup).2.2 z hmem z (by simp) rfl
    have hkeep' : ∀ b ∈ p, next' b = next b := by
      intro b hb
      refine hkeep b (List.mem_append_left [z] hb) ?_
      rw [hz]
      intro heq
      exact hpz (Option.some.inj heq ▸ hb)
    have hsnoc := h.linked.snoc hkeep' (hlast z hz) ha
    rw [hfirst', List.append_assoc]
    exact hsnoc

theorem Queue.pop (h : Queue next first last (a :: l)) (hne : last ≠ some a) :
    Queue next (next a) last l := by
  refine ⟨h.linked.2, ?_⟩
  cases l with
  | nil => exact absurd h.last hne
  | cons b l => simpa using h.last

theorem Queue.popSecond (h : Queue next first last (a :: b :: l)) (hne : last ≠ some b)
    (ha : next' a = next b) (hkeep : ∀ c ∈ l, next' c = next c) :
    Queue next' first last (a :: l) := by
  refine ⟨⟨h.linked.1, ?_⟩, ?_⟩
  · rw [ha]
    exact h.linked.2.2.congr hkeep
  · cases l with
    | nil => exact absurd h.last hne
    | cons c l => simpa using h.last

def visit (next : ι → Option ι) : Option ι → Nat → Option ι
  | head, 0 => head
  | head, k + 1 => visit next (head.bind next) k

theorem visit_none (k : Nat) : visit next none k = none := by
  induction k with
  | zero => rfl
  | succ k ih => exact ih

theorem Linked.visit_eq (h : Linked next head l) (k : Nat) : visit next head k = l[k]? := by
  induction l generalizing head k with
  | nil =>
    rw [linked_nil.mp h, visit_none]
    simp
  | cons a l ih =>
    obtain ⟨rfl, htail⟩ := h
    cases k with
    | zero => rfl
    | succ k => exact ih htail k

theorem Linked.exists_unique_visit (h : Linked next head l) (ha : a ∈ l) :
    ∃ k, visit next head k = some a ∧ ∀ j, visit next head j = some a → j = k := by
  obtain ⟨k, hk, hget⟩ := List.getElem_of_mem ha
  refine ⟨k, ?_, fun j hj => ?_⟩
  · rw [h.visit_eq, List.getElem?_eq_getElem hk, hget]
  · rw [h.visit_eq] at hj
    obtain ⟨hjlt, hjget⟩ := List.getElem?_eq_some_iff.mp hj
    exact (List.Nodup.getElem_inj_iff h.nodup).mp (hjget.trans hget.symm)

theorem Linked.visited_iff (h : Linked next head l) : (∃ k, visit next head k = some a) ↔ a ∈ l := by
  constructor
  · rintro ⟨k, hk⟩
    rw [h.visit_eq] at hk
    exact List.mem_of_getElem? hk
  · intro ha
    obtain ⟨k, hk, _⟩ := h.exists_unique_visit ha
    exact ⟨k, hk⟩

end Chain
