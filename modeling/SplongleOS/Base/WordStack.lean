import SplongleOS.Base.ByteMemory
set_option autoImplicit false

/-! A stack of 32-bit words that grows down: what pushes leave above the stack pointer, and what
keeps it. -/

namespace WordStack
open ByteMemory

/-- The words from `a` up. -/
def Holds (m : Mem) : Nat → List (BitVec 32) → Prop
  | _, [] => True
  | a, w :: ws => load32 m a = w ∧ Holds m (a + 4) ws

def push (p : BitVec 32 × Mem) (v : BitVec 32) : BitVec 32 × Mem :=
  (p.1 - 4#32, store32 p.2 (p.1 - 4#32).toNat v)

variable {m m' : Mem} {a : Nat} {v w : BitVec 32} {ws old : List (BitVec 32)} {S : Nat → Prop}
  {p : BitVec 32 × Mem}

theorem Holds.within (h : Holds m a ws) (hw : Within S m m')
    (hout : ∀ x, a ≤ x → x < a + 4 * ws.length → ¬S x) : Holds m' a ws := by
  induction ws generalizing a with
  | nil => exact trivial
  | cons w ws ih =>
    rw [List.length_cons] at hout
    refine ⟨(hw.load32 fun k hk => hout (a + k) (by omega) (by omega)).trans h.1, ?_⟩
    exact ih h.2 fun x hx hlt => hout x (by omega) (by omega)

theorem Holds.word (h : Holds m a ws) (i : Nat) (hi : i < ws.length) :
    load32 m (a + 4 * i) = ws[i] := by
  induction ws generalizing a i with
  | nil => exact absurd hi (Nat.not_lt_zero i)
  | cons w ws ih =>
    cases i with
    | zero => exact h.1
    | succ i =>
      have hnext := ih h.2 i (Nat.lt_of_succ_lt_succ hi)
      rw [Nat.mul_succ, Nat.add_comm (4 * i) 4, ← Nat.add_assoc]
      exact hnext

theorem push_toNat (hroom : 4 ≤ p.1.toNat) : (push p v).1.toNat = p.1.toNat - 4 := by
  rw [push, BitVec.toNat_sub]
  have hlt := p.1.isLt
  have hfour : (4#32).toNat = 4 := rfl
  omega

theorem Holds.push (h : Holds p.2 p.1.toNat ws) (hroom : 4 ≤ p.1.toNat) :
    Holds (push p v).2 (push p v).1.toNat (v :: ws) ∧
      Within (fun x => (WordStack.push p v).1.toNat ≤ x ∧ x < p.1.toNat) p.2 (WordStack.push p v).2 := by
  have hnat := push_toNat (v := v) hroom
  have hwithin : Within (fun x => (WordStack.push p v).1.toNat ≤ x ∧ x < p.1.toNat) p.2
      (WordStack.push p v).2 :=
    within_store32 p.2 v fun k hk => ⟨Nat.le_add_right _ _, by
      have hsame : (p.1 - 4#32).toNat = p.1.toNat - 4 := hnat
      omega⟩
  refine ⟨⟨load32_store32 _ _ _, ?_⟩, hwithin⟩
  have hup : (WordStack.push p v).1.toNat + 4 = p.1.toNat := by omega
  rw [hup]
  exact h.within hwithin fun x hx _ => by omega

theorem pushes_fst (ws : List (BitVec 32)) (p : BitVec 32 × Mem) :
    (ws.foldl push p).1 = p.1 - BitVec.ofNat 32 (4 * ws.length) := by
  induction ws generalizing p with
  | nil => simp
  | cons w ws ih =>
    rw [List.foldl_cons, ih, WordStack.push, List.length_cons, Nat.mul_add, BitVec.ofNat_add,
      BitVec.sub_sub, BitVec.add_comm]

theorem Holds.pushes (h : Holds p.2 p.1.toNat old) (hroom : 4 * ws.length ≤ p.1.toNat) :
    (ws.foldl WordStack.push p).1.toNat = p.1.toNat - 4 * ws.length ∧
      Holds (ws.foldl WordStack.push p).2 (ws.foldl WordStack.push p).1.toNat (ws.reverse ++ old) ∧
      Within (fun x => (ws.foldl WordStack.push p).1.toNat ≤ x ∧ x < p.1.toNat) p.2
        (ws.foldl WordStack.push p).2 := by
  induction ws generalizing p old with
  | nil => exact ⟨by simp, h, Within.refl _ _⟩
  | cons w ws ih =>
    rw [List.length_cons] at hroom
    obtain ⟨hfirst, hwithin⟩ := h.push (v := w) (by omega)
    have hnat := push_toNat (p := p) (v := w) (by omega)
    obtain ⟨hend, hholds, hrest⟩ := ih hfirst (by omega)
    have hend' : (ws.foldl WordStack.push (WordStack.push p w)).1.toNat =
        p.1.toNat - 4 * (ws.length + 1) := by omega
    refine ⟨hend', ?_, ?_⟩
    · rw [List.reverse_cons, List.append_assoc]
      exact hholds
    · refine (hwithin.mono fun x hx => ?_).trans (hrest.mono fun x hx => ?_)
      · rw [List.foldl_cons, hend']
        omega
      · rw [List.foldl_cons]
        omega

end WordStack
