import Mathlib.Data.BitVec
import Mathlib.Tactic.Common
set_option autoImplicit false

/-! Byte memory with little-endian words, and frames: what a piece of code can have
changed when it only writes inside a set of addresses. -/

namespace ByteMemory

abbrev Mem := Nat → BitVec 8

def load32 (m : Mem) (a : Nat) : BitVec 32 := m (a + 3) ++ m (a + 2) ++ m (a + 1) ++ m a

def store8 (m : Mem) (a : Nat) (v : BitVec 8) : Mem := fun x => if x = a then v else m x

def store16 (m : Mem) (a : Nat) (v : BitVec 16) : Mem :=
  store8 (store8 m a (v.extractLsb' 0 8)) (a + 1) (v.extractLsb' 8 8)

def store32 (m : Mem) (a : Nat) (v : BitVec 32) : Mem := fun x =>
  if x = a then v.extractLsb' 0 8
  else if x = a + 1 then v.extractLsb' 8 8
  else if x = a + 2 then v.extractLsb' 16 8
  else if x = a + 3 then v.extractLsb' 24 8
  else m x

def fill (m : Mem) (a n : Nat) (v : BitVec 8) : Mem := fun x => if a ≤ x ∧ x < a + n then v else m x

theorem append_extractLsb (v : BitVec 32) :
    v.extractLsb' 24 8 ++ v.extractLsb' 16 8 ++ v.extractLsb' 8 8 ++ v.extractLsb' 0 8 = v := by
  apply BitVec.eq_of_getLsbD_eq
  intro i hi
  simp only [BitVec.getLsbD_append, BitVec.getLsbD_extractLsb']
  by_cases h0 : i < 8
  · simp [h0]
  · by_cases h1 : i - 8 < 8
    · have : 8 + (i - 8) = i := by omega
      simp [h0, h1, this]
    · by_cases h2 : i - 8 - 8 < 8
      · have : 16 + (i - 8 - 8) = i := by omega
        simp [h0, h1, h2, this]
      · have h3 : i - 8 - 8 - 8 < 8 := by omega
        have : 24 + (i - 8 - 8 - 8) = i := by omega
        simp [h0, h1, h2, h3, this]

theorem append_halves (w : BitVec 16) : w.extractLsb' 8 8 ++ w.extractLsb' 0 8 = w := by
  refine BitVec.eq_of_getLsbD_eq fun i hi => ?_
  simp only [BitVec.getLsbD_append, BitVec.getLsbD_extractLsb']
  by_cases hlow : i < 8
  · simp [hlow]
  · have hsum : 8 + (i - 8) = i := by omega
    have hup : i - 8 < 8 := by omega
    simp [hlow, hup, hsum]

variable {m m' m'' : Mem} {S T : Nat → Prop} {a b n : Nat}

theorem load32_store32 (m : Mem) (a : Nat) (v : BitVec 32) : load32 (store32 m a v) a = v := by
  unfold load32 store32
  simp [append_extractLsb]

theorem load32_congr (h : ∀ k < 4, m' (a + k) = m (a + k)) : load32 m' a = load32 m a := by
  have h0 := h 0 (by decide)
  rw [Nat.add_zero] at h0
  unfold load32
  rw [h0, h 1 (by decide), h 2 (by decide), h 3 (by decide)]

/-- Outside `S` nothing has changed. -/
def Within (S : Nat → Prop) (m m' : Mem) : Prop := ∀ x, ¬S x → m' x = m x

theorem Within.refl (S : Nat → Prop) (m : Mem) : Within S m m := fun _ _ => rfl

theorem Within.trans (h : Within S m m') (h' : Within S m' m'') : Within S m m'' :=
  fun x hx => (h' x hx).trans (h x hx)

theorem Within.mono (h : Within S m m') (hST : ∀ x, S x → T x) : Within T m m' :=
  fun x hx => h x fun hS => hx (hST x hS)

theorem Within.foldl {ι : Type} {f : Mem → ι → Mem} (h : ∀ m i, Within S m (f m i)) (is : List ι)
    (m : Mem) : Within S m (is.foldl f m) := by
  induction is generalizing m with
  | nil => exact Within.refl S m
  | cons i is ih => exact (h m i).trans (ih (f m i))

theorem Within.load32 (h : Within S m m') (hout : ∀ k < 4, ¬S (a + k)) :
    load32 m' a = load32 m a := load32_congr fun k hk => h (a + k) (hout k hk)

theorem within_store8 (m : Mem) {a : Nat} (v : BitVec 8) (hin : S a) : Within S m (store8 m a v) := by
  intro x hx
  have hxa : x ≠ a := fun heq => hx (heq ▸ hin)
  unfold store8
  rw [if_neg hxa]

theorem within_store32 (m : Mem) {a : Nat} (v : BitVec 32) (hin : ∀ k < 4, S (a + k)) :
    Within S m (store32 m a v) := by
  intro x hx
  have hne : ∀ k < 4, x ≠ a + k := fun k hk heq => hx (heq ▸ hin k hk)
  have h0 : x ≠ a := hne 0 (by decide)
  unfold store32
  rw [if_neg h0, if_neg (hne 1 (by decide)), if_neg (hne 2 (by decide)), if_neg (hne 3 (by decide))]

theorem within_store16 (m : Mem) {a : Nat} (v : BitVec 16) (hlow : S a) (hhigh : S (a + 1)) :
    Within S m (store16 m a v) :=
  (within_store8 m _ hlow).trans (within_store8 _ _ hhigh)

theorem within_fill (m : Mem) {a n : Nat} (v : BitVec 8) (hin : ∀ x, a ≤ x → x < a + n → S x) :
    Within S m (fill m a n v) := by
  intro x hx
  unfold fill
  rw [if_neg fun h => hx (hin x h.1 h.2)]

theorem load32_store32_apart (m : Mem) (v : BitVec 32) (h : b + 4 ≤ a ∨ a + 4 ≤ b) :
    load32 (store32 m a v) b = load32 m b := by
  have hw : Within (fun x => a ≤ x ∧ x < a + 4) m (store32 m a v) :=
    within_store32 m v fun k hk => ⟨by omega, by omega⟩
  exact hw.load32 fun k hk => by omega

theorem load32_store8_apart (m : Mem) (v : BitVec 8) (h : b + 4 ≤ a ∨ a < b) :
    load32 (store8 m a v) b = load32 m b := by
  have hw : Within (fun x => x = a) m (store8 m a v) := within_store8 m v rfl
  exact hw.load32 fun k hk => by omega

end ByteMemory
