set_option autoImplicit false

/-! Straight-line code one instruction at a time: what it ends with, and what holds at
every point on the way. -/

namespace StraightLine

variable {σ ι : Type} (exec : σ → ι → σ)

def run (s : σ) (code : List ι) : σ := code.foldl exec s

/-- `P` holds before every instruction and at the end. -/
def Always (P : σ → Prop) (s : σ) : List ι → Prop
  | [] => P s
  | i :: code => P s ∧ Always P (exec s i) code

variable {exec} {P : σ → Prop} {s : σ}

@[simp] theorem run_nil : run exec s [] = s := rfl

@[simp] theorem run_cons (i : ι) (code : List ι) : run exec s (i :: code) = run exec (exec s i) code :=
  rfl

@[simp] theorem always_nil : Always exec P s [] ↔ P s := Iff.rfl

@[simp] theorem always_cons (i : ι) (code : List ι) :
    Always exec P s (i :: code) ↔ P s ∧ Always exec P (exec s i) code := Iff.rfl

theorem Always.now {code : List ι} (h : Always exec P s code) : P s := by
  cases code with
  | nil => exact h
  | cons i code => exact h.1

theorem Always.append {code code' : List ι} (h : Always exec P s code)
    (h' : Always exec P (run exec s code) code') : Always exec P s (code ++ code') := by
  induction code generalizing s with
  | nil => exact h'
  | cons i code ih => exact ⟨h.1, ih h.2 h'⟩

end StraightLine
