import Mathlib.Data.Fin.Basic
import Mathlib.Logic.Function.Iterate
import Mathlib.Tactic.Common
set_option autoImplicit false

/-! A terminal of `rows` by `cols` cells with a cursor in it. -/

structure Terminal (α : Type) (rows cols : Nat) where
  cell : Fin rows → Fin cols → α
  x : Fin cols
  y : Fin rows

namespace Terminal

variable {α : Type} {rows cols : Nat}

def home (t : Terminal α rows cols) : Terminal α rows cols :=
  { t with x := ⟨0, Nat.zero_lt_of_lt t.x.isLt⟩ }

def scroll (blank : α) (t : Terminal α rows cols) : Terminal α rows cols :=
  { t with cell := fun y x => if h : y.val + 1 < rows then t.cell ⟨y.val + 1, h⟩ x else blank }

def lineFeed (blank : α) (t : Terminal α rows cols) : Terminal α rows cols :=
  if h : t.y.val + 1 < rows then { t with y := ⟨t.y.val + 1, h⟩ } else t.scroll blank

def newline (blank : α) (t : Terminal α rows cols) : Terminal α rows cols := t.home.lineFeed blank

def advance (blank : α) (t : Terminal α rows cols) : Terminal α rows cols :=
  if h : t.x.val + 1 < cols then { t with x := ⟨t.x.val + 1, h⟩ } else t.newline blank

def set (a : α) (t : Terminal α rows cols) : Terminal α rows cols :=
  { t with cell := fun y x => if y = t.y ∧ x = t.x then a else t.cell y x }

def write (blank a : α) (t : Terminal α rows cols) : Terminal α rows cols := (t.set a).advance blank

/-- Blanks up to the next column that is a multiple of `stop`. -/
def tab (stop : Nat) (blank : α) (t : Terminal α rows cols) : Terminal α rows cols :=
  (write blank blank)^[stop - t.x.val % stop] t

variable (t : Terminal α rows cols) (blank a : α)

@[simp] theorem set_cell_self : (t.set a).cell t.y t.x = a := if_pos ⟨rfl, rfl⟩

theorem set_cell_of_ne {y : Fin rows} {x : Fin cols} (h : ¬(y = t.y ∧ x = t.x)) :
    (t.set a).cell y x = t.cell y x := if_neg h

theorem scroll_cell_of_lt {y : Fin rows} (h : y.val + 1 < rows) (x : Fin cols) :
    (t.scroll blank).cell y x = t.cell ⟨y.val + 1, h⟩ x := dif_pos h

theorem scroll_cell_last {y : Fin rows} (h : y.val + 1 = rows) (x : Fin cols) :
    (t.scroll blank).cell y x = blank := dif_neg (by omega)

theorem lineFeed_of_lt (h : t.y.val + 1 < rows) :
    t.lineFeed blank = { t with y := ⟨t.y.val + 1, h⟩ } := dif_pos h

theorem lineFeed_last (h : t.y.val + 1 = rows) : t.lineFeed blank = t.scroll blank :=
  dif_neg (by omega)

theorem write_of_lt (h : t.x.val + 1 < cols) :
    t.write blank a = { t.set a with x := ⟨t.x.val + 1, h⟩ } := dif_pos h

theorem write_last (h : t.x.val + 1 = cols) : t.write blank a = (t.set a).newline blank :=
  dif_neg (by simp [set]; omega)

theorem lineFeed_x : (t.lineFeed blank).x = t.x := by
  unfold lineFeed
  split <;> rfl

theorem newline_x : (t.newline blank).x.val = 0 := by
  rw [newline, lineFeed_x]
  rfl

theorem write_x : (t.write blank a).x.val = (t.x.val + 1) % cols := by
  have hlt := t.x.isLt
  by_cases hx : t.x.val + 1 < cols
  · rw [write_of_lt t blank a hx, Nat.mod_eq_of_lt hx]
  · have hend : t.x.val + 1 = cols := by omega
    rw [write_last t blank a hend, newline_x, hend, Nat.mod_self]

theorem iterate_write_x (n : Nat) :
    ((write blank a)^[n] t).x.val = (t.x.val + n) % cols := by
  induction n with
  | zero => exact (Nat.mod_eq_of_lt t.x.isLt).symm
  | succ n ih =>
    rw [Function.iterate_succ_apply', write_x, ih, Nat.mod_add_mod, Nat.add_assoc]

def index (t : Terminal α rows cols) : Nat := cols * t.y.val + t.x.val

theorem set_cell_index {n : Nat} (hy : n / cols < rows) (hx : n % cols < cols) :
    (t.set a).cell ⟨n / cols, hy⟩ ⟨n % cols, hx⟩ =
      if n = t.index then a else t.cell ⟨n / cols, hy⟩ ⟨n % cols, hx⟩ := by
  have hpos : 0 < cols := Nat.zero_lt_of_lt hx
  have hlt := t.x.isLt
  have hhere : ((⟨n / cols, hy⟩ : Fin rows) = t.y ∧ (⟨n % cols, hx⟩ : Fin cols) = t.x) ↔ n = t.index := by
    simp only [Fin.ext_iff]
    constructor
    · rintro ⟨hrow, hcol⟩
      rw [index, ← hrow, ← hcol, Nat.div_add_mod]
    · intro heq
      rw [heq, index, Nat.mul_add_div hpos, Nat.mul_add_mod, Nat.div_eq_of_lt hlt, Nat.mod_eq_of_lt hlt]
      exact ⟨rfl, rfl⟩
  exact if_congr hhere rfl rfl

theorem newline_index (h : t.y.val + 1 < rows) : (t.newline blank).index = cols * (t.y.val + 1) := by
  have hrow : t.home.y.val + 1 < rows := h
  rw [newline, lineFeed_of_lt _ _ hrow]
  rfl

/-- Before the last cell, writing neither scrolls nor leaves row-major order. -/
theorem write_of_index_lt (h : t.index + 1 < cols * rows) :
    (t.write blank a).cell = (t.set a).cell ∧ (t.write blank a).index = t.index + 1 := by
  by_cases hx : t.x.val + 1 < cols
  · rw [write_of_lt t blank a hx]
    exact ⟨rfl, rfl⟩
  · have hend : t.x.val + 1 = cols := by
      have hlt := t.x.isLt
      omega
    have hindex : t.index + 1 = cols * (t.y.val + 1) := by
      rw [index, Nat.mul_succ, Nat.add_assoc, hend]
    have hrow : (t.set a).home.y.val + 1 < rows := Nat.lt_of_mul_lt_mul_left (hindex ▸ h)
    rw [write_last t blank a hend, hindex]
    refine ⟨?_, newline_index (t.set a) blank hrow⟩
    rw [newline, lineFeed_of_lt _ _ hrow]
    rfl

end Terminal
