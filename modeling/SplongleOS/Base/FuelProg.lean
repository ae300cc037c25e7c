import Mathlib.Logic.Basic
set_option autoImplicit false

/-! Imperative programs whose loops run on fuel. A program that runs out keeps the state
it has reached, so that what it did on the way can be reasoned about. -/

/-- The result, or none where the fuel ran out, and the state reached. -/
def FuelProg (σ α : Type) : Type := σ → Option α × σ

namespace FuelProg

variable {σ α β : Type}

protected def pure (a : α) : FuelProg σ α := fun s => (some a, s)

protected def bind (m : FuelProg σ α) (f : α → FuelProg σ β) : FuelProg σ β := fun s =>
  match m s with
  | (some a, t) => f a t
  | (none, t) => (none, t)

instance : Monad (FuelProg σ) where
  pure := FuelProg.pure
  bind := FuelProg.bind

def outOfFuel : FuelProg σ α := fun s => (none, s)

def modify (f : σ → σ) : FuelProg σ Unit := fun s => (some (), f s)

theorem bind_run {m : FuelProg σ α} {f : α → FuelProg σ β} {s t : σ} {a : α}
    (h : m s = (some a, t)) : (m >>= f) s = f a t := by
  change FuelProg.bind m f s = f a t
  rw [FuelProg.bind, h]

theorem bind_cut {m : FuelProg σ α} {f : α → FuelProg σ β} {s : σ} (h : (m s).1 = none) :
    ((m >>= f) s).1 = none := by
  change (FuelProg.bind m f s).1 = none
  rw [FuelProg.bind]
  cases hr : m s with
  | mk r t =>
    rw [hr] at h
    obtain rfl : r = none := h
    rfl

def Returns (m : FuelProg σ α) (a : α) : Prop := ∀ s, (m s).1 = some a

theorem Returns.pure (a : α) : Returns (Pure.pure a : FuelProg σ α) a := fun _ => rfl

theorem Returns.bind {m : FuelProg σ α} {f : α → FuelProg σ β} {a : α} {b : β} (hm : Returns m a)
    (hf : Returns (f a) b) : Returns (m >>= f) b := by
  intro s
  have hs := hm s
  cases hr : m s with
  | mk r t =>
    rw [hr] at hs
    obtain rfl : r = some a := hs
    rw [bind_run hr]
    exact hf t

/-- `Q` of what a run returned, `E` of the state it was cut off in. -/
def Post (Q : α → σ → Prop) (E : σ → Prop) : Option α × σ → Prop
  | (some a, s) => Q a s
  | (none, s) => E s

structure Triple (P : σ → Prop) (m : FuelProg σ α) (Q : α → σ → Prop) (E : σ → Prop) : Prop where
  post : ∀ s, P s → Post Q E (m s)

variable {P P' R E : σ → Prop} {Q Q' : α → σ → Prop}

theorem Triple.pure {a : α} (h : ∀ s, P s → Q a s) :
    Triple P (Pure.pure a : FuelProg σ α) Q E := ⟨h⟩

theorem Triple.outOfFuel (h : ∀ s, P s → E s) : Triple P (outOfFuel : FuelProg σ α) Q E := ⟨h⟩

theorem Triple.modify {f : σ → σ} (h : ∀ s, P s → R (f s)) :
    Triple P (modify f) (fun _ => R) E := ⟨h⟩

theorem Triple.bind {m : FuelProg σ α} {f : α → FuelProg σ β} {Q' : β → σ → Prop}
    (hm : Triple P m Q E) (hf : ∀ a, Triple (Q a) (f a) Q' E) : Triple P (m >>= f) Q' E where
  post s hs := by
    have hpost := hm.post s hs
    change Post Q' E (FuelProg.bind m f s)
    unfold FuelProg.bind
    cases hr : m s with
    | mk r t =>
      rw [hr] at hpost
      cases r with
      | some a => exact (hf a).post t hpost
      | none => exact hpost

theorem Triple.imp {m : FuelProg σ α} (h : Triple P m Q E) (hpre : ∀ s, P' s → P s)
    (hpost : ∀ a s, Q a s → Q' a s) : Triple P' m Q' E where
  post s hs := by
    have hm := h.post s (hpre s hs)
    cases hr : m s with
    | mk r t =>
      rw [hr] at hm
      cases r with
      | some a => exact hpost a t hm
      | none => exact hm

theorem Triple.ite {c : Prop} [Decidable c] {m n : FuelProg σ α}
    (ht : c → Triple P m Q E) (he : ¬c → Triple P n Q E) : Triple P (if c then m else n) Q E := by
  split
  · exact ht ‹_›
  · exact he ‹_›

abbrev Keeps (P : σ → Prop) (m : FuelProg σ α) : Prop := Triple P m (fun _ => P) P

theorem Triple.keep (a : α) : Triple P (Pure.pure a : FuelProg σ α) (fun _ => P) E :=
  .pure fun _ h => h

theorem Triple.cut : Keeps P (FuelProg.outOfFuel : FuelProg σ α) := .outOfFuel fun _ h => h

theorem Triple.cases {c : Prop} [Decidable c] {m n : FuelProg σ α} (hm : Triple P m Q E)
    (hn : Triple P n Q E) : Triple P (if c then m else n) Q E := .ite (fun _ => hm) fun _ => hn

theorem Triple.returned {m : FuelProg σ α} {s t : σ} {a : α} (h : Triple P m Q E) (hs : P s)
    (hr : m s = (some a, t)) : Q a t := by
  have hpost := h.post s hs
  rwa [hr] at hpost

theorem Triple.stopped {m : FuelProg σ α} {s : σ} (h : Triple P m (fun _ => R) R) (hs : P s) :
    R (m s).2 := by
  have hpost := h.post s hs
  cases hr : m s with
  | mk r t =>
    rw [hr] at hpost
    cases r with
    | some a => exact hpost
    | none => exact hpost

end FuelProg
