import Mathlib.Logic.Basic
set_option autoImplicit false

/-! Runs of a system whose steps are partial functions: a state, an action, and
the state the action leads to when the system allows it. -/

namespace Runs

variable {σ α : Type}

/-- States reached from `init` when every step meets `ok` in the state it starts from. -/
inductive Reach (step : σ → α → Option σ) (ok : σ → α → Prop) (init : σ → Prop) : σ → Prop where
  | start {s : σ} : init s → Reach step ok init s
  | next {s s' : σ} (a : α) : Reach step ok init s → ok s a → step s a = some s' →
      Reach step ok init s'

variable {step : σ → α → Option σ} {ok : σ → α → Prop} {init : σ → Prop} {I : σ → Prop}

/-- The induction every safety result uses: `I` at the start, `I` kept by one step. -/
theorem Reach.invariant (h0 : ∀ s, init s → I s)
    (hs : ∀ s a s', I s → ok s a → step s a = some s' → I s')
    {s : σ} (h : Reach step ok init s) : I s := by
  induction h with
  | start hi => exact h0 _ hi
  | next a _ hok hstep ih => exact hs _ a _ ih hok hstep

theorem Reach.invariant_total {f : σ → α → σ} (h0 : ∀ s, init s → I s)
    (hs : ∀ s a, I s → ok s a → I (f s a)) {s : σ}
    (h : Reach (fun s a => some (f s a)) ok init s) : I s := by
  refine h.invariant h0 fun s a s' hi hok hstep => ?_
  obtain rfl : f s a = s' := Option.some.inj hstep
  exact hs s a hi hok

theorem Reach.weaken {ok' : σ → α → Prop} (hok : ∀ s a, ok s a → ok' s a) {s : σ}
    (h : Reach step ok init s) : Reach step ok' init s := by
  induction h with
  | start hi => exact .start hi
  | next a _ ha hstep ih => exact .next a ih (hok _ _ ha) hstep

def run (step : σ → α → Option σ) (s : σ) : List α → Option σ
  | [] => some s
  | a :: as => (step s a).bind fun s' => run step s' as

theorem Reach.of_run {s s' : σ} {as : List α} (h : Reach step (fun _ _ => True) init s)
    (hr : run step s as = some s') : Reach step (fun _ _ => True) init s' := by
  induction as generalizing s with
  | nil =>
    simp only [run, Option.some.injEq] at hr
    exact hr ▸ h
  | cons a as ih =>
    cases hs : step s a with
    | none => simp [run, hs] at hr
    | some t =>
      have ht : run step t as = some s' := by simpa [run, hs] using hr
      exact ih (.next a h trivial hs) ht

end Runs
