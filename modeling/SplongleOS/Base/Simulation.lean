import SplongleOS.Base.Runs
set_option autoImplicit false

/-! Forward simulation: a system whose steps are partial functions, what can be observed of its
calls, and an abstract system that allows the same observations. -/

namespace Simulation

variable {σ τ α β : Type}

/-- The calls made from one state to another, each as the label it leaves. -/
inductive Calls (step : σ → α → Option σ) (ok : σ → α → Prop) (label : σ → α → β) :
    σ → List β → σ → Prop where
  | nil (s : σ) : Calls step ok label s [] s
  | snoc {s u v : σ} {bs : List β} (a : α) : Calls step ok label s bs u → ok u a →
      step u a = some v → Calls step ok label s (bs ++ [label u a]) v

inductive Path (next : τ → β → τ → Prop) : τ → List β → τ → Prop where
  | nil (t : τ) : Path next t [] t
  | snoc {t u v : τ} {bs : List β} {b : β} : Path next t bs u → next u b v →
      Path next t (bs ++ [b]) v

variable {step : σ → α → Option σ} {ok : σ → α → Prop} {label : σ → α → β}
  {next : τ → β → τ → Prop} {R : σ → τ → Prop} {s s' : σ} {t : τ} {bs : List β}

/-- Every step is matched, so every run is. -/
theorem Calls.simulate
    (hstep : ∀ u t a v, R u t → ok u a → step u a = some v → ∃ t', next t (label u a) t' ∧ R v t')
    (h : Calls step ok label s bs s') (hR : R s t) : ∃ t', Path next t bs t' ∧ R s' t' := by
  induction h with
  | nil => exact ⟨t, .nil t, hR⟩
  | snoc a _ hok hs ih =>
    obtain ⟨u, hpath, hu⟩ := ih
    obtain ⟨v, hnext, hv⟩ := hstep _ u a _ hu hok hs
    exact ⟨v, .snoc hpath hnext, hv⟩

theorem Calls.mirror {step' : τ → α → Option τ} {ok' : τ → α → Prop} {label' : τ → α → β}
    (hstep : ∀ u t a v, R u t → ok u a → step u a = some v →
      ok' t a ∧ label' t a = label u a ∧ ∃ t', step' t a = some t' ∧ R v t')
    (h : Calls step ok label s bs s') (hR : R s t) :
    ∃ t', Calls step' ok' label' t bs t' ∧ R s' t' := by
  induction h with
  | nil => exact ⟨t, .nil t, hR⟩
  | snoc a _ hok hs ih =>
    obtain ⟨u, hcalls, hu⟩ := ih
    obtain ⟨hok', hlabel, v, hnext, hv⟩ := hstep _ u a _ hu hok hs
    exact ⟨v, hlabel ▸ .snoc a hcalls hok' hnext, hv⟩

theorem Calls.single {a : α} {v : σ} (hok : ok s a) (hs : step s a = some v) :
    Calls step ok label s [label s a] v := .snoc a (.nil s) hok hs

theorem Calls.append {cs : List β} {v : σ} (h : Calls step ok label s bs s')
    (h' : Calls step ok label s' cs v) : Calls step ok label s (bs ++ cs) v := by
  induction h' with
  | nil => rwa [List.append_nil]
  | snoc a _ hok hs ih =>
    rw [← List.append_assoc]
    exact .snoc a ih hok hs

theorem Calls.invariant {I : σ → Prop} (hs : ∀ u a v, I u → ok u a → step u a = some v → I v)
    (h : Calls step ok label s bs s') (hI : I s) : I s' := by
  induction h with
  | nil => exact hI
  | snoc a _ hok hstep ih => exact hs _ a _ ih hok hstep

end Simulation
