import Modbus.Library.Span

/-!
# A computation that goes as another one does

Of two computations that keep their state when they fail, one may know more than the other: it
has more in its state, and more ways to fail.  `Refines` says that it does what the other one
does, so the failures that only it knows do not happen.

* `Refines.ok_of_run`, `Refines.error_of_run`: what that means for a run.
* `Refines.bind`, `Refines.step`: a sequence step by step, with the other one or alone.
-/

namespace Refinement

open Span

variable {ε ε' σ τ α β γ δ : Type}

/-- From the states where `P` holds `x` goes as `y` does on what `view` shows of the state, with
`err` for the errors of `y`; when they succeed, `Q` holds of the two results and the state. -/
structure Refines (view : σ → τ) (err : ε' → ε) (P : σ → Prop) (x : EStateM ε σ α)
    (y : EStateM ε' τ β) (Q : α → β → σ → Prop) : Prop where
  ok : ∀ {s : σ} {t : τ} {b : β}, P s → y.run (view s) = .ok b t →
    ∃ a s', x.run s = .ok a s' ∧ view s' = t ∧ Q a b s'
  error : ∀ {s : σ} {t : τ} {e : ε'}, P s → y.run (view s) = .error e t →
    ∃ s', x.run s = .error (err e) s' ∧ view s' = t

variable {view : σ → τ} {err : ε' → ε} {P : σ → Prop} {x : EStateM ε σ α}
  {y : EStateM ε' τ β} {Q : α → β → σ → Prop} {s s' : σ}

/-! ### Runs -/

/-- **A run that succeeds** does so with the other one. -/
theorem Refines.ok_of_run (h : Refines view err P x y Q) (hs : P s) {a : α}
    (hrun : x.run s = .ok a s') : ∃ b, y.run (view s) = .ok b (view s') ∧ Q a b s' := by
  cases hy : y.run (view s) with
  | ok b t =>
    obtain ⟨a', s'', hx, rfl, hq⟩ := h.ok hs hy
    rw [hrun] at hx
    cases hx
    exact ⟨b, rfl, hq⟩
  | error e t =>
    obtain ⟨s'', hx, _⟩ := h.error hs hy
    rw [hrun] at hx
    cases hx

/-- **A run that fails** fails as the other one does. -/
theorem Refines.error_of_run (h : Refines view err P x y Q) (hs : P s) {e : ε}
    (hrun : x.run s = .error e s') : ∃ e', e = err e' ∧ y.run (view s) = .error e' (view s') := by
  cases hy : y.run (view s) with
  | ok b t =>
    obtain ⟨a, s'', hx, _⟩ := h.ok hs hy
    rw [hrun] at hx
    cases hx
  | error e' t =>
    obtain ⟨s'', hx, rfl⟩ := h.error hs hy
    rw [hrun] at hx
    cases hx
    exact ⟨e', rfl, rfl⟩

/-! ### Rules -/

theorem Refines.of_imp {c : Prop} (h : c → Refines view err P x y Q) :
    Refines view err (fun s => c ∧ P s) x y Q :=
  ⟨fun hs => (h hs.1).ok hs.2, fun hs => (h hs.1).error hs.2⟩

theorem Refines.pure {a : α} {b : β} (h : ∀ s, P s → Q a b s) :
    Refines view err P (pure a) (pure b) Q where
  ok hs hrun := by
    cases hrun
    exact ⟨a, _, rfl, rfl, h _ hs⟩
  error _ hrun := by cases hrun

theorem Refines.failIf (c : Prop) [Decidable c] (e : ε') :
    Refines view err P (failIf c (err e)) (failIf c e) (fun _ _ s => ¬ c ∧ P s) := by
  by_cases hc : c
  · rw [Span.failIf, if_pos hc, Span.failIf, if_pos hc]
    refine ⟨fun _ hrun => ?_, fun _ hrun => ?_⟩
    · cases hrun
    · cases hrun
      exact ⟨_, rfl, rfl⟩
  · rw [Span.failIf, if_neg hc, Span.failIf, if_neg hc]
    exact Refines.pure (fun s hs => ⟨hc, hs⟩)

/-- **One step of both.** -/
theorem Refines.bind {f : α → EStateM ε σ γ} {g : β → EStateM ε' τ δ} {R : γ → δ → σ → Prop}
    (h : Refines view err P x y Q) (hf : ∀ a b, Refines view err (Q a b) (f a) (g b) R) :
    Refines view err P (x >>= f) (y >>= g) R where
  ok hs hrun := by
    obtain ⟨b, t, hy, hg⟩ := run_bind_eq_ok.mp hrun
    obtain ⟨a, s', hx, rfl, hq⟩ := h.ok hs hy
    obtain ⟨c, s'', hc, ht, hr⟩ := (hf a b).ok hq hg
    exact ⟨c, s'', run_bind_eq_ok.mpr ⟨a, s', hx, hc⟩, ht, hr⟩
  error hs hrun := by
    rcases run_bind_eq_error.mp hrun with hy | ⟨b, t, hy, hg⟩
    · obtain ⟨s', hx, ht⟩ := h.error hs hy
      exact ⟨s', run_bind_eq_error.mpr (Or.inl hx), ht⟩
    · obtain ⟨a, s', hx, rfl, hq⟩ := h.ok hs hy
      obtain ⟨s'', hc, ht⟩ := (hf a b).error hq hg
      exact ⟨s'', run_bind_eq_error.mpr (Or.inr ⟨a, s', hx, hc⟩), ht⟩

theorem Refines.bind_eq {y : EStateM ε' τ α} {f : α → EStateM ε σ γ} {g : α → EStateM ε' τ δ}
    {Q : α → σ → Prop} {R : γ → δ → σ → Prop}
    (h : Refines view err P x y (fun a b s => a = b ∧ Q a s))
    (hf : ∀ a, Refines view err (Q a) (f a) (g a) R) : Refines view err P (x >>= f) (y >>= g) R :=
  h.bind (fun a _ => Refines.of_imp (fun hab => hab ▸ hf a))

/-- **One step of `x` alone**, which does not show. -/
theorem Refines.step {f : α → EStateM ε σ γ} (Q : α → σ → Prop) {R : γ → β → σ → Prop}
    (h : ∀ s, P s → ∃ a s', x.run s = .ok a s' ∧ view s' = view s ∧ Q a s')
    (hf : ∀ a, Refines view err (Q a) (f a) y R) : Refines view err P (x >>= f) y R := by
  have hx : Refines view err P x (Pure.pure () : EStateM ε' τ Unit) (fun a _ s => Q a s) := by
    refine ⟨fun hs hrun => ?_, fun _ hrun => ?_⟩
    · cases hrun
      exact h _ hs
    · cases hrun
  have hseq := hx.bind (fun a _ => hf a)
  rwa [pure_bind] at hseq

theorem Refines.bind_run {f : α → EStateM ε σ γ} {g : β → EStateM ε' τ δ} {R : γ → δ → σ → Prop}
    (h : Refines view err P x y Q)
    (hf : ∀ a b, (∃ t t', y.run t = .ok b t') → Refines view err (Q a b) (f a) (g b) R) :
    Refines view err P (x >>= f) (y >>= g) R := by
  have hrun : Refines view err P x y (fun a b s => (∃ t t', y.run t = .ok b t') ∧ Q a b s) := by
    refine ⟨fun hs hrun => ?_, h.error⟩
    obtain ⟨a, s', hx, ht, hq⟩ := h.ok hs hrun
    exact ⟨a, s', hx, ht, ⟨_, _, hrun⟩, hq⟩
  exact hrun.bind (fun a b => Refines.of_imp (hf a b))

/-- **A check** that both make. -/
theorem Refines.failIf_bind {c : Prop} [Decidable c] {e : ε'} {f : Unit → EStateM ε σ α}
    {g : Unit → EStateM ε' τ β} (hf : ¬ c → Refines view err P (f ()) (g ()) Q) :
    Refines view err P (Span.failIf c (err e) >>= f) (Span.failIf c e >>= g) Q :=
  (Refines.failIf c e).bind (fun _ _ => Refines.of_imp hf)

end Refinement
