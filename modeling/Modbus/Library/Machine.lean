/-!
# Guarded runs of a machine

A machine takes steps that may be impossible (`step s e = none`), and a run is one whose
steps all satisfy a guard, a condition on the state before the step and on the event.
Assumptions about an environment are guards, so is a discipline that callers follow.

* `Run.invariant`: what holds at the start and is kept by every guarded step holds in
  every state reached.
* `Run.of_exec`: a list of events that checks out is a run.
* `exec_erase`: a list of events is run by another machine, which does not see some of them.
-/

namespace Machine

variable {S E : Type} {step : S → E → Option S} {guard : S → E → Prop} {start s s' : S}

/-- `s` is reached from `start` by steps that satisfy the guard. -/
inductive Run (step : S → E → Option S) (guard : S → E → Prop) (start : S) : S → Prop
  | refl : Run step guard start start
  | tail {s s' : S} {e : E} (prior : Run step guard start s) (hguard : guard s e)
      (hstep : step s e = some s') : Run step guard start s'

/-- **The invariant rule.** -/
theorem Run.invariant {I : S → Prop} (h : Run step guard start s) (hstart : I start)
    (hstep : ∀ s e s', I s → guard s e → step s e = some s' → I s') : I s := by
  induction h with
  | refl => exact hstart
  | tail _ hguard hs ih => exact hstep _ _ _ ih hguard hs

/-- The state after a list of events, when all of them are possible and guarded. -/
def exec (step : S → E → Option S) (guard : S → E → Prop) [∀ s e, Decidable (guard s e)] (s : S) :
    List E → Option S
  | [] => some s
  | e :: events => if guard s e then (step s e).bind (fun s' => exec step guard s' events) else none

theorem Run.of_exec [∀ s e, Decidable (guard s e)] {events : List E}
    (hrun : Run step guard start s) (h : exec step guard s events = some s') :
    Run step guard start s' := by
  induction events generalizing s with
  | nil =>
    cases h
    exact hrun
  | cons e events ih =>
    rw [exec] at h
    split at h
    · rename_i hguard
      obtain ⟨mid, hmid, hrest⟩ := Option.bind_eq_some_iff.mp h
      exact ih (.tail hrun hguard hmid) hrest
    · cases h

/-- A list of events that checks out is a run to where it leads. -/
theorem Run.of_isSome [∀ s e, Decidable (guard s e)] {events : List E}
    (h : (exec step guard start events).isSome) :
    Run step guard start ((exec step guard start events).get h) :=
  .of_exec .refl (Option.some_get h).symm

theorem exec_mono {guard' : S → E → Prop} [∀ s e, Decidable (guard s e)]
    [∀ s e, Decidable (guard' s e)] (hguard : ∀ s e, guard s e → guard' s e) {events : List E}
    (h : exec step guard s events = some s') : exec step guard' s events = some s' := by
  induction events generalizing s with
  | nil => exact h
  | cons e events ih =>
    rw [exec] at h ⊢
    split at h
    · rename_i he
      obtain ⟨mid, hmid, hrest⟩ := Option.bind_eq_some_iff.mp h
      rw [if_pos (hguard s e he), hmid]
      exact ih hrest
    · cases h

/-! ### Erasing steps -/

/-- A list of events without those that are not kept; which ones these are is told as the
list is run. -/
def erase (step : S → E → Option S) (keep : S → E → Bool) (s : S) : List E → List E
  | [] => []
  | e :: events =>
    match step s e with
    | some s' => if keep s e then e :: erase step keep s' events else erase step keep s' events
    | none => e :: events

theorem erase_cons_of_keep {keep : S → E → Bool} {e : E} (hstep : step s e = some s')
    (hkeep : keep s e = true) (events : List E) :
    erase step keep s (e :: events) = e :: erase step keep s' events := by
  rw [erase, hstep]
  exact if_pos hkeep

theorem erase_cons_of_drop {keep : S → E → Bool} {e : E} (hstep : step s e = some s')
    (hdrop : keep s e = false) (events : List E) :
    erase step keep s (e :: events) = erase step keep s' events := by
  rw [erase, hstep]
  exact if_neg (Bool.eq_false_iff.mp hdrop)

/-- **The erasure rule.**  Where a step that is kept is matched by a step of another machine,
and a step that is not kept changes nothing that this machine sees, it runs the list without
the steps that are not kept. -/
theorem exec_erase {S' : Type} {step' : S' → E → Option S'} {guard' : S' → E → Prop}
    [∀ s e, Decidable (guard s e)] [∀ s e, Decidable (guard' s e)] {f : S → S'}
    {keep : S → E → Bool}
    (hkeep : ∀ {s e s'}, guard s e → keep s e = true → step s e = some s' →
      guard' (f s) e ∧ step' (f s) e = some (f s'))
    (hdrop : ∀ {s e s'}, guard s e → keep s e = false → step s e = some s' → f s' = f s)
    {events : List E} (h : exec step guard s events = some s') :
    exec step' guard' (f s) (erase step keep s events) = some (f s') := by
  induction events generalizing s with
  | nil =>
    cases h
    rfl
  | cons e events ih =>
    rw [exec] at h
    split at h
    · rename_i hguard
      obtain ⟨mid, hmid, hrest⟩ := Option.bind_eq_some_iff.mp h
      cases hk : keep s e with
      | true =>
        obtain ⟨hguard', hstep'⟩ := hkeep hguard hk hmid
        rw [erase_cons_of_keep hmid hk, exec, if_pos hguard', hstep']
        exact ih hrest
      | false =>
        rw [erase_cons_of_drop hmid hk, ← hdrop hguard hk hmid]
        exact ih hrest
    · cases h

end Machine
