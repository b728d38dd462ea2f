import Mathlib.Data.List.Basic

/-!
# Reading from and writing to a span

Code that decodes takes elements off the front of a span and can fail in
between; code that encodes fills a span from the front.  Both are computations
that keep their state when they fail, `EStateM`.

* `run_bind_eq_ok`, `run_bind_eq_error`: what a run of a sequence did.
* `Takes x`: `x` takes elements off the front and does nothing else.  `AtomicAt x s`: where
  it fails on `s`, it has not; `atomicAt_bind_iff` says when that can be.
* `Streams short x`: what `x` decides on the front of a span it decides on the whole;
  `Streams.run_take` is what that means for spans that are cut off.
* `OutSpan`, `Writes x a`: with room for `a`, `x` fills in exactly `a`.
  `Writes.then` puts two writers end to end, `Writes.forM` a loop of them.
* `FillsExactly x e a`: without room for `a` nothing is filled in.
-/

namespace Span

variable {ε σ α β γ : Type}

/-- A run of a sequence that succeeds is a run of its first part that succeeds,
and then of its second. -/
theorem run_bind_eq_ok {x : EStateM ε σ α} {f : α → EStateM ε σ β} {s s'' : σ} {b : β} :
    (x >>= f).run s = .ok b s'' ↔ ∃ a s', x.run s = .ok a s' ∧ (f a).run s' = .ok b s'' := by
  rw [EStateM.run_bind]
  cases x.run s with
  | ok a s' =>
    constructor
    · intro h
      exact ⟨a, s', rfl, h⟩
    · intro h'
      obtain ⟨_, _, h, hf⟩ := h'
      cases h
      exact hf
  | error e s' =>
    constructor
    · intro h
      cases h
    · intro h'
      obtain ⟨_, _, h, _⟩ := h'
      cases h

/-- The result of a plain function, as a step of a computation. -/
def lift (r : Except ε α) : EStateM ε σ α := fun s =>
  match r with
  | .ok a => .ok a s
  | .error e => .error e s

@[simp] theorem run_lift_ok (a : α) (s : σ) :
    (lift (.ok a) : EStateM ε σ α).run s = .ok a s := rfl

@[simp] theorem run_lift_error (e : ε) (s : σ) :
    (lift (.error e) : EStateM ε σ α).run s = .error e s := rfl

theorem run_lift_eq_ok {r : Except ε α} {s s' : σ} {a : α} :
    (lift r : EStateM ε σ α).run s = .ok a s' ↔ r = .ok a ∧ s = s' := by
  cases r with
  | ok b => simp
  | error e => simp

/-- `if c then return e`, the way a check leaves early. -/
def failIf (c : Prop) [Decidable c] (e : ε) : EStateM ε σ Unit :=
  if c then throw e else pure ()

theorem run_failIf_of_pos {c : Prop} [Decidable c] (h : c) (e : ε) (s : σ) :
    (failIf c e : EStateM ε σ Unit).run s = .error e s := by
  rw [failIf, if_pos h]
  rfl

theorem run_failIf_of_neg {c : Prop} [Decidable c] (h : ¬ c) (e : ε) (s : σ) :
    (failIf c e : EStateM ε σ Unit).run s = .ok () s := by
  rw [failIf, if_neg h]
  rfl

theorem run_get_bind (f : σ → EStateM ε σ β) (s : σ) : (get >>= f).run s = (f s).run s := rfl

theorem run_failIf_bind_of_pos {c : Prop} [Decidable c] (h : c) (e : ε) (f : Unit → EStateM ε σ β)
    (s : σ) : (failIf c e >>= f).run s = .error e s := by
  rw [EStateM.run_bind, run_failIf_of_pos h]

theorem run_failIf_bind_of_neg {c : Prop} [Decidable c] (h : ¬ c) (e : ε)
    (f : Unit → EStateM ε σ β) (s : σ) : (failIf c e >>= f).run s = (f ()).run s := by
  rw [EStateM.run_bind, run_failIf_of_neg h]

theorem run_failIf_eq_ok {c : Prop} [Decidable c] {e : ε} {s s' : σ} {u : Unit} :
    (failIf c e : EStateM ε σ Unit).run s = .ok u s' ↔ ¬ c ∧ s = s' := by
  by_cases h : c
  · simp [run_failIf_of_pos h, h]
  · simp [run_failIf_of_neg h, h]

theorem run_bind_eq_error {x : EStateM ε σ α} {f : α → EStateM ε σ β} {s s'' : σ} {e : ε} :
    (x >>= f).run s = .error e s'' ↔
      x.run s = .error e s'' ∨ ∃ a s', x.run s = .ok a s' ∧ (f a).run s' = .error e s'' := by
  rw [EStateM.run_bind]
  cases x.run s with
  | ok a s' =>
    constructor
    · intro h
      exact Or.inr ⟨a, s', rfl, h⟩
    · intro h
      rcases h with h | ⟨_, _, h, hf⟩
      · cases h
      · cases h
        exact hf
  | error e' s' =>
    constructor
    · intro h
      cases h
      exact Or.inl rfl
    · intro h
      rcases h with h | ⟨_, _, h, _⟩
      · cases h
        rfl
      · cases h

/-! ### What is left of a span -/

/-- A computation only takes elements off the front: what it leaves, also when it fails, is
a tail of what it was given. -/
structure Takes (x : EStateM ε (List γ) α) : Prop where
  ok : ∀ {s s' : List γ} {a : α}, x.run s = .ok a s' → s' <:+ s
  error : ∀ {s s' : List γ} {e : ε}, x.run s = .error e s' → s' <:+ s

theorem Takes.pure (a : α) : Takes (pure a : EStateM ε (List γ) α) where
  ok h := by
    cases h
    exact List.suffix_rfl
  error h := by cases h

theorem Takes.lift (r : Except ε α) : Takes (lift r : EStateM ε (List γ) α) := by
  cases r with
  | ok a => exact Takes.pure a
  | error e =>
    refine ⟨fun h => ?_, fun h => ?_⟩
    · cases h
    · cases h
      exact List.suffix_rfl

theorem Takes.failIf (c : Prop) [Decidable c] (e : ε) :
    Takes (failIf c e : EStateM ε (List γ) Unit) := by
  by_cases h : c
  · rw [Span.failIf, if_pos h]
    exact Takes.lift (.error e)
  · rw [Span.failIf, if_neg h]
    exact Takes.pure ()

theorem Takes.bind {x : EStateM ε (List γ) α} {f : α → EStateM ε (List γ) β} (hx : Takes x)
    (hf : ∀ a, Takes (f a)) : Takes (x >>= f) where
  ok h := by
    obtain ⟨a, _, hrun, hrest⟩ := run_bind_eq_ok.mp h
    exact ((hf a).ok hrest).trans (hx.ok hrun)
  error h := by
    rcases run_bind_eq_error.mp h with hrun | ⟨a, _, hrun, hrest⟩
    · exact hx.error hrun
    · exact ((hf a).error hrest).trans (hx.ok hrun)

/-- A computation decides on the front of a span as it decides on the whole, unless it finds
that there is too little of it, which is the error `short`. -/
structure Streams (short : ε) (x : EStateM ε (List γ) α) : Prop where
  ok : ∀ {s s' : List γ} {a : α}, x.run s = .ok a s' → ∀ t, x.run (s ++ t) = .ok a (s' ++ t)
  error : ∀ {s s' : List γ} {e : ε}, x.run s = .error e s' →
    e = short ∨ ∀ t, x.run (s ++ t) = .error e (s' ++ t)

section

variable {short : ε}

theorem Streams.pure (a : α) : Streams short (pure a : EStateM ε (List γ) α) where
  ok h := by
    cases h
    exact fun _ => rfl
  error h := by cases h

theorem Streams.lift (r : Except ε α) : Streams short (lift r : EStateM ε (List γ) α) := by
  cases r with
  | ok a => exact Streams.pure a
  | error e =>
    refine ⟨fun h => ?_, fun h => ?_⟩
    · cases h
    · cases h
      exact Or.inr (fun _ => rfl)

theorem Streams.failIf (c : Prop) [Decidable c] (e : ε) :
    Streams short (failIf c e : EStateM ε (List γ) Unit) := by
  by_cases h : c
  · rw [Span.failIf, if_pos h]
    exact Streams.lift (.error e)
  · rw [Span.failIf, if_neg h]
    exact Streams.pure ()

theorem Streams.bind {x : EStateM ε (List γ) α} {f : α → EStateM ε (List γ) β}
    (hx : Streams short x) (hf : ∀ a, Streams short (f a)) : Streams short (x >>= f) where
  ok h t := by
    obtain ⟨a, _, hrun, hrest⟩ := run_bind_eq_ok.mp h
    exact run_bind_eq_ok.mpr ⟨a, _, hx.ok hrun t, (hf a).ok hrest t⟩
  error h := by
    rcases run_bind_eq_error.mp h with hrun | ⟨a, _, hrun, hrest⟩
    · rcases hx.error hrun with he | hmore
      · exact Or.inl he
      · exact Or.inr (fun t => run_bind_eq_error.mpr (Or.inl (hmore t)))
    · rcases (hf a).error hrest with he | hmore
      · exact Or.inl he
      · exact Or.inr (fun t => run_bind_eq_error.mpr (Or.inr ⟨a, _, hx.ok hrun t, hmore t⟩))

/-- **Cut off anywhere, what is taken whole is too short.** -/
theorem Streams.run_take {x : EStateM ε (List γ) α} (hx : Streams short x) {b : List γ} {a : α}
    (h : x.run b = .ok a []) {k : Nat} (hk : k < b.length) :
    ∃ s', x.run (b.take k) = .error short s' := by
  cases hrun : x.run (b.take k) with
  | ok a' s' =>
    -- with the rest of `b` behind it the computation would leave that rest
    have hwhole := hx.ok hrun (b.drop k)
    rw [List.take_append_drop, h, EStateM.Result.ok.injEq] at hwhole
    have hdrop := (List.append_eq_nil_iff.mp hwhole.2.symm).2
    rw [List.drop_eq_nil_iff] at hdrop
    omega
  | error e s' =>
    rcases hx.error hrun with rfl | hmore
    · exact ⟨s', rfl⟩
    · have hwhole := hmore (b.drop k)
      rw [List.take_append_drop, h] at hwhole
      cases hwhole

end

/-- On `s`, a failure leaves `s` as it was. -/
def AtomicAt (x : EStateM ε σ α) (s : σ) : Prop :=
  ∀ e s', x.run s = .error e s' → s' = s

/-- **After a first step that takes something there is no way back**: a sequence is atomic
exactly where this step fails, or nothing does. -/
theorem atomicAt_bind_iff {x : EStateM ε (List γ) α} {f : α → EStateM ε (List γ) β} {s : List γ}
    (hx : AtomicAt x s) (htakes : ∀ a s', x.run s = .ok a s' → s'.length < s.length)
    (hf : ∀ a, Takes (f a)) : AtomicAt (x >>= f) s ↔
      (∃ e s', x.run s = .error e s') ∨ ∃ b s', (x >>= f).run s = .ok b s' := by
  constructor
  · intro h
    cases hrun : x.run s with
    | error e s' => exact Or.inl ⟨e, s', rfl⟩
    | ok a s' =>
      cases hseq : (x >>= f).run s with
      | ok b s'' => exact Or.inr ⟨b, s'', rfl⟩
      | error e s'' =>
        -- the failure is one of `f a`, which cannot give back what `x` has taken
        obtain rfl := h e s'' hseq
        rcases run_bind_eq_error.mp hseq with hfail | ⟨a', t, hok, hfail⟩
        · rw [hrun] at hfail
          cases hfail
        · have := htakes a' t hok
          have := ((hf a').error hfail).length_le
          omega
  · intro h e s'' hseq
    rcases h with ⟨e', s', hfail⟩ | ⟨b, s', hok⟩
    · rcases run_bind_eq_error.mp hseq with hrun | ⟨a, t, hrun, _⟩
      · exact hx e s'' hrun
      · rw [hrun] at hfail
        cases hfail
    · rw [hok] at hseq
      cases hseq

/-- `std::copy(values.begin(), values.end(), out.begin() + i)` -/
def copyTo (out : List γ) (i : Nat) (values : List γ) : List γ :=
  out.take i ++ (values ++ out.drop (i + values.length))

/-! ### Writers -/

/-- A buffer and how far it is filled: `rest` is what the span still covers. -/
structure OutSpan (γ : Type) where
  written : List γ
  rest : List γ

def OutSpan.buffer (out : OutSpan γ) : List γ := out.written ++ out.rest

def OutSpan.of (buffer : List γ) : OutSpan γ := ⟨[], buffer⟩

/-- `if (out.size() < size) return e`, before anything is filled in. -/
def requireRoom (size : Nat) (e : ε) : EStateM ε (OutSpan γ) Unit := fun out =>
  if out.rest.length < size then .error e out else .ok () out

/-- `std::ignore = x`. -/
def ignore (x : EStateM ε (OutSpan γ) Unit) : EStateM ε (OutSpan γ) Unit := fun s =>
  match x.run s with
  | .ok _ s' => .ok () s'
  | .error _ s' => .ok () s'

/-- With room for `a`, `x` fills in exactly `a`. -/
def Writes (x : EStateM ε (OutSpan γ) Unit) (a : List γ) : Prop :=
  ∀ w r, a.length ≤ r.length → x.run ⟨w, r⟩ = .ok () ⟨w ++ a, r.drop a.length⟩

theorem Writes.pure : Writes (pure () : EStateM ε (OutSpan γ) Unit) [] := by
  intro w r _
  rw [List.append_nil]
  rfl

theorem Writes.ignore {x : EStateM ε (OutSpan γ) Unit} {a : List γ} (h : Writes x a) :
    Writes (ignore x) a := by
  intro w r hr
  show (match x.run ⟨w, r⟩ with
    | .ok _ s' => .ok () s'
    | .error _ s' => .ok () s' : EStateM.Result ε (OutSpan γ) Unit) = _
  rw [h w r hr]

theorem Writes.requireRoom {x : EStateM ε (OutSpan γ) Unit} {a : List γ} {size : Nat}
    (h : size ≤ a.length) (e : ε) (hx : Writes x a) :
    Writes (requireRoom size e >>= fun _ => x) a := by
  intro w r hr
  have hroom : (Span.requireRoom size e).run (⟨w, r⟩ : OutSpan γ) = .ok () ⟨w, r⟩ := by
    show (if r.length < size then _ else _ : EStateM.Result ε (OutSpan γ) Unit) = _
    rw [if_neg (by omega)]
  rw [EStateM.run_bind, hroom]
  exact hx w r hr

/-- What is done with the result of a writer does not matter to it, with room. -/
def Harmless (handle : EStateM ε (OutSpan γ) Unit → EStateM ε (OutSpan γ) Unit) : Prop :=
  ∀ {x : EStateM ε (OutSpan γ) Unit} {a : List γ}, Writes x a → Writes (handle x) a

theorem harmless_ignore : Harmless (ignore : EStateM ε (OutSpan γ) Unit → _) := Writes.ignore

theorem harmless_id : Harmless (id : EStateM ε (OutSpan γ) Unit → _) := id

/-- **Two writers end to end.** -/
theorem Writes.then {x y : EStateM ε (OutSpan γ) Unit} {a b : List γ} (hx : Writes x a)
    (hy : Writes y b) : Writes (x >>= fun _ => y) (a ++ b) := by
  intro w r hr
  rw [List.length_append] at hr
  rw [EStateM.run_bind, hx w r (by omega)]
  show y.run _ = _
  rw [hy _ _ (by rw [List.length_drop]; omega), List.append_assoc, List.drop_drop,
    List.length_append]

/-- **A loop of writers**, one for each element of a list. -/
theorem Writes.forM {f : α → EStateM ε (OutSpan γ) Unit} {g : α → List γ} :
    ∀ {l : List α}, (∀ v ∈ l, Writes (f v) (g v)) → Writes (l.forM f) (l.flatMap g) := by
  intro l
  induction l with
  | nil => intro _; exact Writes.pure
  | cons v l ih =>
    intro h
    rw [List.flatMap_cons]
    exact (h v List.mem_cons_self).then (ih (fun u hu => h u (List.mem_cons_of_mem v hu)))

/-- All or nothing: a buffer that is too short for `a` stays as it is, with the error `e`; any
other is filled in with `a`, whatever it held, and left alone behind that. -/
def FillsExactly (x : EStateM ε (OutSpan γ) Unit) (e : ε) (a : List γ) : Prop :=
  ∀ buffer : List γ, x.run (OutSpan.of buffer) =
    if buffer.length < a.length then .error e (OutSpan.of buffer)
    else .ok () ⟨a, buffer.drop a.length⟩

/-- **A writer that asks for the room it takes** is all or nothing. -/
theorem Writes.fillsExactly {x : EStateM ε (OutSpan γ) Unit} {a : List γ} {size : Nat}
    (hx : Writes x a) (hsize : a.length = size) (e : ε) :
    FillsExactly (Span.requireRoom size e >>= fun _ => x) e a := by
  intro buffer
  split
  · rename_i hshort
    have hroom : (Span.requireRoom size e).run (OutSpan.of buffer)
        = .error e (OutSpan.of buffer) := if_pos (by rwa [← hsize])
    rw [EStateM.run_bind, hroom]
  · rename_i hroom
    exact hx.requireRoom (Nat.le_of_eq hsize.symm) e [] buffer (Nat.not_lt.mp hroom)

end Span
