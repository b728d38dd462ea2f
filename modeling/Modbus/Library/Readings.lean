import Modbus.Library.Counting

/-!
# Counters that are read and cleared while threads go on

Whoever reads several counters reads them one after another, and between two readings the
threads make increments; the same goes for whoever clears them.

* `Reads.between`: what is read lies between the beginning and the end.
* `Clears.count_le`, `le_count`: after clearing, what was done before does not count, and what is
  done later does.
* `Goes.fresh`: threads that have made all their increments may be forgotten.
-/

namespace Counting

variable {C I A : Type} {apply : C → I → C} {increments : A → List I} {s s' s'' : State C A}

/-- The threads go on. -/
abbrev Goes (apply : C → I → C) (increments : A → List I) (s s' : State C A) : Prop :=
  Machine.Run (step apply increments) (fun _ _ => True) s s'

/-- Counters are read one after another. -/
inductive Reads (apply : C → I → C) (increments : A → List I) :
    State C A → List (C → Nat) → List Nat → State C A → Prop
  | done {s s' : State C A} (h : Goes apply increments s s') : Reads apply increments s [] [] s'
  | next {s s' s'' : State C A} {count : C → Nat} {counts : List (C → Nat)} {values : List Nat}
      (h : Goes apply increments s s') (hrest : Reads apply increments s' counts values s'') :
      Reads apply increments s (count :: counts) (count s'.counters :: values) s''

/-- Counters are cleared one after another, by these functions. -/
inductive Clears (apply : C → I → C) (increments : A → List I) :
    State C A → List (C → C) → State C A → Prop
  | done {s s' : State C A} (h : Goes apply increments s s') : Clears apply increments s [] s'
  | next {s s' s'' : State C A} {clear : C → C} {clears : List (C → C)}
      (h : Goes apply increments s s')
      (hrest : Clears apply increments ⟨clear s'.counters, s'.threads⟩ clears s'') :
      Clears apply increments s (clear :: clears) s''

/-! ### Counters of threads that go on -/

theorem advance_eq_some {k : Nat} : step apply increments s (.advance k) = some s' ↔
    ∃ thread i, s.threads[k]? = some thread ∧ (increments thread.origin)[thread.made]? = some i ∧
      s' = ⟨apply s.counters i, s.threads.set k ⟨thread.origin, thread.made + 1⟩⟩ := by
  rw [step]
  cases s.threads[k]? with
  | none => simp
  | some thread =>
    constructor
    · intro h
      obtain ⟨i, hi, rfl⟩ := Option.map_eq_some_iff.mp h
      exact ⟨thread, i, rfl, hi, rfl⟩
    · rintro ⟨_, i, hthread, hi, rfl⟩
      cases hthread
      exact Option.map_eq_some_iff.mpr ⟨i, hi, rfl⟩

theorem Goes.trans (h : Goes apply increments s s') (h' : Goes apply increments s' s'') :
    Goes apply increments s s'' :=
  h'.invariant h fun _ _ _ hs hguard hstep => .tail hs hguard hstep

theorem Goes.length_le (h : Goes apply increments s s') : s.threads.length ≤ s'.threads.length := by
  refine h.invariant (I := fun s' => s.threads.length ≤ s'.threads.length) (Nat.le_refl _)
    (fun s₁ e s₂ hs _ hstep => Nat.le_trans hs ?_)
  cases e with
  | start origin =>
    cases hstep
    simp
  | advance k =>
    obtain ⟨_, _, _, _, rfl⟩ := advance_eq_some.mp hstep
    rw [List.length_set]

section

variable {count : C → Nat} {w : I → Nat}

theorem Goes.count_le (hw : Weighs apply count w) (h : Goes apply increments s s') :
    count s.counters ≤ count s'.counters := by
  refine h.invariant (I := fun s' => count s.counters ≤ count s'.counters) (Nat.le_refl _)
    (fun s₁ e s₂ hs _ hstep => Nat.le_trans hs ?_)
  cases e with
  | start origin =>
    cases hstep
    exact Nat.le_refl _
  | advance k =>
    obtain ⟨thread, i, _, _, rfl⟩ := advance_eq_some.mp hstep
    exact (hw s₁.counters i).symm ▸ Nat.le_add_right _ _

/-- **A counter grows by what is done.** -/
theorem Goes.count_add_tally (hw : Weighs apply count w) (h : Goes apply increments s s') :
    count s'.counters + tally increments w s.threads
      = count s.counters + tally increments w s'.threads := by
  refine h.invariant (I := fun s' => count s'.counters + tally increments w s.threads
    = count s.counters + tally increments w s'.threads) rfl (fun s₁ e s₂ hs _ hstep => ?_)
  have hmade := tally_step hw hstep
  have hs : count s₁.counters + tally increments w s.threads
    = count s.counters + tally increments w s₁.threads := hs
  show count s₂.counters + tally increments w s.threads
    = count s.counters + tally increments w s₂.threads
  omega

theorem Goes.tally_le (hw : Weighs apply count w) (h : Goes apply increments s s') :
    tally increments w s.threads ≤ tally increments w s'.threads := by
  have hcount := h.count_le hw
  have htally := h.count_add_tally hw
  omega

end

/-! ### Threads that are done -/

/-- **Threads that are done may be forgotten**: only the others make increments. -/
theorem Goes.fresh (hq : Quiescent increments s.threads) (h : Goes apply increments s s') :
    ∃ later, s'.threads = s.threads ++ later ∧
      Goes apply increments ⟨s.counters, []⟩ ⟨s'.counters, later⟩ := by
  refine h.invariant (I := fun s' => ∃ later, s'.threads = s.threads ++ later ∧
    Goes apply increments ⟨s.counters, []⟩ ⟨s'.counters, later⟩) ⟨[], by simp, .refl⟩ ?_
  rintro s₁ e s₂ ⟨later, hthreads, hlater⟩ _ hstep
  cases e with
  | start origin =>
    cases hstep
    exact ⟨later ++ [⟨origin, 0⟩], by simp [hthreads], hlater.tail (e := .start origin) trivial rfl⟩
  | advance k =>
    obtain ⟨thread, i, hk, hi, rfl⟩ := advance_eq_some.mp hstep
    rw [hthreads] at hk ⊢
    by_cases hlt : k < s.threads.length
    · -- a thread that was done has no increment left
      rw [List.getElem?_append_left hlt] at hk
      rw [List.getElem?_eq_none (hq thread (List.mem_of_getElem? hk))] at hi
      cases hi
    · have hge := Nat.le_of_not_lt hlt
      rw [List.getElem?_append_right hge] at hk
      exact ⟨_, List.set_append_right k _ hge,
        hlater.tail trivial (advance_eq_some.mpr ⟨thread, i, hk, hi, rfl⟩)⟩

/-- Where no thread starts, nothing is counted. -/
theorem Goes.eq_of_nil {c c' : C} (h : Goes apply increments ⟨c, []⟩ ⟨c', []⟩) : c' = c := by
  refine h.invariant (I := fun s => s.threads = [] → s.counters = c) (fun _ => rfl) ?_ rfl
  intro s₁ e s₂ _ _ hstep hnil
  cases e with
  | start origin =>
    cases hstep
    simp at hnil
  | advance k =>
    obtain ⟨thread, i, hk, _, rfl⟩ := advance_eq_some.mp hstep
    have hlen := congrArg List.length hnil
    rw [List.length_set, List.length_nil] at hlen
    rw [List.eq_nil_of_length_eq_zero hlen] at hk
    cases hk

/-- With all threads done and none started, nothing happens. -/
theorem Goes.eq_of_quiescent (hq : Quiescent increments s.threads)
    (h : Goes apply increments s s') (hlen : s'.threads.length = s.threads.length) : s' = s := by
  obtain ⟨later, hthreads, hlater⟩ := h.fresh hq
  obtain rfl : later = [] := by
    rw [hthreads, List.length_append] at hlen
    exact List.eq_nil_of_length_eq_zero (by omega)
  obtain ⟨c', threads'⟩ := s'
  rw [List.append_nil] at hthreads
  obtain rfl : threads' = s.threads := hthreads
  obtain rfl : c' = s.counters := hlater.eq_of_nil
  rfl

/-! ### Reading -/

theorem Reads.goes {counts : List (C → Nat)} {values : List Nat}
    (h : Reads apply increments s counts values s') : Goes apply increments s s' := by
  induction h with
  | done h => exact h
  | next h _ ih => exact h.trans ih

theorem Reads.of_goes {counts : List (C → Nat)} {values : List Nat}
    (h : Goes apply increments s s') (h' : Reads apply increments s' counts values s'') :
    Reads apply increments s counts values s'' := by
  cases h' with
  | done h' => exact .done (h.trans h')
  | next h' hrest => exact .next (h.trans h') hrest

theorem Reads.append {counts counts' : List (C → Nat)} {values values' : List Nat}
    (h : Reads apply increments s counts values s')
    (h' : Reads apply increments s' counts' values' s'') :
    Reads apply increments s (counts ++ counts') (values ++ values') s'' := by
  induction h with
  | done h => exact h'.of_goes h
  | next h _ ih => exact .next h (ih h')

theorem Reads.at_once (apply : C → I → C) (increments : A → List I) (s : State C A)
    (counts : List (C → Nat)) :
    Reads apply increments s counts (counts.map fun count => count s.counters) s := by
  induction counts with
  | nil => exact .done .refl
  | cons count counts ih => exact .next .refl ih

/-- **What is read** is what the counter stands at some time between the beginning and the
end. -/
theorem Reads.between {counts : List (C → Nat)} {values : List Nat}
    (hw : ∀ count ∈ counts, ∃ w, Weighs apply count w)
    (h : Reads apply increments s counts values s') (hstart : Goes apply increments s'' s) :
    List.Forall₂ (fun count value => count s''.counters ≤ value ∧ value ≤ count s'.counters)
      counts values := by
  induction h with
  | done h => exact .nil
  | @next s s₁ s₂ count counts values h hrest ih =>
    obtain ⟨w, hcount⟩ := hw count List.mem_cons_self
    exact .cons ⟨(hstart.trans h).count_le hcount, hrest.goes.count_le hcount⟩
      (ih (fun count hmem => hw count (List.mem_cons_of_mem _ hmem)) (hstart.trans h))

/-! ### Clearing -/

section

variable {clears : List (C → C)} {count : C → Nat} {w : I → Nat}

theorem Clears.at_once (s : State C A) (clears : List (C → C)) : Clears apply increments s clears
    ⟨clears.foldl (fun c clear => clear c) s.counters, s.threads⟩ := by
  induction clears generalizing s with
  | nil => exact .done .refl
  | cons clear clears ih => exact .next .refl (ih ⟨clear s.counters, s.threads⟩)

theorem Clears.count_le_of_le (hw : Weighs apply count w)
    (h : Clears apply increments s clears s')
    (hle : ∀ clear ∈ clears, ∀ c, count (clear c) ≤ count c) {n : Nat}
    (hn : count s.counters + n ≤ tally increments w s.threads) :
    count s'.counters + n ≤ tally increments w s'.threads := by
  induction h with
  | done h =>
    have hcount := h.count_add_tally hw
    omega
  | @next s s₁ s₂ clear clears h _ ih =>
    have hcount := h.count_add_tally hw
    have hclear := hle clear List.mem_cons_self s₁.counters
    refine ih (fun clear hmem => hle clear (List.mem_cons_of_mem _ hmem)) ?_
    show count (clear s₁.counters) + n ≤ tally increments w s₁.threads
    omega

/-- **Nothing done before the clearing counts** after it. -/
theorem Clears.count_le (hw : Weighs apply count w) (h : Clears apply increments s clears s')
    (hmem : ∃ clear ∈ clears, ∀ c, count (clear c) = 0)
    (hle : ∀ clear ∈ clears, ∀ c, count (clear c) ≤ count c) :
    count s'.counters + tally increments w s.threads ≤ tally increments w s'.threads := by
  induction h with
  | done h =>
    obtain ⟨_, hmem, _⟩ := hmem
    cases hmem
  | @next s s₁ s₂ clear clears h hrest ih =>
    have htally := h.tally_le hw
    have hle' : ∀ clear ∈ clears, ∀ c, count (clear c) ≤ count c :=
      fun clear hmem => hle clear (List.mem_cons_of_mem _ hmem)
    obtain ⟨zeroing, hmem, hzero⟩ := hmem
    rcases List.mem_cons.mp hmem with rfl | hmem
    · refine hrest.count_le_of_le hw hle' ?_
      show count (zeroing s₁.counters) + _ ≤ tally increments w s₁.threads
      rw [hzero, Nat.zero_add]
      exact htally
    · have hcount := ih ⟨zeroing, hmem, hzero⟩ hle'
      have hcount : count s₂.counters + tally increments w s₁.threads
        ≤ tally increments w s₂.threads := hcount
      omega

theorem Clears.length_le (h : Clears apply increments s clears s') :
    s.threads.length ≤ s'.threads.length := by
  induction h with
  | done h => exact h.length_le
  | next h _ ih => exact Nat.le_trans h.length_le ih

/-- With all threads done and none started, the counters are cleared and nothing else happens. -/
theorem Clears.eq_of_quiescent (hq : Quiescent increments s.threads)
    (h : Clears apply increments s clears s') (hlen : s'.threads.length = s.threads.length) :
    s' = ⟨clears.foldl (fun c clear => clear c) s.counters, s.threads⟩ := by
  induction h with
  | done h => exact h.eq_of_quiescent hq hlen
  | @next s s₁ s₂ clear clears h hrest ih =>
    have hrest_le : s₁.threads.length ≤ s₂.threads.length := hrest.length_le
    obtain rfl := h.eq_of_quiescent hq (Nat.le_antisymm (by omega) h.length_le)
    exact ih hq hlen

end

end Counting
