import Mathlib.Algebra.Order.BigOperators.Group.List
import Mathlib.Algebra.Order.Ring.Nat
import Modbus.Library.Machine

/-!
# Counters that threads increment together

Each thread makes its increments in order, and those of different threads mix in any way.
What a counter stands at is then the sum of what the threads have added to it so far.

* `tally_of_run`: this sum, in every state of a run.
* `Covers`, `tally_le`: one counter never gets ahead of another when no prefix of a thread's
  increments takes it there.
* `tally_of_quiescent`: the sum when every thread has made all of its increments.
-/

namespace Counting

/-- Which thread it is, and how many increments it has made. -/
structure Thread (A : Type) where
  origin : A
  made : Nat

structure State (C A : Type) where
  counters : C
  threads : List (Thread A)

inductive Event (A : Type)
  | start (origin : A)
  /-- Thread `k` makes its next increment. -/
  | advance (k : Nat)

variable {C I A : Type}

def step (apply : C → I → C) (increments : A → List I) (s : State C A) :
    Event A → Option (State C A)
  | .start origin => some { s with threads := s.threads ++ [⟨origin, 0⟩] }
  | .advance k =>
    match s.threads[k]? with
    | some ⟨origin, made⟩ =>
      (increments origin)[made]?.map fun i =>
        ⟨apply s.counters i, s.threads.set k ⟨origin, made + 1⟩⟩
    | none => none

variable {apply : C → I → C} {increments : A → List I}

/-! ### Weights -/

/-- Each increment adds its weight to what `count` reads. -/
def Weighs (apply : C → I → C) (count : C → Nat) (w : I → Nat) : Prop :=
  ∀ c i, count (apply c i) = count c + w i

theorem Weighs.add {count count' : C → Nat} {w w' : I → Nat} (h : Weighs apply count w)
    (h' : Weighs apply count' w') :
    Weighs apply (fun c => count c + count' c) (fun i => w i + w' i) := by
  intro c i
  have hc := h c i
  have hc' := h' c i
  dsimp only
  omega

theorem Weighs.sum {B : Type} {count : B → C → Nat} {w : B → I → Nat}
    (h : ∀ b, Weighs apply (count b) (w b)) (bs : List B) :
    Weighs apply (fun c => (bs.map (count · c)).sum) (fun i => (bs.map (w · i)).sum) := by
  intro c i
  induction bs with
  | nil => rfl
  | cons b bs ih =>
    have := h b c i
    simp only [List.map_cons, List.sum_cons] at ih ⊢
    omega

/-- The weight of a list of increments. -/
def weight (w : I → Nat) (l : List I) : Nat := (l.map w).sum

@[simp] theorem weight_nil (w : I → Nat) : weight w [] = 0 := rfl

@[simp] theorem weight_cons (w : I → Nat) (i : I) (l : List I) :
    weight w (i :: l) = w i + weight w l := rfl

theorem weight_append (w : I → Nat) (a b : List I) :
    weight w (a ++ b) = weight w a + weight w b := by
  rw [weight, List.map_append, List.sum_append]
  rfl

theorem weight_flatMap {B : Type} (w : I → Nat) (f : B → List I) (bs : List B) :
    weight w (bs.flatMap f) = (bs.map fun b => weight w (f b)).sum := by
  induction bs with
  | nil => rfl
  | cons b bs ih => rw [List.flatMap_cons, weight_append, ih, List.map_cons, List.sum_cons]

theorem weight_eq_zero {w : I → Nat} {l : List I} (h : ∀ i ∈ l, w i = 0) : weight w l = 0 := by
  induction l with
  | nil => rfl
  | cons i l ih =>
    rw [weight_cons, h i List.mem_cons_self, ih (fun j hj => h j (List.mem_cons_of_mem i hj))]

/-- The weight of all increments made so far. -/
def tally (increments : A → List I) (w : I → Nat) (threads : List (Thread A)) : Nat :=
  (threads.map fun thread => weight w ((increments thread.origin).take thread.made)).sum

theorem sum_map_set (f : A → Nat) {l : List A} {k : Nat} {a : A} (b : A) (h : l[k]? = some a) :
    ((l.set k b).map f).sum + f a = (l.map f).sum + f b := by
  induction l generalizing k with
  | nil => cases h
  | cons x l ih =>
    cases k with
    | zero =>
      cases h
      simp only [List.set_cons_zero, List.map_cons, List.sum_cons]
      omega
    | succ k =>
      have := ih h
      simp only [List.set_cons_succ, List.map_cons, List.sum_cons]
      omega

/-- An increment adds to its counter what it adds to the tally. -/
theorem tally_step {count : C → Nat} {w : I → Nat} (h : Weighs apply count w) {s s' : State C A}
    {e : Event A} (hstep : step apply increments s e = some s') :
    count s'.counters + tally increments w s.threads
      = count s.counters + tally increments w s'.threads := by
  cases e with
  | start origin =>
    cases hstep
    simp [tally]
  | advance k =>
    rw [step] at hstep
    split at hstep
    · rename_i origin made hk
      obtain ⟨i, hi, rfl⟩ := Option.map_eq_some_iff.mp hstep
      obtain ⟨hlt, rfl⟩ := List.getElem?_eq_some_iff.mp hi
      have hset := sum_map_set
        (fun thread => weight w ((increments thread.origin).take thread.made)) ⟨origin, made + 1⟩ hk
      have hmade : weight w ((increments origin).take (made + 1))
          = weight w ((increments origin).take made) + w (increments origin)[made] := by
        rw [← List.take_append_getElem hlt, weight_append, weight_cons, weight_nil, Nat.add_zero]
      have := h s.counters (increments origin)[made]
      simp only [tally] at hset ⊢
      omega
    · cases hstep

/-- **What a counter stands at is what the threads have added to it.** -/
theorem tally_of_run {count : C → Nat} {w : I → Nat} (h : Weighs apply count w)
    {guard : State C A → Event A → Prop} {c : C} {s : State C A}
    (hrun : Machine.Run (step apply increments) guard ⟨c, []⟩ s) :
    count s.counters = count c + tally increments w s.threads := by
  refine hrun.invariant (I := fun s => count s.counters = count c + tally increments w s.threads)
    rfl (fun s e s' hs _ hstep => ?_)
  have := tally_step h hstep
  have hs' : count s.counters = count c + tally increments w s.threads := hs
  show count s'.counters = count c + tally increments w s'.threads
  omega

/-! ### One counter and another -/

/-- Read in order, `w` never asks for more than `w'` and `credit` have brought. -/
def Covers (w w' : I → Nat) : Nat → List I → Prop
  | _, [] => True
  | credit, i :: l => w i ≤ credit + w' i ∧ Covers w w' (credit + w' i - w i) l

variable {w w' : I → Nat}

theorem Covers.mono {l : List I} {credit credit' : Nat} (h : Covers w w' credit l)
    (hle : credit ≤ credit') : Covers w w' credit' l := by
  induction l generalizing credit credit' with
  | nil => trivial
  | cons i l ih =>
    obtain ⟨hi, hl⟩ := h
    exact ⟨by omega, ih hl (by omega)⟩

/-- Increments that `w` does not count can be put in anywhere. -/
theorem Covers.insert {a mid b : List I} {credit : Nat} (h : Covers w w' credit (a ++ b))
    (hmid : ∀ i ∈ mid, w i = 0) : Covers w w' credit (a ++ mid ++ b) := by
  induction a generalizing credit with
  | nil =>
    rw [List.nil_append] at h ⊢
    induction mid generalizing credit with
    | nil => exact h
    | cons i mid ih =>
      have hi : w i = 0 := hmid i List.mem_cons_self
      refine ⟨by omega, ih (fun j hj => hmid j (List.mem_cons_of_mem i hj)) (h.mono (by omega))⟩
  | cons i a ih =>
    obtain ⟨hi, ha⟩ := h
    exact ⟨hi, ih ha⟩

theorem Covers.weight_take_le {l : List I} {credit : Nat} (h : Covers w w' credit l) (n : Nat) :
    weight w (l.take n) ≤ credit + weight w' (l.take n) := by
  induction l generalizing credit n with
  | nil => simp
  | cons i l ih =>
    cases n with
    | zero => simp
    | succ n =>
      obtain ⟨hi, hl⟩ := h
      have := ih hl n
      simp only [List.take_succ_cons, weight_cons]
      omega

/-- **A counter stays behind another one** when it does so along every thread. -/
theorem tally_le (h : ∀ a, Covers w w' 0 (increments a)) (threads : List (Thread A)) :
    tally increments w threads ≤ tally increments w' threads := by
  rw [tally, tally]
  refine List.sum_le_sum (fun thread _ => ?_)
  have := (h thread.origin).weight_take_le thread.made
  omega

/-! ### When all is done -/

/-- No thread has an increment left to make. -/
def Quiescent (increments : A → List I) (threads : List (Thread A)) : Prop :=
  ∀ thread ∈ threads, (increments thread.origin).length ≤ thread.made

theorem tally_of_quiescent {threads : List (Thread A)} (h : Quiescent increments threads) :
    tally increments w threads
      = (threads.map fun thread => weight w (increments thread.origin)).sum := by
  rw [tally, List.map_congr_left (fun thread hthread => ?_)]
  rw [List.take_of_length_le (h thread hthread)]

/-- Counters that every thread adds the same to agree in the end. -/
theorem tally_eq_of_quiescent {threads : List (Thread A)} (h : Quiescent increments threads)
    (hw : ∀ a, weight w (increments a) = weight w' (increments a)) :
    tally increments w threads = tally increments w' threads := by
  rw [tally_of_quiescent h, tally_of_quiescent h]
  simp only [hw]

/-- A counter that a thread adds `1` to or nothing counts threads. -/
theorem tally_eq_countP {threads : List (Thread A)} (h : Quiescent increments threads)
    {p : Thread A → Bool} (hw : ∀ thread : Thread A,
      weight w (increments thread.origin) = if p thread then 1 else 0) :
    tally increments w threads = threads.countP p := by
  rw [tally_of_quiescent h]
  clear h
  induction threads with
  | nil => rfl
  | cons thread threads ih =>
    rw [List.map_cons, List.sum_cons, List.countP_cons, hw, ih]
    omega

end Counting
