import Modbus.Library.Linearization
import Mathlib.Data.List.Perm.Basic

/-!
# Independent operations

Two operations on an object are independent when neither of them makes a difference to the other:
in either order they lead to the same state, and each is told the same.  Then a list of operations
may be put into another order, as long as no two change places that are not independent.

* `Reorders`: such another order.
* `Reorders.runAll`: it leads to the same state, and the same is told.
* `Reorders.told`: an operation that occurs once is told the same in both orders.
-/

namespace Linearization

variable {S Op R : Type}

/-- What operations are told, one after another, and where they lead. -/
def Object.runAll (object : Object S Op R) : List Op → S → List R × S
  | [], s => ([], s)
  | op :: ops, s =>
    ((object s op).2 :: (runAll object ops (object s op).1).1,
      (runAll object ops (object s op).1).2)

/-- Independent operations make no difference to each other. -/
structure Object.Respects (object : Object S Op R) (independent : Op → Op → Prop) : Prop where
  state : ∀ {op op' : Op} (s : S), independent op op' →
    (object (object s op).1 op').1 = (object (object s op').1 op).1
  first : ∀ {op op' : Op} (s : S), independent op op' →
    (object (object s op').1 op).2 = (object s op).2
  second : ∀ {op op' : Op} (s : S), independent op op' →
    (object (object s op).1 op').2 = (object s op').2

/-- Independent operations that stand side by side change places, any number of times. -/
inductive Reorders (independent : Op → Op → Prop) : List Op → List Op → Prop
  | nil : Reorders independent [] []
  | cons (op : Op) {ops ops' : List Op} (h : Reorders independent ops ops') :
      Reorders independent (op :: ops) (op :: ops')
  | swap {op op' : Op} (h : independent op op') (ops : List Op) :
      Reorders independent (op :: op' :: ops) (op' :: op :: ops)
  | trans {ops ops' ops'' : List Op} (h : Reorders independent ops ops')
      (h' : Reorders independent ops' ops'') : Reorders independent ops ops''

variable {object : Object S Op R} {independent : Op → Op → Prop} {ops ops' : List Op}

theorem Reorders.perm (h : Reorders independent ops ops') : ops.Perm ops' := by
  induction h with
  | nil => exact .nil
  | cons op _ ih => exact ih.cons op
  | swap _ ops => exact .swap _ _ ops
  | trans _ _ ih ih' => exact ih.trans ih'

theorem Object.length_runAll (object : Object S Op R) (ops : List Op) (s : S) :
    (object.runAll ops s).1.length = ops.length := by
  induction ops generalizing s with
  | nil => rfl
  | cons op ops ih => rw [runAll, List.length_cons, List.length_cons, ih]

/-- **The order of independent operations makes no difference**: they lead to the same state, and
what equal operations are told in one order, equal operations are told in the other. -/
theorem Reorders.runAll (h : Reorders independent ops ops')
    (hrespects : object.Respects independent) (s : S) : (ops.zip (object.runAll ops s).1).Perm
        (ops'.zip (object.runAll ops' s).1) ∧
      (object.runAll ops s).2 = (object.runAll ops' s).2 := by
  induction h generalizing s with
  | nil => exact ⟨.nil, rfl⟩
  | cons op _ ih =>
    obtain ⟨htold, hstate⟩ := ih (object s op).1
    exact ⟨htold.cons _, hstate⟩
  | swap hindependent ops =>
    simp only [Object.runAll, List.zip_cons_cons, hrespects.state s hindependent,
      hrespects.first s hindependent, hrespects.second s hindependent, and_true]
    exact .swap _ _ _
  | trans _ _ ih ih' =>
    obtain ⟨htold, hstate⟩ := ih s
    obtain ⟨htold', hstate'⟩ := ih' s
    exact ⟨htold.trans htold', hstate.trans hstate'⟩

/-- An operation that occurs once is told what it was told in the other order. -/
theorem Reorders.told (h : Reorders independent ops ops') (hrespects : object.Respects independent)
    (hnodup : ops.Nodup) (s : S) {i j : Nat} {op : Op} (hi : ops[i]? = some op)
    (hj : ops'[j]? = some op) : ∃ told,
      (object.runAll ops s).1[i]? = some told ∧ (object.runAll ops' s).1[j]? = some told := by
  have hlt : i < (object.runAll ops s).1.length := by
    rw [object.length_runAll]
    exact (List.getElem?_eq_some_iff.mp hi).1
  have hmem : (op, (object.runAll ops s).1[i]) ∈ ops.zip (object.runAll ops s).1 :=
    List.mem_of_getElem? (List.getElem?_zip_eq_some.mpr ⟨hi, List.getElem?_eq_getElem hlt⟩)
  have hmem' := (h.runAll hrespects s).1.mem_iff.mp hmem
  obtain ⟨k, hk⟩ := List.getElem?_of_mem hmem'
  obtain ⟨hop, htold⟩ := List.getElem?_zip_eq_some.mp hk
  -- the operation is in one place only
  have hkj : k = j := by
    obtain ⟨hlt', _⟩ := List.getElem?_eq_some_iff.mp hop
    exact (List.getElem?_inj hlt' (h.perm.nodup_iff.mp hnodup)).mp (hop.trans hj.symm)
  subst hkj
  exact ⟨_, List.getElem?_eq_getElem hlt, htold⟩

end Linearization
