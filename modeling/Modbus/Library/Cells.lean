import Modbus.Library.Span

/-!
# Arrays that are not filled

An array of which some elements have no value yet, as code gets it that declares one and does not
initialize it.  To index past the end, and to use an element without a value, are faults.

* `copyIn_of_le`: a copy that fits.
* `copyCells_eq`: a copy of the whole array, in which elements without a value stay without one.
* `Filled.read`, `Filled.readAll`: the elements that have been filled in can be used.
* `within`: a computation that uses no array.  What uses an array and never faults is `within`
  what it computes.
-/

namespace Cells

open Span

variable {ε σ α β T : Type}

/-- An error of the code's own, or a fault. -/
inductive Fault (ε : Type)
  | fails (e : ε)
  | outOfBounds (index : Nat)
  | indeterminate (index : Nat)

/-! ### Elements -/

/-- `cells[i]` -/
def read (cells : List (Option T)) (i : Nat) : Except (Fault ε) T :=
  match cells[i]? with
  | some (some value) => .ok value
  | some none => .error (.indeterminate i)
  | none => .error (.outOfBounds i)

/-- `cells[i] = value` -/
def store (cells : List (Option T)) (i : Nat) (value : T) : Except (Fault ε) (List (Option T)) :=
  if i < cells.length then .ok (cells.set i (some value)) else .error (.outOfBounds i)

/-- Values one after another, from index `i` on. -/
def copyIn (cells : List (Option T)) : Nat → List T → Except (Fault ε) (List (Option T))
  | _, [] => .ok cells
  | i, value :: values => do
    let cells ← store cells i value
    copyIn cells (i + 1) values

def readAll (cells : List (Option T)) : Nat → Except (Fault ε) (List T)
  | 0 => .ok []
  | n + 1 => do
    let values ← readAll cells n
    let value ← read cells n
    return values ++ [value]

theorem ok_bind (a : α) (f : α → Except ε β) : (.ok a >>= f : Except ε β) = f a := rfl

theorem store_of_lt {cells : List (Option T)} {i : Nat} (h : i < cells.length) (value : T) :
    (store cells i value : Except (Fault ε) _) = .ok (cells.set i (some value)) := if_pos h

/-- **A copy that fits** replaces as many elements as there are values. -/
theorem copyIn_of_le (ε : Type) (cells : List (Option T)) (values : List T) (i : Nat)
    (h : i + values.length ≤ cells.length) : (copyIn cells i values : Except (Fault ε) _)
      = .ok (cells.take i ++ (values.map some ++ cells.drop (i + values.length))) := by
  induction values generalizing cells i with
  | nil => simp [copyIn]
  | cons value values ih =>
    rw [List.length_cons] at h
    have hset : cells.set i (some value) = cells.take i ++ some value :: cells.drop (i + 1) :=
      List.set_eq_take_append_cons_drop.trans (if_pos (by omega))
    rw [copyIn, store_of_lt (by omega)]
    show copyIn (cells.set i (some value)) (i + 1) values = _
    have hlen : (cells.take i).length = i := List.length_take_of_le (by omega)
    have hfront : (cells.set i (some value)).take (i + 1) = cells.take i ++ [some value] := by
      rw [hset, ← List.singleton_append, ← List.append_assoc]
      exact List.take_left' (by rw [List.length_append, hlen]; rfl)
    have hback : (cells.set i (some value)).drop (i + 1 + values.length)
        = cells.drop (i + (values.length + 1)) := by
      rw [List.drop_set_of_lt (by omega), Nat.add_right_comm, Nat.add_assoc]
    rw [ih _ _ (by rw [List.length_set]; omega), hfront, hback, List.append_assoc]
    rfl

theorem copyIn_append (cells : List (Option T)) (i : Nat) (values values' : List T) :
    (copyIn cells i (values ++ values') : Except (Fault ε) _)
      = copyIn cells i values >>= fun cells => copyIn cells (i + values.length) values' := by
  induction values generalizing cells i with
  | nil => rfl
  | cons value values ih =>
    rw [List.cons_append, copyIn, copyIn, List.length_cons]
    cases (store cells i value : Except (Fault ε) _) with
    | error e => rfl
    | ok cells => rw [← Nat.add_assoc, Nat.add_right_comm]; exact ih cells (i + 1)

/-- The last two values may be stored one by one. -/
theorem copyIn_append_pair (cells : List (Option T)) (i : Nat) (values : List T) (x y : T) :
    (copyIn cells i (values ++ [x, y]) : Except (Fault ε) _)
      = copyIn cells i values >>= fun cells => store cells (i + values.length) x >>= fun cells =>
          store cells (i + values.length + 1) y := by
  rw [copyIn_append]
  refine congrArg (copyIn cells i values >>= ·) (funext fun cells => ?_)
  refine congrArg (store cells (i + values.length) x >>= ·) (funext fun cells => ?_)
  exact bind_pure (store cells (i + values.length + 1) y)

/-! ### Copies of an array -/

/-- `copied[i] = cells[i]`, where an element without a value is copied as it is. -/
def copyCell (cells copied : List (Option T)) (i : Nat) : Except (Fault ε) (List (Option T)) :=
  match cells[i]? with
  | some cell => if i < copied.length then .ok (copied.set i cell) else .error (.outOfBounds i)
  | none => .error (.outOfBounds i)

/-- The implicit copy, or move, of an array: all of its elements, one after another. -/
def copyCells (cells : List (Option T)) : Except (Fault ε) (List (Option T)) :=
  (List.range cells.length).foldlM (copyCell cells) (List.replicate cells.length none)

theorem copyCell_of_lt {cells copied : List (Option T)} {i : Nat} (h : i < cells.length)
    (hcopied : i < copied.length) :
    (copyCell cells copied i : Except (Fault ε) _) = .ok (copied.set i cells[i]) := by
  rw [copyCell, List.getElem?_eq_getElem h]
  exact if_pos hcopied

theorem foldlM_copyCell (cells : List (Option T)) {n : Nat} (hn : n ≤ cells.length) :
    ((List.range n).foldlM (copyCell cells) (List.replicate cells.length none) :
        Except (Fault ε) _)
      = .ok (cells.take n ++ List.replicate (cells.length - n) none) := by
  induction n with
  | zero => rfl
  | succ n ih =>
    have hlen : (cells.take n).length = n := List.length_take_of_le (by omega)
    have hrest : List.replicate (cells.length - n) (none : Option T)
        = none :: List.replicate (cells.length - (n + 1)) none := by
      rw [← List.replicate_succ]
      congr 1
      omega
    rw [List.range_succ, List.foldlM_append, ih (by omega), ok_bind, List.foldlM_cons,
      copyCell_of_lt (by omega) (by simp; omega), ok_bind, List.foldlM_nil, hrest,
      List.set_append_right _ _ (Nat.le_of_eq hlen), hlen, Nat.sub_self, List.set_cons_zero,
      List.take_add_one, List.getElem?_eq_getElem (by omega), List.append_assoc]
    rfl

/-- **A copy of an array is the array**, elements without a value included. -/
theorem copyCells_eq (cells : List (Option T)) :
    (copyCells cells : Except (Fault ε) _) = .ok cells := by
  rw [copyCells, foldlM_copyCell cells (Nat.le_refl _), List.take_length, Nat.sub_self,
    List.replicate_zero, List.append_nil]

/-! ### Arrays that start with values -/

/-- The array starts with these values. -/
def Filled (cells : List (Option T)) (values : List T) : Prop := values.map some <+: cells

theorem Filled.read {cells : List (Option T)} {values : List T} (h : Filled cells values) {i : Nat}
    (hi : i < values.length) : (Cells.read cells i : Except (Fault ε) T) = .ok values[i] := by
  obtain ⟨rest, rfl⟩ := h
  rw [Cells.read, List.getElem?_append_left (by simpa using hi), List.getElem?_map,
    List.getElem?_eq_getElem hi]
  rfl

theorem Filled.readAll {cells : List (Option T)} {values : List T} (h : Filled cells values)
    {n : Nat} (hn : n ≤ values.length) :
    (Cells.readAll cells n : Except (Fault ε) _) = .ok (values.take n) := by
  induction n with
  | zero => rfl
  | succ n ih =>
    rw [Cells.readAll, ih (by omega)]
    show (Cells.read cells n >>= fun value => pure (values.take n ++ [value]) :
      Except (Fault ε) _) = _
    rw [h.read (by omega), List.take_add_one, List.getElem?_eq_getElem (by omega)]
    rfl

/-- Behind its values such an array may have elements without one. -/
theorem getElem?_filled_eq_none {values : List T} {n i : Nat} :
    (values.map some ++ List.replicate n none)[i]? = some none ↔
      values.length ≤ i ∧ i < values.length + n := by
  rcases Nat.lt_or_ge i values.length with hi | hi
  · rw [List.getElem?_append_left (by simpa using hi), List.getElem?_map,
      List.getElem?_eq_getElem hi]
    simp [Nat.not_le.mpr hi]
  · rw [List.getElem?_append_right (by simpa using hi), List.length_map, List.getElem?_replicate]
    simp only [ite_eq_left_iff, reduceCtorEq, imp_false, not_not, hi, true_and]
    omega

/-! ### Computations without an array -/

/-- A computation that uses no array. -/
def within (x : EStateM ε σ α) : EStateM (Fault ε) σ α := fun s =>
  match x.run s with
  | .ok a s' => .ok a s'
  | .error e s' => .error (.fails e) s'

theorem run_within (x : EStateM ε σ α) (s : σ) : (within x).run s
    = match x.run s with
      | .ok a s' => .ok a s'
      | .error e s' => .error (.fails e) s' := rfl

theorem within_bind (x : EStateM ε σ α) (f : α → EStateM ε σ β) :
    within (x >>= f) = within x >>= fun a => within (f a) := by
  funext s
  show (within (x >>= f)).run s = (within x >>= fun a => within (f a)).run s
  rw [run_within, EStateM.run_bind, EStateM.run_bind, run_within]
  cases x.run s <;> rfl

theorem within_forM (l : List α) (f : α → EStateM ε σ Unit) :
    within (l.forM f) = l.forM fun a => within (f a) := by
  induction l with
  | nil => rfl
  | cons a l ih =>
    show within (f a >>= fun _ => l.forM f) = within (f a) >>= fun _ => l.forM fun a => within (f a)
    rw [within_bind, ih]

theorem lift_ok_bind (a : α) (f : α → EStateM ε σ β) :
    (lift (.ok a) >>= f : EStateM ε σ β) = f a := rfl

end Cells
