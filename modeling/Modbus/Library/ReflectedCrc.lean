import Mathlib.Logic.Function.Iterate
import Mathlib.Data.List.GetD
import Mathlib.Data.Nat.Count
import Mathlib.Algebra.Group.Nat.Even
import Mathlib.Algebra.Ring.Parity
import Mathlib.Tactic.Tauto

/-!
# Bit-reflected CRC registers

A register of `w` bits that takes its input least significant bit first: `step`
shifts it right by one and adds the polynomial `p` when the bit that falls out
differs from the bit that comes in.  `p` is written reflected, so its top bit
`p.msb` is the constant term of the polynomial.

* `run_xor`: the register is linear, so what two inputs of one length leave
  behind differs by what their difference leaves in a register that starts at
  `0`.  An error pattern goes unnoticed exactly when it leaves `0` there.
* `run_eq_zero_iff`: an input of at most `w` bits brings the register to `0`
  exactly when it spells the register out.  Both the check value itself and
  short bursts come from this one statement.
* `run_burst_ne_zero`, `run_odd_ne_zero`, `run_two_ne_zero`: the three kinds of
  error patterns that never leave `0`.
-/

namespace ReflectedCrc

variable {w : Nat}

def step (p r : BitVec w) (b : Bool) : BitVec w :=
  if r.getLsbD 0 ^^ b then (r >>> 1) ^^^ p else r >>> 1

/-- A whole input, first bit first. -/
def run (p r : BitVec w) (bits : List Bool) : BitVec w := bits.foldl (step p) r

@[simp] theorem run_nil (p r : BitVec w) : run p r [] = r := rfl

@[simp] theorem run_cons (p r : BitVec w) (b : Bool) (bits : List Bool) :
    run p r (b :: bits) = run p (step p r b) bits := rfl

theorem run_append (p r : BitVec w) (a b : List Bool) :
    run p r (a ++ b) = run p (run p r a) b := List.foldl_append

theorem getLsbD_step (p r : BitVec w) (b : Bool) (i : Nat) :
    (step p r b).getLsbD i = (r.getLsbD (i + 1) ^^ (p.getLsbD i && (r.getLsbD 0 ^^ b))) := by
  unfold step
  cases hb : r.getLsbD 0 ^^ b <;> simp [Nat.add_comm]

/-! ### Linearity -/

theorem step_xor (p r s : BitVec w) (a b : Bool) :
    step p (r ^^^ s) (a ^^ b) = step p r a ^^^ step p s b := by
  apply BitVec.eq_of_getLsbD_eq
  intro i _
  simp only [getLsbD_step, BitVec.getLsbD_xor]
  cases p.getLsbD i <;> cases r.getLsbD (i + 1) <;> cases s.getLsbD (i + 1) <;>
    cases r.getLsbD 0 <;> cases s.getLsbD 0 <;> cases a <;> cases b <;> rfl

/-- **The register is linear** in its start and its input together. -/
theorem run_xor (p : BitVec w) : ∀ (a b : List Bool), a.length = b.length → ∀ r s : BitVec w,
    run p (r ^^^ s) (List.zipWith xor a b) = run p r a ^^^ run p s b := by
  intro a
  induction a with
  | nil =>
    intro b hb r s
    obtain rfl : b = [] := List.eq_nil_of_length_eq_zero hb.symm
    rfl
  | cons x a ih =>
    intro b hb r s
    cases b with
    | nil => simp at hb
    | cons y b =>
      rw [List.zipWith_cons_cons, run_cons, step_xor, ih b (by simpa using hb)]
      rfl

/-- Two inputs that leave the same register differ by a pattern that leaves `0`. -/
theorem run_zipWith_eq_zero {p r : BitVec w} {a b : List Bool} (hlen : a.length = b.length)
    (h : run p r a = run p r b) : run p 0#w (List.zipWith xor a b) = 0#w := by
  have := run_xor p a b hlen r r
  rwa [BitVec.xor_self, h, BitVec.xor_self] at this

/-! ### Inputs no longer than the register -/

/-- **An input of at most `w` bits brings the register to `0` exactly when it
spells the register out**, least significant bit first. -/
theorem run_eq_zero_iff {p : BitVec w} (hp : p.msb = true) : ∀ bits : List Bool,
    bits.length ≤ w → ∀ r : BitVec w,
      run p r bits = 0#w ↔ ∀ i, r.getLsbD i = bits.getD i false := by
  intro bits
  induction bits with
  | nil =>
    intro _ r
    constructor
    · rintro rfl i
      simp
    · intro h
      exact BitVec.eq_of_getLsbD_eq (fun i _ => by simpa using h i)
  | cons b bits ih =>
    intro hlen r
    rw [List.length_cons] at hlen
    rw [run_cons, ih (by omega)]
    constructor
    · intro h
      -- the top bit of the register after this step is free of `r >>> 1`, so it
      -- says whether the polynomial was added
      have htop := h (w - 1)
      rw [getLsbD_step, ← BitVec.msb_eq_getLsbD_last, hp, BitVec.getLsbD_of_ge _ _ (by omega),
        List.getD_eq_default _ _ (by omega)] at htop
      have hb : r.getLsbD 0 = b := by simpa using htop
      intro i
      cases i with
      | zero => exact hb
      | succ i =>
        have hi := h i
        rw [getLsbD_step, hb] at hi
        simpa using hi
    · intro h i
      have hb : r.getLsbD 0 = b := h 0
      have hi : r.getLsbD (i + 1) = bits.getD i false := h (i + 1)
      rw [getLsbD_step, hb, hi]
      simp

theorem run_short_ne_zero {p : BitVec w} (hp : p.msb = true) {bits : List Bool}
    (hlen : bits.length ≤ w) (h : true ∈ bits) : run p 0#w bits ≠ 0#w := by
  rw [Ne, run_eq_zero_iff hp bits hlen]
  intro hall
  obtain ⟨i, hi, he⟩ := List.mem_iff_getElem.mp h
  have := hall i
  rw [List.getD_eq_getElem _ _ hi, he] at this
  simp at this

/-! ### Zero inputs -/

@[simp] theorem step_zero_false (p : BitVec w) : step p 0#w false = 0#w := by simp [step]

theorem step_eq_zero_iff {p : BitVec w} (hp : p.msb = true) (r : BitVec w) (b : Bool) :
    step p r b = 0#w ↔ ∀ i, r.getLsbD i = [b].getD i false := by
  have hw : 1 ≤ w := by
    cases w with
    | zero => simp [BitVec.msb, BitVec.getMsbD] at hp
    | succ w => omega
  exact run_eq_zero_iff hp [b] (by simpa using hw) r

theorem step_false_eq_zero {p r : BitVec w} (hp : p.msb = true) (h : step p r false = 0#w) :
    r = 0#w := by
  refine BitVec.eq_of_getLsbD_eq (fun i _ => ?_)
  rw [(step_eq_zero_iff hp r false).mp h i]
  cases i <;> simp

theorem step_zero_true (p : BitVec w) : step p 0#w true = p := by simp [step]

theorem step_true (p r : BitVec w) : step p r true = step p r false ^^^ p := by
  have := step_xor p r 0#w false true
  rwa [BitVec.xor_zero, Bool.false_xor, step_zero_true] at this

theorem run_of_not_mem {p : BitVec w} : ∀ {l : List Bool}, true ∉ l → ∀ r : BitVec w,
    run p r l = (fun r => step p r false)^[l.length] r := by
  intro l
  induction l with
  | nil => intro _ r; rfl
  | cons b l ih =>
    intro h r
    obtain ⟨hb, hl⟩ : ¬ true = b ∧ true ∉ l := by simpa using h
    obtain rfl : b = false := by simpa using hb
    rw [run_cons, ih hl]
    rfl

theorem run_eq_zero_of_not_mem {p : BitVec w} (hp : p.msb = true) : ∀ {l : List Bool},
    true ∉ l → ∀ r : BitVec w, run p r l = 0#w ↔ r = 0#w := by
  intro l
  induction l with
  | nil => intro _ r; rfl
  | cons b l ih =>
    intro h r
    obtain ⟨hb, hl⟩ : ¬ true = b ∧ true ∉ l := by simpa using h
    obtain rfl : b = false := by simpa using hb
    rw [run_cons, ih hl]
    constructor
    · exact step_false_eq_zero hp
    · rintro rfl
      exact step_zero_false p

/-! ### Bursts -/

theorem not_mem_take {e : List Bool} {n : Nat} (h : ∀ k, e.getD k false = true → n ≤ k) :
    true ∉ e.take n := by
  intro hm
  obtain ⟨k, hk, he⟩ := List.mem_iff_getElem.mp hm
  rw [List.length_take] at hk
  have := h k (by rw [List.getD_eq_getElem _ _ (by omega), ← he, List.getElem_take])
  omega

theorem not_mem_drop {e : List Bool} {n : Nat} (h : ∀ k, e.getD k false = true → k < n) :
    true ∉ e.drop n := by
  intro hm
  obtain ⟨k, hk, he⟩ := List.mem_iff_getElem.mp hm
  rw [List.length_drop] at hk
  have := h (n + k) (by rw [List.getD_eq_getElem _ _ (by omega), ← he, List.getElem_drop])
  omega

/-- **Bursts.**  A pattern that is not all zeros, and whose set bits lie within
`w` consecutive bits, leaves something in an empty register. -/
theorem run_burst_ne_zero {p : BitVec w} (hp : p.msb = true) {e : List Bool} {s : Nat}
    (he : ∀ k, e.getD k false = true → s ≤ k ∧ k < s + w) (hset : true ∈ e) :
    run p 0#w e ≠ 0#w := by
  have hpre : true ∉ e.take s := not_mem_take (fun k hk => (he k hk).1)
  have hpost : true ∉ (e.drop s).drop w := by
    rw [List.drop_drop]
    exact not_mem_drop (fun k hk => (he k hk).2)
  have hmid : true ∈ (e.drop s).take w := by
    rw [← List.take_append_drop s e, List.mem_append, ← List.take_append_drop w (e.drop s),
      List.mem_append] at hset
    tauto
  rw [← List.take_append_drop s e, ← List.take_append_drop w (e.drop s), run_append, run_append,
    Ne, run_eq_zero_of_not_mem hp hpost, (run_eq_zero_of_not_mem hp hpre 0#w).mpr rfl]
  exact run_short_ne_zero hp (List.length_take_le w _) hmid

/-! ### Odd patterns -/

/-- The sum modulo `2` of `f 0, …, f (n - 1)`. -/
def parity (f : Nat → Bool) : Nat → Bool
  | 0 => false
  | n + 1 => parity f n ^^ f n

theorem parity_xor (f g : Nat → Bool) (n : Nat) :
    parity (fun i => f i ^^ g i) n = (parity f n ^^ parity g n) := by
  induction n with
  | zero => rfl
  | succ n ih =>
    rw [parity, parity, parity, ih]
    cases parity f n <;> cases parity g n <;> cases f n <;> cases g n <;> rfl

theorem parity_shift (f : Nat → Bool) (n : Nat) :
    parity (fun i => f (i + 1)) n = (parity f (n + 1) ^^ f 0) := by
  induction n with
  | zero => simp [parity]
  | succ n ih =>
    rw [show parity f (n + 1 + 1) = (parity f (n + 1) ^^ f (n + 1)) from rfl, parity, ih]
    cases parity f (n + 1) <;> cases f 0 <;> cases f (n + 1) <;> rfl

theorem parity_and_const (f : Nat → Bool) (b : Bool) (n : Nat) :
    parity (fun i => f i && b) n = (parity f n && b) := by
  induction n with
  | zero => rfl
  | succ n ih =>
    rw [parity, parity, ih]
    cases parity f n <;> cases f n <;> cases b <;> rfl

theorem parity_eq_decide_odd (f : Nat → Bool) (n : Nat) :
    parity f n = decide (Odd (Nat.count (fun i => f i = true) n)) := by
  induction n with
  | zero => rfl
  | succ n ih =>
    rw [parity, ih, Nat.count_succ]
    cases f n <;> simp [Nat.odd_add_one, -Nat.not_odd_iff_even]

/-- A step with an odd polynomial adds its input bit to the parity of the register. -/
theorem parity_step {p : BitVec w} (hp : parity p.getLsbD w = true) (r : BitVec w) (b : Bool) :
    parity (step p r b).getLsbD w = (parity r.getLsbD w ^^ b) := by
  have htop : r.getLsbD w = false := BitVec.getLsbD_of_ge _ _ (Nat.le_refl w)
  rw [show (step p r b).getLsbD
      = fun i => r.getLsbD (i + 1) ^^ (p.getLsbD i && (r.getLsbD 0 ^^ b)) from
    funext (getLsbD_step p r b), parity_xor, parity_shift, parity_and_const, hp, parity, htop]
  cases parity r.getLsbD w <;> cases r.getLsbD 0 <;> cases b <;> rfl

theorem parity_run {p : BitVec w} (hp : parity p.getLsbD w = true) : ∀ (e : List Bool)
    (r : BitVec w), parity (run p r e).getLsbD w
      = (parity r.getLsbD w ^^ parity (fun i => e.getD i false) e.length) := by
  intro e
  induction e with
  | nil => intro r; simp [parity]
  | cons b e ih =>
    intro r
    have hs := parity_shift (fun i => (b :: e).getD i false) e.length
    simp only [List.getD_cons_succ, List.getD_cons_zero] at hs
    rw [run_cons, ih, parity_step hp, hs, List.length_cons]
    cases parity (fun i => (b :: e).getD i false) (e.length + 1) <;>
      cases parity r.getLsbD w <;> cases b <;> rfl

/-- **Odd patterns.**  When the polynomial has an odd number of set bits, a pattern
with an odd number of set bits leaves something in an empty register. -/
theorem run_odd_ne_zero {p : BitVec w} (hp : parity p.getLsbD w = true) {e : List Bool}
    (he : Odd (Nat.count (fun i => e.getD i false = true) e.length)) : run p 0#w e ≠ 0#w := by
  intro h0
  have h := parity_run hp e 0#w
  have hz : parity (0#w).getLsbD w = false := by
    have := parity_xor (0#w).getLsbD (0#w).getLsbD w
    rw [Bool.xor_self] at this
    rw [← this]
    exact congrArg (parity · w) (funext (fun i => by simp))
  rw [h0, hz, parity_eq_decide_odd, Bool.false_xor, eq_comm, decide_eq_false_iff_not] at h
  exact h he

/-! ### Two bits -/

/-- `n` zero bits after `r`, one at a time: does the register ever show `p`? -/
def returnsWithin (p : BitVec w) : Nat → BitVec w → Bool
  | 0, _ => false
  | n + 1, r => step p r false == p || returnsWithin p n (step p r false)

theorem ne_of_returnsWithin {p : BitVec w} : ∀ {n : Nat} {r : BitVec w},
    returnsWithin p n r = false → ∀ d, d < n → (fun r => step p r false)^[d + 1] r ≠ p := by
  intro n
  induction n with
  | zero => intro r _ d hd; omega
  | succ n ih =>
    intro r h d hd
    rw [returnsWithin, Bool.or_eq_false_iff, beq_eq_false_iff_ne] at h
    cases d with
    | zero => exact h.1
    | succ d =>
      rw [Function.iterate_succ_apply]
      exact ih h.2 d (by omega)

/-- **Two bits.**  When the polynomial does not come back within `n` zero bits, two
set bits at most `n` places apart leave something in an empty register. -/
theorem run_two_ne_zero {p : BitVec w} (hp : p.msb = true) {n : Nat}
    (hn : returnsWithin p n p = false) {e : List Bool} {i j : Nat} (hij : i < j)
    (hj : j < e.length) (hd : j - i ≤ n)
    (he : ∀ k, e.getD k false = true ↔ k = i ∨ k = j) : run p 0#w e ≠ 0#w := by
  have hpre : true ∉ e.take i := not_mem_take (fun k hk => by have := (he k).mp hk; omega)
  have hpost : true ∉ e.drop (j + 1) := not_mem_drop (fun k hk => by have := (he k).mp hk; omega)
  have hi : e.drop i = true :: e.drop (i + 1) := by
    rw [List.drop_eq_getElem_cons (by omega)]
    congr 1
    rw [← List.getD_eq_getElem e false]
    exact (he i).mpr (Or.inl rfl)
  have hj' : e.drop j = true :: e.drop (j + 1) := by
    rw [List.drop_eq_getElem_cons hj]
    congr 1
    rw [← List.getD_eq_getElem e false]
    exact (he j).mpr (Or.inr rfl)
  have hmid : true ∉ (e.drop (i + 1)).take (j - i - 1) := by
    refine not_mem_take (fun k hk => ?_)
    rw [List.getD_eq_getElem?_getD, List.getElem?_drop, ← List.getD_eq_getElem?_getD] at hk
    have := (he _).mp hk
    omega
  have hsplit : e.drop (i + 1) = (e.drop (i + 1)).take (j - i - 1) ++ e.drop j := by
    conv_lhs => rw [← List.take_append_drop (j - i - 1) (e.drop (i + 1)), List.drop_drop]
    rw [show i + 1 + (j - i - 1) = j by omega]
  have hlen : ((e.drop (i + 1)).take (j - i - 1)).length = j - i - 1 := by
    rw [List.length_take, List.length_drop]
    omega
  rw [← List.take_append_drop i e, run_append, (run_eq_zero_of_not_mem hp hpre 0#w).mpr rfl, hi,
    run_cons, step_zero_true, hsplit, run_append, run_of_not_mem hmid, hlen, hj', run_cons, Ne,
    run_eq_zero_of_not_mem hp hpost, step_true, BitVec.xor_eq_zero_iff]
  have := ne_of_returnsWithin hn (j - i - 1) (by omega)
  rwa [Function.iterate_succ_apply'] at this

end ReflectedCrc
