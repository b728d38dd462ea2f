import Mathlib.Algebra.Field.ZMod
import Mathlib.Algebra.Polynomial.Div
import Mathlib.RingTheory.Coprime.Lemmas
import Mathlib.Tactic.LinearCombination
import Modbus.Library.ReflectedCrc

/-!
# CRC registers as remainders

A string of bits is a polynomial over `ZMod 2`, the first bit its highest
coefficient, and so is a register, least significant bit first.

* `ofReg_run`: what is in the register is a remainder modulo the generator
  polynomial.
* `run_eq_zero_iff_dvd`: a pattern that leaves `0` in an empty register is a
  multiple of the generator.
* `run_eq_zero_iff_of_window`: among the patterns within `w + 1` consecutive bits
  these are the zero pattern and the generator itself.
-/

open Polynomial

namespace ReflectedCrc

variable {w : Nat}

/-- A bit as a coefficient. -/
def ofBit (b : Bool) : ZMod 2 := if b then 1 else 0

@[simp] theorem ofBit_false : ofBit false = 0 := rfl

@[simp] theorem ofBit_true : ofBit true = 1 := rfl

theorem ofBit_xor (a b : Bool) : ofBit (a ^^ b) = ofBit a + ofBit b := by
  cases a <;> cases b <;> decide

theorem ofBit_injective : Function.Injective ofBit := by decide

/-- The first bit is the highest coefficient. -/
noncomputable def ofBits : List Bool → (ZMod 2)[X]
  | [] => 0
  | b :: bits => C (ofBit b) * X ^ bits.length + ofBits bits

/-- Bit `0` of a register is its highest coefficient. -/
noncomputable def ofReg (r : BitVec w) : (ZMod 2)[X] :=
  ∑ k ∈ Finset.range w, C (ofBit (r.getMsbD k)) * X ^ k

/-- The polynomial that `p` stands for: its leading term is left out. -/
noncomputable def generator (p : BitVec w) : (ZMod 2)[X] := X ^ w + ofReg p

/-! ### Coefficients -/

theorem coeff_ofReg (r : BitVec w) (k : Nat) : (ofReg r).coeff k = ofBit (r.getMsbD k) := by
  rw [ofReg, finsetSum_coeff]
  simp only [coeff_C_mul_X_pow]
  by_cases hk : k < w
  · rw [Finset.sum_eq_single_of_mem k (Finset.mem_range.mpr hk)
      (fun j _ hj => if_neg (Ne.symm hj)), if_pos rfl]
  · rw [BitVec.getMsbD_of_ge _ _ (Nat.le_of_not_lt hk), ofBit_false]
    exact Finset.sum_eq_zero fun j hj => if_neg (by have := Finset.mem_range.mp hj; omega)

theorem ofReg_injective : Function.Injective (ofReg : BitVec w → (ZMod 2)[X]) := by
  intro r s h
  refine BitVec.eq_of_getMsbD_eq fun k _ => ofBit_injective ?_
  rw [← coeff_ofReg, ← coeff_ofReg, h]

@[simp] theorem ofReg_zero : ofReg (0#w) = 0 := by
  ext k
  rw [coeff_ofReg, BitVec.getMsbD_zero, ofBit_false, coeff_zero]

theorem ofReg_eq_zero_iff {r : BitVec w} : ofReg r = 0 ↔ r = 0#w := by
  rw [← ofReg_zero (w := w)]
  exact ofReg_injective.eq_iff

theorem degree_ofReg_lt (r : BitVec w) : (ofReg r).degree < w := by
  rw [degree_lt_iff_coeff_zero]
  intro k hk
  rw [coeff_ofReg, BitVec.getMsbD_of_ge _ _ hk, ofBit_false]

/-- The last bit is the constant coefficient. -/
theorem coeff_ofBits (bits : List Bool) (k : Nat) :
    (ofBits bits).coeff k = ofBit (bits.reverse.getD k false) := by
  induction bits with
  | nil => rw [ofBits, coeff_zero, List.reverse_nil, List.getD_nil, ofBit_false]
  | cons b bits ih =>
    rw [ofBits, coeff_add, coeff_C_mul_X_pow, ih, List.reverse_cons]
    rcases Nat.lt_trichotomy k bits.length with h | h | h
    · rw [if_neg h.ne, zero_add, List.getD_append _ _ _ _ (by simpa using h)]
    · subst h
      rw [if_pos rfl, List.getD_append_right _ _ _ _ (by simp),
        List.getD_eq_default _ _ (by simp)]
      simp
    · rw [if_neg h.ne', List.getD_eq_default _ _ (by simpa using h.le),
        List.getD_eq_default _ _ (by simpa using h)]
      simp

/-- A string of `w` bits is the polynomial of a register exactly when it spells it out. -/
theorem ofBits_eq_ofReg {bits : List Bool} (hlen : bits.length = w) {r : BitVec w} :
    ofBits bits = ofReg r ↔ ∀ i, r.getLsbD i = bits.getD i false := by
  have hreverse : ∀ k, k < w → (bits.reverse.getD k false = bits.getD (w - 1 - k) false ∧
      r.getMsbD k = r.getLsbD (w - 1 - k)) := by
    intro k hk
    rw [List.getD_eq_getElem _ _ (by simpa [hlen] using hk), List.getElem_reverse,
      ← List.getD_eq_getElem bits false, hlen, BitVec.getMsbD_eq_getLsbD, decide_eq_true hk,
      Bool.true_and]
    exact ⟨rfl, rfl⟩
  constructor
  · intro h i
    by_cases hi : i < w
    · have hcoeff := congrArg (fun q => coeff q (w - 1 - i)) h
      simp only [coeff_ofBits, coeff_ofReg] at hcoeff
      obtain ⟨hbits, hreg⟩ := hreverse (w - 1 - i) (by omega)
      rw [hbits, hreg, Nat.sub_sub_self (by omega)] at hcoeff
      exact (ofBit_injective hcoeff).symm
    · rw [BitVec.getLsbD_of_ge _ _ (Nat.le_of_not_lt hi), List.getD_eq_default _ _ (by omega)]
  · intro h
    ext k
    rw [coeff_ofBits, coeff_ofReg]
    by_cases hk : k < w
    · rw [(hreverse k hk).1, (hreverse k hk).2, h]
    · rw [BitVec.getMsbD_of_ge _ _ (Nat.le_of_not_lt hk),
        List.getD_eq_default _ _ (by rw [List.length_reverse]; omega)]

theorem monic_generator (p : BitVec w) : (generator p).Monic := monic_X_pow_add (degree_ofReg_lt p)

theorem degree_generator (p : BitVec w) : (generator p).degree = w := by
  rw [generator, add_comm, degree_add_eq_right_of_degree_lt] <;> rw [degree_X_pow]
  exact degree_ofReg_lt p

theorem ofReg_xor (r s : BitVec w) : ofReg (r ^^^ s) = ofReg r + ofReg s := by
  ext k
  rw [coeff_add, coeff_ofReg, coeff_ofReg, coeff_ofReg, BitVec.getMsbD_xor, ofBit_xor]

theorem X_mul_ofReg (r : BitVec w) :
    X * ofReg r = C (ofBit (r.getLsbD 0)) * X ^ w + ofReg (r >>> 1) := by
  ext k
  rw [coeff_add, coeff_C_mul_X_pow, coeff_ofReg, BitVec.getMsbD_ushiftRight]
  cases k with
  | zero =>
    rw [coeff_X_mul_zero]
    cases w with
    | zero => simp
    | succ w => simp
  | succ k =>
    rw [coeff_X_mul, coeff_ofReg, Nat.add_sub_cancel]
    rcases Nat.lt_trichotomy (k + 1) w with h | h | h
    · simp [h, h.ne]
    · subst h
      simp [BitVec.getMsbD]
    · simp [h.ne', Nat.le_of_lt_succ h, Nat.not_lt.mpr h.le]

/-! ### Remainders -/

/-- One bit more: the register moves up by one place, and the generator goes in when a coefficient
of `X ^ w` comes of it. -/
theorem ofReg_step (p r : BitVec w) (b : Bool) :
    ofReg (step p r b) = X * ofReg r + C (ofBit b) * X ^ w
      + C (ofBit (r.getLsbD 0 ^^ b)) * generator p := by
  have htwice : C (ofBit (r.getLsbD 0)) * X ^ w + C (ofBit (r.getLsbD 0)) * X ^ w
      = (0 : (ZMod 2)[X]) := CharTwo.add_self_eq_zero _
  have hbit : C (ofBit b) * X ^ w + C (ofBit b) * X ^ w = (0 : (ZMod 2)[X]) :=
    CharTwo.add_self_eq_zero _
  have hadded : ofReg (step p r b) = ofReg (r >>> 1) + C (ofBit (r.getLsbD 0 ^^ b)) * ofReg p := by
    unfold step
    cases r.getLsbD 0 ^^ b
    · simp
    · simp [ofReg_xor]
  rw [hadded, X_mul_ofReg, generator, ofBit_xor, C_add]
  linear_combination -htwice - hbit

/-- **The register is a remainder** of what went in, put behind what was there before. -/
theorem ofReg_run (p r : BitVec w) (bits : List Bool) :
    ofReg (run p r bits)
      = (X ^ bits.length * ofReg r + X ^ w * ofBits bits) %ₘ generator p := by
  suffices h : ∃ q, ofReg (run p r bits) + generator p * q
      = X ^ bits.length * ofReg r + X ^ w * ofBits bits by
    obtain ⟨q, h⟩ := h
    exact (div_modByMonic_unique q _ (monic_generator p)
      ⟨h, (degree_ofReg_lt _).trans_eq (degree_generator p).symm⟩).2.symm
  induction bits generalizing r with
  | nil => exact ⟨0, by simp [ofBits]⟩
  | cons b bits ih =>
    obtain ⟨q, h⟩ := ih (step p r b)
    refine ⟨q + C (ofBit (r.getLsbD 0 ^^ b)) * X ^ bits.length, ?_⟩
    rw [run_cons, mul_add, ← add_assoc, h, ofReg_step, ofBits, List.length_cons]
    have htwice : X ^ bits.length * (C (ofBit (r.getLsbD 0 ^^ b)) * generator p)
        + X ^ bits.length * (C (ofBit (r.getLsbD 0 ^^ b)) * generator p) = 0 :=
      CharTwo.add_self_eq_zero _
    linear_combination htwice

theorem isCoprime_generator_X {p : BitVec w} (hp : p.msb = true) :
    IsCoprime (generator p) (X : (ZMod 2)[X]) := by
  have hw : w ≠ 0 := by
    rintro rfl
    simp [BitVec.msb] at hp
  have hconst : (generator p).coeff 0 = 1 := by
    rw [generator, coeff_add, coeff_X_pow, if_neg hw.symm, zero_add, coeff_ofReg,
      ← BitVec.msb_eq_getMsbD_zero, hp, ofBit_true]
  have hdiv := divX_mul_X_add (generator p)
  rw [hconst, C_1] at hdiv
  exact ⟨1, -divX (generator p), by linear_combination -hdiv⟩

/-- **What leaves `0` in an empty register is a multiple of the generator.** -/
theorem run_eq_zero_iff_dvd {p : BitVec w} (hp : p.msb = true) (bits : List Bool) :
    run p 0#w bits = 0#w ↔ generator p ∣ ofBits bits := by
  rw [← ofReg_eq_zero_iff, ofReg_run, ofReg_zero, mul_zero, zero_add,
    modByMonic_eq_zero_iff_dvd (monic_generator p)]
  exact ⟨(isCoprime_generator_X hp).pow_right.dvd_of_dvd_mul_left, fun h => h.mul_left _⟩

/-! ### One input behind another -/

theorem run_eq_zero_of_append {p : BitVec w} (hp : p.msb = true) {r : BitVec w}
    {a b : List Bool} (h : run p r (a ++ b) = 0#w) :
    run p r a = 0#w ↔ run p 0#w b = 0#w := by
  rw [run_append] at h
  constructor
  · intro ha
    rwa [ha] at h
  · intro hb
    have hsame : true ∉ List.zipWith xor b b := by
      simp [List.zipWith_self]
    have hxor := run_xor p b b rfl (run p r a) 0#w
    rw [h, hb, BitVec.xor_zero, BitVec.xor_zero] at hxor
    exact (run_eq_zero_of_not_mem hp hsame _).mp hxor

/-! ### One bit more than the register has -/

theorem lt_length_of_getD {e : List Bool} {s : Nat} (hs : e.getD s false = true) :
    s < e.length := by
  by_contra hge
  rw [List.getD_eq_default _ _ (Nat.le_of_not_lt hge)] at hs
  cases hs

/-- A window whose first bit is set leaves `0` if the bits of `p` are behind it. -/
theorem run_eq_zero_iff_of_first {p : BitVec w} (hp : p.msb = true) {e : List Bool} {s : Nat}
    (he : ∀ k, e.getD k false = true → s ≤ k ∧ k < s + (w + 1)) (hs : e.getD s false = true) :
    run p 0#w e = 0#w ↔ ∀ i, p.getLsbD i = e.getD (s + 1 + i) false := by
  have hlt := lt_length_of_getD hs
  have hpre : true ∉ e.take s := not_mem_take fun k hk => (he k hk).1
  have hsplit : e.drop s = true :: e.drop (s + 1) := by
    rw [List.drop_eq_getElem_cons hlt, ← List.getD_eq_getElem e false hlt, hs]
  have hpost : true ∉ (e.drop (s + 1)).drop w := by
    rw [List.drop_drop]
    exact not_mem_drop fun k hk => by have := he k hk; omega
  -- the bits behind the first one, of which none is set from bit `w` on
  have hrest : ∀ i, ((e.drop (s + 1)).take w).getD i false = e.getD (s + 1 + i) false := by
    intro i
    simp only [List.getD_eq_getElem?_getD, List.getElem?_take, List.getElem?_drop]
    split
    · rfl
    · rename_i hi
      cases hk : e.getD (s + 1 + i) false with
      | false => rw [← List.getD_eq_getElem?_getD, hk]; rfl
      | true => have := he _ hk; omega
  rw [← List.take_append_drop s e, run_append, (run_eq_zero_of_not_mem hp hpre 0#w).mpr rfl,
    hsplit, run_cons, step_zero_true, ← List.take_append_drop w (e.drop (s + 1)), run_append,
    run_eq_zero_of_not_mem hp hpost, run_eq_zero_iff hp _ (List.length_take_le _ _),
    List.take_append_drop, ← hsplit, List.take_append_drop]
  simp only [hrest]

/-- **Windows.**  A pattern whose set bits lie within `w + 1` consecutive bits leaves `0` in an
empty register only if it has none, or is the generator: the first bit of the window, and those
of `p` behind it. -/
theorem run_eq_zero_iff_of_window {p : BitVec w} (hp : p.msb = true) {e : List Bool} {s : Nat}
    (he : ∀ k, e.getD k false = true → s ≤ k ∧ k < s + (w + 1)) :
    run p 0#w e = 0#w ↔ true ∉ e ∨
      ∀ k, e.getD k false = true ↔ k = s ∨ ∃ i, k = s + 1 + i ∧ p.getLsbD i = true := by
  cases hs : e.getD s false with
  | false =>
    -- there is nothing at `s`, so this is a burst of `w` bits
    have hburst : ∀ k, e.getD k false = true → s + 1 ≤ k ∧ k < s + 1 + w := by
      intro k hk
      have hne : k ≠ s := by
        rintro rfl
        rw [hs] at hk
        cases hk
      have := he k hk
      omega
    constructor
    · intro h0
      by_contra hnot
      exact run_burst_ne_zero hp hburst (not_not.mp (not_or.mp hnot).1) h0
    · rintro (hnone | hall)
      · exact (run_eq_zero_of_not_mem hp hnone 0#w).mpr rfl
      · have := (hall s).mpr (Or.inl rfl)
        rw [hs] at this
        cases this
  | true =>
    have hlt := lt_length_of_getD hs
    have hmem : true ∈ e := by
      rw [List.getD_eq_getElem _ _ hlt] at hs
      exact hs ▸ List.getElem_mem hlt
    rw [run_eq_zero_iff_of_first hp he hs, or_iff_right (not_not.mpr hmem)]
    constructor
    · intro h k
      constructor
      · intro hk
        by_cases hks : k = s
        · exact Or.inl hks
        · obtain ⟨i, rfl⟩ : ∃ i, k = s + 1 + i := ⟨k - (s + 1), by have := he k hk; omega⟩
          exact Or.inr ⟨i, rfl, (h i).trans hk⟩
      · rintro (rfl | ⟨i, rfl, hi⟩)
        · exact hs
        · exact (h i).symm.trans hi
    · intro h i
      rw [Bool.eq_iff_iff, h]
      constructor
      · exact fun hi => Or.inr ⟨i, rfl, hi⟩
      · rintro (hi | ⟨j, hj, hi⟩)
        · omega
        · rwa [Nat.add_left_cancel hj]

end ReflectedCrc
