import Mathlib.Algebra.BigOperators.Group.List.Basic
import Mathlib.Data.UInt
import Modbus.Library.ByteBits
import Modbus.Values

/-!
# `CalcLrc`

The other checksum of `crc.hpp`: the negated sum of all bytes.

* `sum_burst`: within eight consecutive bits no change keeps the sum.
* `lrc_detects`: what the checksum says about a message, and what it does not.
-/

namespace Modbus

open ByteBits

def calcLrc (buffer : Bytes) : UInt8 :=
  let sum := buffer.foldl (fun sum b => sum + b) 0
  ~~~sum + 1

theorem calcLrc_eq (buffer : Bytes) : calcLrc buffer = -buffer.sum := by
  rw [UInt8.neg_eq_not_add, List.sum_eq_foldl]
  rfl

/-! ### Bursts -/

theorem lt_of_testBit_ne {b b' : UInt8} {k : Nat} (h : b.toNat.testBit k ≠ b'.toNat.testBit k) :
    k < 8 := by
  by_contra hge
  have hpow : 2 ^ 8 ≤ 2 ^ k := Nat.pow_le_pow_right (by omega) (by omega)
  rw [Nat.testBit_lt_two_pow (Nat.lt_of_lt_of_le b.toNat_lt hpow),
    Nat.testBit_lt_two_pow (Nat.lt_of_lt_of_le b'.toNat_lt hpow)] at h
  exact h rfl

theorem mod_two_pow_eq {x x' : UInt8} {s : Nat}
    (h : ∀ k < s, x.toNat.testBit k = x'.toNat.testBit k) :
    x.toNat % 2 ^ s = x'.toNat % 2 ^ s := by
  refine Nat.eq_of_testBit_eq fun k => ?_
  rw [Nat.testBit_mod_two_pow, Nat.testBit_mod_two_pow]
  by_cases hk : k < s
  · rw [h k hk]
  · simp [hk]

theorem div_two_pow_eq {y y' : UInt8} {s : Nat}
    (h : ∀ k, s ≤ k → y.toNat.testBit k = y'.toNat.testBit k) :
    y.toNat / 2 ^ s = y'.toNat / 2 ^ s := by
  refine Nat.eq_of_testBit_eq fun k => ?_
  rw [Nat.testBit_div_two_pow, Nat.testBit_div_two_pow]
  exact h _ (Nat.le_add_left s k)

/-- High bits of one byte do not make up for low bits of another one. -/
theorem bytes_eq_of_add_eq {x x' y y' : UInt8} {s : Nat} (hs : s ≤ 8)
    (hx : ∀ k < s, x.toNat.testBit k = x'.toNat.testBit k)
    (hy : ∀ k, s ≤ k → y.toNat.testBit k = y'.toNat.testBit k) (h : x + y = x' + y') :
    x = x' ∧ y = y' := by
  have hsum : x.toNat + y.toNat ≡ x'.toNat + y'.toNat [MOD 256] := by
    have htoNat := congrArg UInt8.toNat h
    rwa [UInt8.toNat_add, UInt8.toNat_add] at htoNat
  have hdvd : 2 ^ s ∣ 256 := Nat.pow_dvd_pow 2 hs
  have hlow : y.toNat % 2 ^ s = y'.toNat % 2 ^ s :=
    Nat.ModEq.add_left_cancel (mod_two_pow_eq hx) (hsum.of_dvd hdvd)
  obtain rfl : y = y' := UInt8.toNat_inj.mp (by
    rw [← Nat.div_add_mod y.toNat (2 ^ s), ← Nat.div_add_mod y'.toNat (2 ^ s),
      div_two_pow_eq hy, hlow])
  exact ⟨by simpa using h, rfl⟩

/-- What only differs in the first bits only differs in the first byte. -/
theorem sum_eq_of_low {f f' : Bytes} {s : Nat} (hs : s ≤ 8) (hlen : f'.length = f.length)
    (hwindow : ∀ i, bitAt f i ≠ bitAt f' i → i < s) : ∃ y y' rest,
      (∀ k, s ≤ k → y.toNat.testBit k = y'.toNat.testBit k) ∧ f.sum = y + rest ∧
      f'.sum = y' + rest ∧ (y = y' → f = f') := by
  cases f with
  | nil =>
    obtain rfl := List.length_eq_zero_iff.mp hlen
    exact ⟨0, 0, 0, fun _ _ => rfl, rfl, rfl, fun _ => rfl⟩
  | cons y f =>
    obtain ⟨y', f', rfl⟩ := List.exists_cons_of_length_eq_add_one hlen
    obtain rfl : f = f' := by
      refine eq_of_bitAt_eq (Nat.succ.inj hlen).symm fun i _ => ?_
      by_contra hne
      have hlt := hwindow (8 + i) (by rwa [bitAt_cons_add, bitAt_cons_add])
      omega
    refine ⟨y, y', f.sum, fun k hk => ?_, List.sum_cons, List.sum_cons, congrArg (· :: f)⟩
    by_contra hne
    have hbyte := lt_of_testBit_ne hne
    have hlt := hwindow k (by rwa [bitAt_cons_of_lt _ _ hbyte, bitAt_cons_of_lt _ _ hbyte])
    omega

/-- **Within eight consecutive bits no change keeps the sum.** -/
theorem sum_burst {f f' : Bytes} {s : Nat} (hlen : f'.length = f.length)
    (hwindow : ∀ i, bitAt f i ≠ bitAt f' i → s ≤ i ∧ i < s + 8) (hsum : f.sum = f'.sum) :
    f = f' := by
  induction f generalizing f' s with
  | nil => exact (List.length_eq_zero_iff.mp hlen).symm
  | cons x f ih =>
    obtain ⟨x', f', rfl⟩ := List.exists_cons_of_length_eq_add_one hlen
    have hlen' : f'.length = f.length := Nat.succ.inj hlen
    have hrest : ∀ i, bitAt f i ≠ bitAt f' i → s ≤ 8 + i ∧ 8 + i < s + 8 := fun i hi =>
      hwindow (8 + i) (by rwa [bitAt_cons_add, bitAt_cons_add])
    have hfirst : ∀ k, k < s → x.toNat.testBit k = x'.toNat.testBit k := by
      intro k hk
      by_contra hne
      have hlt := lt_of_testBit_ne hne
      have hle := (hwindow k (by rwa [bitAt_cons_of_lt _ _ hlt, bitAt_cons_of_lt _ _ hlt])).1
      omega
    rw [List.sum_cons, List.sum_cons] at hsum
    by_cases hs : s ≤ 8
    · obtain ⟨y, y', rest, hhigh, hf, hf', heq⟩ :=
        sum_eq_of_low hs hlen' fun i hi => by have := hrest i hi; omega
      rw [hf, hf', ← add_assoc, ← add_assoc] at hsum
      obtain ⟨rfl, rfl⟩ := bytes_eq_of_add_eq hs hfirst hhigh (add_right_cancel hsum)
      rw [heq rfl]
    · obtain ⟨t, rfl⟩ : ∃ t, s = 8 + t := ⟨s - 8, by omega⟩
      obtain rfl := byte_eq_of_testBit_eq fun k hk => hfirst k (by omega)
      have hwithin : ∀ i, bitAt f i ≠ bitAt f' i → t ≤ i ∧ i < t + 8 := fun i hi => by
        have := hrest i hi
        omega
      rw [ih hlen' hwithin (add_left_cancel hsum)]

/-- **What the checksum says.**  It is the only byte that makes the sum of a message zero, and it
notices every change within eight consecutive bits; bytes in another order it does not notice, nor
any other change that keeps the sum. -/
theorem lrc_detects (message : Bytes) :
    (∀ check, (message ++ [check]).sum = 0 ↔ check = calcLrc message) ∧
    (∀ message' : Bytes, message'.length = message.length → message' ≠ message →
      (∃ s, ∀ i, bitAt message i ≠ bitAt message' i → s ≤ i ∧ i < s + 8) →
        calcLrc message' ≠ calcLrc message) ∧
    (∀ message', message'.Perm message → calcLrc message' = calcLrc message) ∧
    ∀ message', calcLrc (message ++ message') = calcLrc message + calcLrc message' := by
  refine ⟨fun check => ?_, fun message' hlen hne hburst heq => ?_, fun message' h => ?_,
    fun message' => ?_⟩
  · rw [List.sum_append, List.sum_singleton, calcLrc_eq, eq_neg_iff_add_eq_zero, add_comm]
  · obtain ⟨s, hs⟩ := hburst
    rw [calcLrc_eq, calcLrc_eq] at heq
    exact hne (sum_burst hlen hs (neg_injective heq).symm).symm
  · rw [calcLrc_eq, calcLrc_eq, h.sum_eq]
  · rw [calcLrc_eq, calcLrc_eq, calcLrc_eq, List.sum_append, neg_add]

end Modbus
