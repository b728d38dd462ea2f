import Mathlib.Data.FinEnum
import Mathlib.Data.Fintype.BigOperators
import Mathlib.SetTheory.Cardinal.Finite
import Modbus.ErrorDetection
import Modbus.Library.CrcPolynomial

/-!
# Frames as multiples of a polynomial

The checksum is a remainder modulo `x^16 + x^15 + x^2 + 1`, and a byte string is a frame exactly
when that polynomial divides it.  So it can be said exactly which changes the checksum misses.

* `accepted_iff_run`: which byte strings are accepted.
* `checksum_remainder`: `CalcCrc`, `Serialize` and `Deserialize` agree with polynomial division.
* `deserialize_changed_iff`: a change is missed exactly when the polynomial divides it.
-/

namespace Modbus

open ByteBits ReflectedCrc Polynomial

/-- `x^16 + x^15 + x^2 + 1` -/
noncomputable def crcGenerator : (ZMod 2)[X] := X ^ 16 + X ^ 15 + X ^ 2 + 1

theorem generator_polynomial : generator 0xA001#16 = crcGenerator := by
  rw [generator, crcGenerator, ofReg]
  simp only [Finset.sum_range_succ, Finset.sum_range_zero]
  simp
  ring

/-- A message that is divided: the initial value of the register stands before its bits. -/
noncomputable def dividend (bytes : Bytes) : (ZMod 2)[X] :=
  X ^ (8 * bytes.length) * ofReg 0xFFFF#16 + X ^ 16 * ofBits (ofBytes bytes)

theorem ofReg_run_ofBytes (bytes : Bytes) :
    ofReg (run 0xA001#16 0xFFFF#16 (ofBytes bytes)) = dividend bytes %ₘ crcGenerator := by
  rw [ofReg_run, generator_polynomial, length_ofBytes, dividend]

variable {crc : CrcType}

/-- **`CalcCrc` divides**, of an empty span too. -/
theorem ofReg_calcCrc (hcrc : crc.IsReflected) (buffer : Bytes) :
    ofReg (calcCrc crc buffer).toBitVec = dividend buffer %ₘ crcGenerator := by
  rw [← ofReg_run_ofBytes, calcCrc]
  cases buffer with
  | nil => rfl
  | cons b buffer =>
    have hsum := hcrc (b :: buffer)
    rw [reverse_kCrcPolynomial, reverse_kCrcInitialValue] at hsum
    rw [List.isEmpty_cons, if_neg Bool.false_ne_true]
    exact congrArg ofReg (hsum.trans BitVec.xor_zero)

namespace RtuFrame

/-- `Deserialize` takes `b` for a frame. -/
def Accepted (crc : CrcType) (b : Bytes) : Prop :=
  ∃ frame rest, (deserialize crc).run b = .ok frame rest

theorem accepted_iff_encode {b : Bytes} : Accepted crc b ↔ ∃ frame, b = encode crc frame := by
  constructor
  · intro h
    obtain ⟨frame, rest, h⟩ := h
    exact ⟨frame, (deserialize_eq_ok.mp h).1⟩
  · rintro ⟨frame, rfl⟩
    exact ⟨frame, [], deserialize_encode frame⟩

theorem accepted_iff_checksum {slaveId lo hi : UInt8} {pdu : Bytes} :
    Accepted crc (slaveId :: (pdu ++ [lo, hi])) ↔
      pdu.length ≤ kMaxPduSize ∧ checksum crc slaveId pdu = hi.toUInt16 <<< 8 ||| lo.toUInt16 := by
  rw [Accepted, run_deserialize]
  by_cases hsize : pdu.length > kMaxPduSize
  · simp [hsize]
  · by_cases hsum : checksum crc slaveId pdu = hi.toUInt16 <<< 8 ||| lo.toUInt16
    · simp [hsize, hsum, Nat.not_lt.mp hsize]
    · simp [hsize, hsum]

/-- **A frame is a string that empties the register.** -/
theorem accepted_iff_run (hcrc : crc.IsReflected) {b : Bytes} :
    Accepted crc b ↔ kMinFrameSize ≤ b.length ∧ b.length ≤ kMaxFrameSize ∧
      run 0xA001#16 0xFFFF#16 (ofBytes b) = 0#16 := by
  by_cases hmin : kMinFrameSize ≤ b.length
  · obtain ⟨slaveId, pdu, lo, hi, rfl⟩ := exists_parts hmin
    have hlen : (slaveId :: (pdu ++ [lo, hi])).length ≤ kMaxFrameSize ↔
        pdu.length ≤ kMaxPduSize := by
      simp only [List.length_cons, List.length_append, List.length_nil, kMaxFrameSize, kMaxPduSize]
      omega
    rw [accepted_iff_checksum, run_eq_zero_iff_checksum hcrc, hlen]
    simp only [hmin, true_and]
  · refine iff_of_false (fun h => ?_) (fun h => hmin h.1)
    obtain ⟨frame, rest, h⟩ := h
    rw [run_deserialize_of_lt (Nat.not_le.mp hmin)] at h
    cases h

/-! ### Division -/

theorem dvd_dividend_iff {b : Bytes} :
    crcGenerator ∣ dividend b ↔ run 0xA001#16 0xFFFF#16 (ofBytes b) = 0#16 := by
  have hmonic : crcGenerator.Monic := generator_polynomial ▸ monic_generator 0xA001#16
  rw [← modByMonic_eq_zero_iff_dvd hmonic, ← ofReg_run_ofBytes, ofReg_eq_zero_iff]

theorem ofBits_eq_remainder_iff (hcrc : crc.IsReflected) {slaveId lo hi : UInt8} {pdu : Bytes} :
    ofBits (ofBytes [lo, hi]) = dividend (slaveId :: pdu) %ₘ crcGenerator ↔
      checksum crc slaveId pdu = hi.toUInt16 <<< 8 ||| lo.toUInt16 := by
  rw [← ofReg_run_ofBytes, ofBits_eq_ofReg (by simp), ← run_eq_zero_iff msb_polynomial _ (by simp),
    ← run_eq_zero_iff_checksum hcrc, ← run_append, ← ofBytes_append, List.cons_append]

/-- **Checksums are remainders.**  `CalcCrc` is the remainder of its span; `Serialize` writes a
slave id, a PDU, and the remainder of the two; and `Deserialize` accepts the strings of three to
256 bytes that leave none. -/
theorem checksum_remainder (crc : CrcType) (hcrc : crc.IsReflected) :
    (∀ buffer, ofReg (calcCrc crc buffer).toBitVec = dividend buffer %ₘ crcGenerator) ∧
    (∀ frame b, SerializesTo crc frame b ↔ ∃ lo hi, b = frame.slaveId :: (frame.pdu ++ [lo, hi]) ∧
      ofBits (ofBytes [lo, hi]) = dividend (frame.slaveId :: frame.pdu) %ₘ crcGenerator) ∧
    ∀ b, Accepted crc b ↔ 3 ≤ b.length ∧ b.length ≤ 256 ∧ crcGenerator ∣ dividend b := by
  refine ⟨ofReg_calcCrc hcrc, fun frame b => ?_, fun b => ?_⟩
  · rw [serializesTo_iff]
    constructor
    · rintro rfl
      exact ⟨_, _, rfl, (ofBits_eq_remainder_iff hcrc).mpr (join_split _).symm⟩
    · rintro ⟨lo, hi, rfl, hsum⟩
      have hsplit := split_join hi lo
      simp only [← (ofBits_eq_remainder_iff hcrc).mp hsum, List.cons.injEq, and_true] at hsplit
      rw [encode, hsplit.1, hsplit.2]
  · rw [accepted_iff_run hcrc, dvd_dividend_iff]
    rfl

theorem accepted_request :
    Accepted bitwiseCrc [0x11, 0x03, 0x00, 0x6B, 0x00, 0x03, 0x76, 0x87] :=
  accepted_iff_encode.mpr
    ⟨⟨0x11, [0x03, 0x00, 0x6B, 0x00, 0x03], by decide⟩, by decide +kernel⟩

/-- It leaves no remainder. -/
theorem checksum_remainder_request :
    crcGenerator ∣ dividend [0x11, 0x03, 0x00, 0x6B, 0x00, 0x03, 0x76, 0x87] :=
  (((checksum_remainder bitwiseCrc isReflected_bitwiseCrc).2.2 _).mp accepted_request).2.2

/-! ### Changed frames -/

/-- **What the change leaves in an empty register decides.** -/
theorem accepted_changed_iff (hcrc : crc.IsReflected) {f f' : Bytes} (hf : Accepted crc f)
    (hlen : f'.length = f.length) :
    Accepted crc f' ↔ run 0xA001#16 0#16 (errorBits f f') = 0#16 := by
  obtain ⟨hmin, hmax, hrun⟩ := (accepted_iff_run hcrc).mp hf
  have hxor := run_xor 0xA001#16 (ofBytes f) (ofBytes f') (by simp [hlen]) 0xFFFF#16 0xFFFF#16
  rw [BitVec.xor_self, hrun, BitVec.zero_xor] at hxor
  rw [accepted_iff_run hcrc, hlen, errorBits, hxor]
  exact ⟨fun h => h.2.2, fun h => ⟨hmin, hmax, h⟩⟩

theorem errorBits_eq_none_iff {f f' : Bytes} (hlen : f'.length = f.length) :
    true ∉ errorBits f f' ↔ f' = f := by
  constructor
  · intro hnone
    refine eq_of_bitAt_eq hlen fun i hi => ?_
    by_contra hne
    have hmem : (errorBits f f').getD i false = true := by
      rw [getD_errorBits hlen, diffBits, Finset.mem_filter, Finset.mem_range, ← hlen]
      exact ⟨hi, Ne.symm hne⟩
    rw [List.getD_eq_getElem _ _ (by rw [length_errorBits hlen, ← hlen]; exact hi)] at hmem
    exact hnone (hmem ▸ List.getElem_mem _)
  · rintro rfl hmem
    obtain ⟨i, hi, hbit⟩ := List.mem_iff_getElem.mp hmem
    rw [← List.getD_eq_getElem _ false, getD_errorBits rfl, diffBits, Finset.mem_filter] at hbit
    exact hbit.2 rfl

theorem getLsbD_polynomial (i : Nat) :
    (0xA001#16).getLsbD i = true ↔ i = 0 ∨ i = 13 ∨ i = 15 := by
  by_cases hi : i < 16
  · revert i
    decide
  · rw [BitVec.getLsbD_of_ge _ _ (Nat.le_of_not_lt hi)]
    simp only [Bool.false_eq_true, false_iff]
    omega

/-- **Changes that go unnoticed.**  A frame that is changed, and not in length, is accepted exactly
when `x^16 + x^15 + x^2 + 1` divides the change.  Of the changes within seventeen consecutive bits
this is the polynomial itself: the bits `s`, `s + 1`, `s + 14` and `s + 16`. -/
theorem deserialize_changed_iff (crc : CrcType) (hcrc : crc.IsReflected) (frame : RtuFrame)
    (f f' : Bytes) (hf : SerializesTo crc frame f) (hlen : f'.length = f.length) :
    ((∃ frame', (deserialize crc).run f' = .ok frame' []) ↔
      crcGenerator ∣ ofBits (errorBits f f')) ∧
    ((deserialize crc).run f' = .error .kInvalidCrc f' ↔
      ¬ crcGenerator ∣ ofBits (errorBits f f')) ∧
    ∀ s, (∀ i ∈ diffBits f f', s ≤ i ∧ i < s + 17) →
      ((∃ frame', (deserialize crc).run f' = .ok frame' []) ↔
        f' = f ∨ diffBits f f' = {s, s + 1, s + 14, s + 16}) := by
  have haccepted : Accepted crc f := accepted_iff_encode.mpr ⟨frame, serializesTo_iff.mp hf⟩
  have hok : (∃ frame', (deserialize crc).run f' = .ok frame' []) ↔
      run 0xA001#16 0#16 (errorBits f f') = 0#16 := by
    rw [← accepted_changed_iff hcrc haccepted hlen]
    constructor
    · exact fun ⟨frame', h⟩ => ⟨frame', [], h⟩
    · rintro ⟨frame', rest, h⟩
      obtain ⟨_, rfl⟩ := deserialize_eq_ok.mp h
      exact ⟨frame', h⟩
  have hdvd := run_eq_zero_iff_dvd msb_polynomial (errorBits f f')
  rw [generator_polynomial] at hdvd
  refine ⟨hok.trans hdvd, ?_, fun s hs => ?_⟩
  · rw [← hdvd]
    constructor
    · intro h h0
      obtain ⟨frame', h'⟩ := hok.mpr h0
      rw [h] at h'
      cases h'
    · exact deserialize_of_errorBits hcrc hf hlen
  · rw [hok, run_eq_zero_iff_of_window msb_polynomial
      (fun k hk => hs k ((getD_errorBits hlen k).mp hk)), errorBits_eq_none_iff hlen]
    simp only [getD_errorBits hlen, getLsbD_polynomial]
    refine or_congr_right ?_
    rw [Finset.ext_iff]
    refine forall_congr' fun k => iff_congr Iff.rfl ?_
    simp only [Finset.mem_insert, Finset.mem_singleton]
    constructor
    · rintro (h | ⟨i, rfl, hi⟩) <;> omega
    · rintro (h | h | h | h)
      · exact Or.inl h
      · exact Or.inr ⟨0, by omega⟩
      · exact Or.inr ⟨13, by omega⟩
      · exact Or.inr ⟨15, by omega⟩

/-- A frame of the frame tests, and another one that differs from it in the bits `0`, `1`, `14`
and `16`. -/
theorem deserialize_changed_missed : ∃ frame',
    (deserialize bitwiseCrc).run [0x12, 0x43, 0x01, 0x6B, 0x00, 0x03, 0x76, 0x87]
      = .ok frame' [] := by
  have hbits : diffBits [0x11, 0x03, 0x00, 0x6B, 0x00, 0x03, 0x76, 0x87]
      [0x12, 0x43, 0x01, 0x6B, 0x00, 0x03, 0x76, 0x87] = {0, 1, 14, 16} := by decide +kernel
  refine ((deserialize_changed_iff bitwiseCrc isReflected_bitwiseCrc
    ⟨0x11, [0x03, 0x00, 0x6B, 0x00, 0x03], by decide⟩
    [0x11, 0x03, 0x00, 0x6B, 0x00, 0x03, 0x76, 0x87]
    [0x12, 0x43, 0x01, 0x6B, 0x00, 0x03, 0x76, 0x87]
      (serializesTo_iff.mpr (by decide +kernel)) rfl).2.2 0 ?_).mpr (Or.inr hbits)
  rw [hbits]
  decide

/-! ### Longer and shorter strings -/

theorem not_mem_ofBytes_zeros (n : Nat) : true ∉ ofBytes (List.replicate n 0) := by
  induction n with
  | zero => exact List.not_mem_nil
  | succ n ih =>
    rw [List.replicate_succ, ofBytes_cons, List.mem_append, not_or]
    exact ⟨by decide, ih⟩

theorem run_zeros (n : Nat) : run 0xA001#16 0#16 (ofBytes (List.replicate n 0)) = 0#16 :=
  (run_eq_zero_of_not_mem msb_polynomial (not_mem_ofBytes_zeros n) 0#16).mpr rfl

theorem run_short_iff {t : Bytes} (h : t.length ≤ 2) :
    run 0xA001#16 0#16 (ofBytes t) = 0#16 ↔ ∀ b ∈ t, b = 0 := by
  have hzeros : (∀ b ∈ t, b = 0) ↔ t = List.replicate t.length 0 := by
    rw [List.eq_replicate_iff]
    exact ⟨fun h => ⟨rfl, h⟩, fun h => h.2⟩
  have hbits : ∀ n i, bitAt (List.replicate n 0) i = false := by
    intro n i
    have hbyte : (List.replicate n (0 : UInt8)).getD (i / 8) 0 = 0 := by
      rw [List.getD_eq_getElem?_getD, List.getElem?_replicate]
      split <;> rfl
    rw [bitAt, hbyte]
    exact Nat.zero_testBit _
  rw [hzeros]
  constructor
  · intro h0
    rw [run_eq_zero_iff msb_polynomial _ (by rw [length_ofBytes]; omega)] at h0
    refine eq_of_bitAt_eq (by simp) fun i _ => ?_
    rw [hbits, ← getD_ofBytes, ← h0]
    simp
  · intro ht
    rw [ht]
    exact run_zeros _

theorem accepted_append_zeros (hcrc : crc.IsReflected) {f : Bytes} {n : Nat} (hf : Accepted crc f)
    (hlen : (f ++ List.replicate n 0).length ≤ kMaxFrameSize) :
    Accepted crc (f ++ List.replicate n 0) := by
  obtain ⟨hmin, _, hrun⟩ := (accepted_iff_run hcrc).mp hf
  rw [accepted_iff_run hcrc, ofBytes_append, run_append, hrun]
  exact ⟨by rw [List.length_append]; omega, hlen, run_zeros n⟩

theorem exists_encode_append {frame : RtuFrame} {t : Bytes}
    (h : Accepted crc (encode crc frame ++ t)) : ∃ extra hsize,
      encode crc frame ++ t = encode crc ⟨frame.slaveId, frame.pdu ++ extra, hsize⟩ := by
  obtain ⟨⟨slaveId, pdu, hsize⟩, heq⟩ := accepted_iff_encode.mp h
  have hlen : frame.pdu.length + kMinFrameSize + t.length = pdu.length + kMinFrameSize := by
    have := congrArg List.length heq
    rwa [List.length_append, length_encode, length_encode] at this
  obtain ⟨rfl, htail⟩ := List.cons.inj heq
  have hprefix : frame.pdu <+: pdu := List.prefix_of_prefix_length_le
    ((List.prefix_append _ _).trans (List.prefix_append _ _)) ⟨_, htail.symm⟩ (by omega)
  obtain ⟨extra, rfl⟩ := hprefix
  exact ⟨extra, hsize, heq⟩

/-- **Frames that go on, and frames that are cut off.**  Behind a frame exactly the multiples of
the polynomial go unnoticed, and so they do when they are cut off the end of a frame.  Of two bytes
or less these are zeros. -/
theorem deserialize_extended_iff (crc : CrcType) (hcrc : crc.IsReflected) (a t : Bytes) :
    (Accepted crc a → (Accepted crc (a ++ t) ↔
      (a ++ t).length ≤ 256 ∧ crcGenerator ∣ ofBits (ofBytes t))) ∧
    (Accepted crc (a ++ t) → (Accepted crc a ↔
      3 ≤ a.length ∧ crcGenerator ∣ ofBits (ofBytes t))) ∧
    (t.length ≤ 2 → (crcGenerator ∣ ofBits (ofBytes t) ↔ ∀ b ∈ t, b = 0)) := by
  have hdvd := run_eq_zero_iff_dvd msb_polynomial (ofBytes t)
  rw [generator_polynomial] at hdvd
  refine ⟨fun ha => ?_, fun hat => ?_, fun ht => ?_⟩
  · obtain ⟨hmin, _, hrun⟩ := (accepted_iff_run hcrc).mp ha
    have hlong : kMinFrameSize ≤ (a ++ t).length := by
      rw [List.length_append]
      omega
    rw [accepted_iff_run hcrc, ofBytes_append, run_append, hrun, hdvd]
    exact ⟨fun h => h.2, fun h => ⟨hlong, h⟩⟩
  · obtain ⟨_, hmax, hrun⟩ := (accepted_iff_run hcrc).mp hat
    rw [List.length_append] at hmax
    have hshort : a.length ≤ kMaxFrameSize := by omega
    rw [ofBytes_append] at hrun
    rw [accepted_iff_run hcrc, run_eq_zero_of_append msb_polynomial hrun, hdvd]
    exact ⟨fun h => ⟨h.1, h.2.2⟩, fun h => ⟨h.1, hshort, h.2⟩⟩
  · rw [← hdvd, run_short_iff ht]

/-- The read request of the frame tests, with two zeros behind it. -/
theorem deserialize_extended_zeros :
    Accepted bitwiseCrc ([0x11, 0x03, 0x00, 0x6B, 0x00, 0x03, 0x76, 0x87] ++ [0x00, 0x00]) := by
  obtain ⟨hlonger, _, hshort⟩ := deserialize_extended_iff bitwiseCrc isReflected_bitwiseCrc
    [0x11, 0x03, 0x00, 0x6B, 0x00, 0x03, 0x76, 0x87] [0x00, 0x00]
  exact (hlonger accepted_request).mpr ⟨by simp, (hshort (by decide)).mpr (by simp)⟩

/-! ### How many strings are frames -/

def crcBytes (crc : CrcType) (m : Bytes) : Bytes :=
  [(calcCrc crc m).toUInt8, (calcCrc crc m >>> 8).toUInt8]

theorem accepted_append_iff {m check : Bytes} (hm : m ≠ []) (hcheck : check.length = 2) :
    Accepted crc (m ++ check) ↔ m.length ≤ kMaxPduSize + 1 ∧ check = crcBytes crc m := by
  obtain ⟨slaveId, pdu, rfl⟩ := List.exists_cons_of_ne_nil hm
  obtain ⟨lo, hi, rfl⟩ := List.length_eq_two.mp hcheck
  have hsum : checksum crc slaveId pdu = calcCrc crc (slaveId :: pdu) := rfl
  rw [List.cons_append, accepted_iff_checksum, hsum, crcBytes, List.length_cons,
    Nat.add_le_add_iff_right]
  refine and_congr_right fun _ => ?_
  constructor
  · intro h
    have hsplit := split_join hi lo
    simp only [← h, List.cons.injEq, and_true] at hsplit
    rw [hsplit.1, hsplit.2]
  · intro h
    simp only [List.cons.injEq, and_true] at h
    rw [h.1, h.2, join_split]

def acceptedEquiv (crc : CrcType) {n : Nat} (hpos : 0 < n) (hmax : n ≤ kMaxPduSize + 1) :
    {b : Bytes // b.length = n + 2 ∧ Accepted crc b} ≃ List.Vector UInt8 n where
  toFun b := ⟨b.1.take n, by rw [List.length_take, b.2.1, Nat.min_eq_left (Nat.le_add_right n 2)]⟩
  invFun v := ⟨v.1 ++ crcBytes crc v.1, by simp [v.2, crcBytes],
    (accepted_append_iff (List.ne_nil_of_length_pos (hpos.trans_eq v.2.symm)) rfl).mpr
      ⟨v.2.trans_le hmax, rfl⟩⟩
  left_inv b := by
    obtain ⟨b, hlen, h⟩ := b
    have hhead : (b.take n).length = n := by
      rw [List.length_take, hlen, Nat.min_eq_left (Nat.le_add_right n 2)]
    rw [← List.take_append_drop n b, accepted_append_iff
      (List.ne_nil_of_length_pos (hpos.trans_eq hhead.symm))
      (by rw [List.length_drop, hlen, Nat.add_sub_cancel_left])] at h
    exact Subtype.ext ((congrArg (b.take n ++ ·) h.2.symm).trans (List.take_append_drop n b))
  right_inv v := Subtype.ext (by
    show (v.1 ++ crcBytes crc v.1).take n = v.1
    rw [List.take_left' v.2])

/-- **One in `2 ^ 16`.**  Of the strings of `n` bytes `256 ^ (n - 2)` are accepted as frames, if
there are from 3 to 256 of them, and none if not. -/
theorem card_accepted (crc : CrcType) (n : Nat) :
    Nat.card {b : Bytes // b.length = n ∧ Accepted crc b}
      = if 3 ≤ n ∧ n ≤ 256 then 256 ^ (n - 2) else 0 := by
  split
  · rename_i h
    obtain ⟨m, rfl⟩ : ∃ m, n = m + 2 := ⟨n - 2, by omega⟩
    have hmax : m ≤ kMaxPduSize + 1 := by
      rw [kMaxPduSize]
      omega
    have hbyte : Fintype.card UInt8 = 256 := FinEnum.card_eq_fintypeCard.symm
    rw [Nat.card_congr (acceptedEquiv crc (by omega) hmax), Nat.card_eq_fintype_card, card_vector,
      hbyte, Nat.add_sub_cancel]
  · rename_i h
    refine Nat.card_eq_zero.mpr (Or.inl ⟨fun b => h ?_⟩)
    obtain ⟨frame, hb⟩ := accepted_iff_encode.mp b.2.2
    have hlen := frame.getFrameSize_le
    rw [← b.2.1, hb, length_encode]
    exact ⟨Nat.le_add_left 3 _, hlen⟩

end RtuFrame

end Modbus
