import Modbus.RtuFrame
import Mathlib.Data.Finset.Card

/-!
# What the checksum detects

Read bit by bit, each byte least significant bit first, a frame is a codeword: its
slave id, its PDU and its checksum together bring the register to `0`
(`run_encode`).  The checksum bytes go low byte first, so the last sixteen bits of
a frame spell the register out, and `ReflectedCrc.run_eq_zero_iff` is all that is
needed.  By linearity a changed frame passes only if the change itself brings an
empty register back to `0`.

* `deserialize_two_or_odd`: two bits, or an odd number of bits.
* `deserialize_burst`: a burst of up to sixteen bits.
-/

namespace Modbus.RtuFrame

open ByteBits ReflectedCrc

variable {crc : CrcType}

/-! ### Frames are codewords -/

theorem getLsbD_join (lo hi : UInt8) (i : Nat) :
    (hi.toUInt16 <<< 8 ||| lo.toUInt16).toBitVec.getLsbD i = bitAt [lo, hi] i := by
  show (hi.toUInt16 <<< 8 ||| lo.toUInt16).toNat.testBit i = _
  rw [toNat_join, show 256 * hi.toNat = 2 ^ 8 * hi.toNat from rfl,
    Nat.testBit_two_pow_mul_add _ (UInt8.toNat_lt lo)]
  by_cases h : i < 8
  · rw [if_pos h, bitAt_cons_of_lt _ _ h]
  · obtain ⟨j, rfl⟩ : ∃ j, i = 8 + j := ⟨i - 8, by omega⟩
    rw [if_neg h, Nat.add_sub_cancel_left, bitAt_cons_add]
    by_cases hj : j < 8
    · rw [bitAt_cons_of_lt _ _ hj]
    · rw [bitAt_of_ge (by simpa using hj)]
      exact Nat.testBit_lt_two_pow
        (hi.toNat_lt.trans_le (Nat.pow_le_pow_right (by omega) (by omega)))

/-- **The register is `0` after a frame exactly when the checksum is right.** -/
theorem run_eq_zero_iff_checksum (hcrc : crc.IsReflected) (slaveId lo hi : UInt8) (pdu : Bytes) :
    run 0xA001#16 0xFFFF#16 (ofBytes (slaveId :: (pdu ++ [lo, hi]))) = 0#16 ↔
      checksum crc slaveId pdu = hi.toUInt16 <<< 8 ||| lo.toUInt16 := by
  have hsum : run 0xA001#16 0xFFFF#16 (ofBytes (slaveId :: pdu))
      = (checksum crc slaveId pdu).toBitVec := by
    have := hcrc (slaveId :: pdu)
    rw [reverse_kCrcPolynomial, reverse_kCrcInitialValue] at this
    exact (BitVec.xor_zero).symm.trans this.symm
  rw [← List.cons_append, ofBytes_append, run_append, hsum,
    run_eq_zero_iff msb_polynomial _ (by simp), ← UInt16.toBitVec_inj]
  simp only [getD_ofBytes, ← getLsbD_join]
  constructor
  · intro h
    exact BitVec.eq_of_getLsbD_eq (fun i _ => h i)
  · intro h i
    rw [h]

theorem run_encode (hcrc : crc.IsReflected) (frame : RtuFrame) :
    run 0xA001#16 0xFFFF#16 (ofBytes (encode crc frame)) = 0#16 :=
  (run_eq_zero_iff_checksum hcrc _ _ _ _).mpr (join_split _).symm

/-! ### Changed frames -/

/-- The bits, as one string, in which two byte strings differ. -/
def errorBits (f f' : Bytes) : List Bool := List.zipWith xor (ofBytes f) (ofBytes f')

def diffBits (f f' : Bytes) : Finset Nat :=
  (Finset.range (8 * f.length)).filter (fun i => bitAt f i ≠ bitAt f' i)

theorem length_errorBits {f f' : Bytes} (hlen : f'.length = f.length) :
    (errorBits f f').length = 8 * f.length := by
  simp [errorBits, hlen]

theorem getD_errorBits {f f' : Bytes} (hlen : f'.length = f.length) (i : Nat) :
    (errorBits f f').getD i false = true ↔ i ∈ diffBits f f' := by
  rw [diffBits, Finset.mem_filter, Finset.mem_range]
  by_cases h : i < 8 * f.length
  · rw [List.getD_eq_getElem _ _ (by rwa [length_errorBits hlen])]
    simp only [errorBits, List.getElem_zipWith]
    rw [← List.getD_eq_getElem (ofBytes f) false, ← List.getD_eq_getElem (ofBytes f') false,
      getD_ofBytes, getD_ofBytes]
    simp [h]
  · rw [List.getD_eq_default _ _ (by rw [length_errorBits hlen]; omega)]
    simp [h]

/-- **A change that leaves something in an empty register is noticed.** -/
theorem deserialize_of_errorBits (hcrc : crc.IsReflected) {frame : RtuFrame} {f f' : Bytes}
    (hf : SerializesTo crc frame f) (hlen : f'.length = f.length)
    (h : run 0xA001#16 0#16 (errorBits f f') ≠ 0#16) :
    (deserialize crc).run f' = .error .kInvalidCrc f' := by
  obtain rfl := serializesTo_iff.mp hf
  have hsize : f'.length = frame.pdu.length + kMinFrameSize := by
    rw [hlen, length_encode, getFrameSize]
  obtain ⟨slaveId, pdu, lo, hi, rfl⟩ := exists_parts (b := f') (by omega)
  have hpdu : pdu.length = frame.pdu.length := by
    simpa [kMinFrameSize] using hsize
  rw [run_deserialize, dif_neg (by rw [hpdu]; exact frame.size_le), if_neg]
  intro hc
  rw [← run_eq_zero_iff_checksum hcrc] at hc
  exact h (run_zipWith_eq_zero (by simp [hlen]) ((run_encode hcrc frame).trans hc.symm))

/-- **Two flipped bits, or an odd number of them, anywhere in a frame, are noticed.** -/
theorem deserialize_two_or_odd (crc : CrcType) (hcrc : crc.IsReflected) (frame : RtuFrame)
    (f f' : Bytes) (hf : SerializesTo crc frame f) (hlen : f'.length = f.length)
    (hdiff : (diffBits f f').card = 2 ∨ Odd (diffBits f f').card) :
    (deserialize crc).run f' = .error .kInvalidCrc f' := by
  refine deserialize_of_errorBits hcrc hf hlen ?_
  have hmax : 8 * f.length ≤ 2048 := by
    have hsize := frame.size_le
    rw [hf.1, getFrameSize, kMinFrameSize]
    rw [kMaxPduSize] at hsize
    omega
  rcases hdiff with htwo | hodd
  · obtain ⟨i, j, hij, hset⟩ := Finset.card_eq_two.mp htwo
    wlog hlt : i < j generalizing i j
    · exact this j i hij.symm (by rw [hset, Finset.pair_comm]) (by omega)
    have hmem : ∀ k, (errorBits f f').getD k false = true ↔ k = i ∨ k = j := by
      intro k
      rw [getD_errorBits hlen, hset, Finset.mem_insert, Finset.mem_singleton]
    have hj : j < 8 * f.length := by
      have : j ∈ diffBits f f' := by rw [hset]; simp
      exact Finset.mem_range.mp (Finset.mem_filter.mp this).1
    exact run_two_ne_zero msb_polynomial returnsWithin_polynomial hlt
      (by rw [length_errorBits hlen]; exact hj) (by omega) hmem
  · refine run_odd_ne_zero parity_polynomial ?_
    have hcount : Nat.count (fun i => (errorBits f f').getD i false = true) (errorBits f f').length
        = (diffBits f f').card := by
      rw [Nat.count_eq_card_filter_range, length_errorBits hlen]
      congr 1
      ext i
      rw [Finset.mem_filter, getD_errorBits hlen, Finset.mem_range]
      exact ⟨fun h => h.2, fun h => ⟨Finset.mem_range.mp (Finset.mem_filter.mp h).1, h⟩⟩
    rw [hcount]
    exact hodd

/-- The read request of the frame tests, with its first bit and its last bit flipped. -/
theorem deserialize_two_or_odd_flipped :
    (deserialize bitwiseCrc).run [0x10, 0x03, 0x00, 0x6B, 0x00, 0x03, 0x76, 0x07]
      = .error .kInvalidCrc [0x10, 0x03, 0x00, 0x6B, 0x00, 0x03, 0x76, 0x07] :=
  deserialize_two_or_odd bitwiseCrc isReflected_bitwiseCrc
    ⟨0x11, [0x03, 0x00, 0x6B, 0x00, 0x03], by decide⟩
    [0x11, 0x03, 0x00, 0x6B, 0x00, 0x03, 0x76, 0x87] _
      (serializesTo_iff.mpr (by decide +kernel)) rfl
    (Or.inl (by decide))

/-- **A burst of at most sixteen bits, anywhere in a frame, is noticed.** -/
theorem deserialize_burst (crc : CrcType) (hcrc : crc.IsReflected) (frame : RtuFrame)
    (f f' : Bytes) (hf : SerializesTo crc frame f) (hlen : f'.length = f.length) (hne : f' ≠ f)
    (hburst : ∃ w, ∀ i ∈ diffBits f f', w ≤ i ∧ i < w + 16) :
    (deserialize crc).run f' = .error .kInvalidCrc f' := by
  obtain ⟨w, hw⟩ := hburst
  refine deserialize_of_errorBits hcrc hf hlen (run_burst_ne_zero msb_polynomial (s := w)
    (fun k hk => hw k ((getD_errorBits hlen k).mp hk)) ?_)
  -- byte strings with no differing bit are equal
  by_contra hnone
  refine hne (eq_of_bitAt_eq hlen (fun i hi => ?_))
  by_contra hi'
  have hmem : (errorBits f f').getD i false = true := by
    rw [getD_errorBits hlen, diffBits, Finset.mem_filter, Finset.mem_range, ← hlen]
    exact ⟨hi, Ne.symm hi'⟩
  rw [List.getD_eq_getElem _ _ (by rw [length_errorBits hlen, ← hlen]; exact hi)] at hmem
  exact hnone (hmem ▸ List.getElem_mem _)

/-- The corrupted frame of the frame tests. -/
theorem deserialize_burst_flipped :
    (deserialize bitwiseCrc).run [0x11, 0x03, 0x00, 0x6B, 0x00, 0x03, 0x76, 0xFF]
      = .error .kInvalidCrc [0x11, 0x03, 0x00, 0x6B, 0x00, 0x03, 0x76, 0xFF] :=
  deserialize_burst bitwiseCrc isReflected_bitwiseCrc
    ⟨0x11, [0x03, 0x00, 0x6B, 0x00, 0x03], by decide⟩
    [0x11, 0x03, 0x00, 0x6B, 0x00, 0x03, 0x76, 0x87] _
      (serializesTo_iff.mpr (by decide +kernel)) rfl
    (by decide) ⟨56, by decide⟩

end Modbus.RtuFrame
