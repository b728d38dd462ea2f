import Modbus.Crc
import Modbus.Utils

/-!
# `RtuFrame`

A slave id, a PDU, and their checksum, low byte first.

* `deserialize_eq_ok`: what `Deserialize` accepts is `encode`, the bytes that
  `Serialize` writes (`run_serialize`).
* `deserialize_exact_canonical`: the two are inverse to each other.
-/

namespace Modbus

open Span

inductive RtuError
  | kBufferTooShort
  | kInvalidCrc
  | kPduTooLarge
deriving DecidableEq, Repr

@[ext] structure RtuFrame where
  slaveId : UInt8
  pdu : Bytes
  size_le : ¬ pdu.length > kMaxPduSize

namespace RtuFrame

def kMinFrameSize : Nat := 3
def kMaxFrameSize : Nat := 256

def create (slaveId : UInt8) (pdu : Bytes) : Except RtuError RtuFrame :=
  if h : pdu.length > kMaxPduSize then .error .kPduTooLarge else .ok ⟨slaveId, pdu, h⟩

def getFrameSize (frame : RtuFrame) : Nat := frame.pdu.length + kMinFrameSize

def deserialize (crc : CrcType) : EStateM RtuError Bytes RtuFrame := do
  let buffer ← get
  failIf (buffer.length < kMinFrameSize) .kBufferTooShort
  let pduSize := buffer.length - kMinFrameSize
  failIf (pduSize > kMaxPduSize) .kPduTooLarge
  let slaveId := buffer.getD 0 0
  let crcLo := buffer.getD (1 + pduSize) 0
  let crcHi := buffer.getD (1 + pduSize + 1) 0
  let receivedCrc := crcHi.toUInt16 <<< 8 ||| crcLo.toUInt16
  let calculatedCrc := calcCrc crc (buffer.take (buffer.length - 2))
  failIf (calculatedCrc ≠ receivedCrc) .kInvalidCrc
  let pduSpan := (buffer.drop 1).take pduSize
  let frame ← lift (create slaveId pduSpan)
  set (buffer.drop buffer.length)
  return frame

/-- The state is the buffer, the value what is left of it behind the frame. -/
def serialize (crc : CrcType) (frame : RtuFrame) : EStateM RtuError Bytes Bytes := do
  let outBuffer ← get
  failIf (outBuffer.length < frame.getFrameSize) .kBufferTooShort
  let pduSize := frame.pdu.length
  let outBuffer := outBuffer.set 0 frame.slaveId
  let outBuffer := copyTo outBuffer 1 frame.pdu
  let state := crc.processByte crc.init frame.slaveId
  let state := if pduSize > 0 then crc.processBytes state frame.pdu else state
  let checksum : UInt16 := ⟨crc.checksum state⟩
  let outBuffer := outBuffer.set (1 + pduSize) (checksum &&& 0xFF).toUInt8
  let outBuffer := outBuffer.set (1 + pduSize + 1) ((checksum >>> 8) &&& 0xFF).toUInt8
  set outBuffer
  return outBuffer.drop frame.getFrameSize

/-! ### The encoding -/

def checksum (crc : CrcType) (slaveId : UInt8) (pdu : Bytes) : UInt16 :=
  ⟨crc.checksum (crc.processBytes crc.init (slaveId :: pdu))⟩

def encode (crc : CrcType) (frame : RtuFrame) : Bytes :=
  frame.slaveId :: (frame.pdu ++ [(checksum crc frame.slaveId frame.pdu).toUInt8,
    (checksum crc frame.slaveId frame.pdu >>> 8).toUInt8])

variable {crc : CrcType}

@[simp] theorem length_encode (frame : RtuFrame) :
    (encode crc frame).length = frame.getFrameSize := by
  simp [encode, getFrameSize, kMinFrameSize]

theorem getFrameSize_le (frame : RtuFrame) : frame.getFrameSize ≤ kMaxFrameSize := by
  have hsize := frame.size_le
  rw [kMaxPduSize] at hsize
  rw [getFrameSize, kMinFrameSize, kMaxFrameSize]
  omega

theorem take_encode (crc : CrcType) (frame : RtuFrame) :
    (encode crc frame).take kMaxFrameSize = encode crc frame :=
  List.take_of_length_le ((length_encode frame).trans_le frame.getFrameSize_le)

theorem and_ff_toUInt8 (v : UInt16) : (v &&& 0xFF).toUInt8 = v.toUInt8 := by
  apply UInt8.toNat_inj.mp
  rw [UInt16.toNat_toUInt8, UInt16.toNat_toUInt8, UInt16.toNat_and,
    show (0xFF : UInt16).toNat = 2 ^ 8 - 1 from rfl, Nat.and_two_pow_sub_one_eq_mod, Nat.mod_mod]

/-- Byte by byte is the same as all bytes at once; an empty PDU makes no difference. -/
theorem checksum_eq (slaveId : UInt8) (pdu : Bytes) :
    (if pdu.length > 0 then crc.processBytes (crc.processByte crc.init slaveId) pdu
      else crc.processByte crc.init slaveId) = crc.processBytes crc.init (slaveId :: pdu) := by
  rw [crc.processBytes_cons]
  cases pdu with
  | nil => rw [if_neg (by simp), crc.processBytes_nil]
  | cons b pdu => rw [if_pos (by simp)]

/-- The assignments of `Serialize`, one after the other. -/
theorem set_eq_encode (frame : RtuFrame) {out : Bytes} (h : frame.getFrameSize ≤ out.length)
    (lo hi : UInt8) :
    ((copyTo (out.set 0 frame.slaveId) 1 frame.pdu).set (1 + frame.pdu.length) lo).set
        (1 + frame.pdu.length + 1) hi
      = frame.slaveId :: (frame.pdu ++ [lo, hi]) ++ out.drop frame.getFrameSize := by
  obtain ⟨x, out, rfl⟩ : ∃ x l, out = x :: l := by
    cases out with
    | nil => simp [getFrameSize, kMinFrameSize] at h
    | cons x l => exact ⟨x, l, rfl⟩
  have hlen : frame.pdu.length + 2 ≤ out.length := by
    simp only [getFrameSize, kMinFrameSize, List.length_cons] at h
    omega
  obtain ⟨y, z, rest, hrest⟩ : ∃ y z rest, out.drop frame.pdu.length = y :: z :: rest := by
    rw [← List.getElem_cons_drop (by omega), ← List.getElem_cons_drop (by omega)]
    exact ⟨_, _, _, rfl⟩
  have hdrop : (x :: out).drop frame.getFrameSize = rest := by
    rw [getFrameSize, kMinFrameSize, show frame.pdu.length + 3 = frame.pdu.length + 2 + 1 by omega,
      List.drop_succ_cons, ← List.drop_drop, hrest]
    rfl
  rw [hdrop, List.set_cons_zero, copyTo, Nat.add_comm 1, List.drop_succ_cons, hrest]
  simp

theorem run_serialize_of_lt {frame : RtuFrame} {out : Bytes} (h : out.length < frame.getFrameSize) :
    (serialize crc frame).run out = .error .kBufferTooShort out := by
  rw [serialize, run_get_bind, run_failIf_bind_of_pos h]

/-- **`Serialize` fills in the encoding** and returns what comes after it. -/
theorem run_serialize {frame : RtuFrame} {out : Bytes} (h : frame.getFrameSize ≤ out.length) :
    (serialize crc frame).run out
      = .ok (out.drop frame.getFrameSize) (encode crc frame ++ out.drop frame.getFrameSize) := by
  rw [serialize, run_get_bind, run_failIf_bind_of_neg (Nat.not_lt.mpr h)]
  simp only [checksum_eq, set_eq_encode frame h, and_ff_toUInt8]
  have hdrop : (encode crc frame ++ out.drop frame.getFrameSize).drop frame.getFrameSize
      = out.drop frame.getFrameSize := List.drop_left' (length_encode frame)
  exact congrArg (fun rest => EStateM.Result.ok rest _) hdrop

/-- `std::array<std::byte, RtuFrame::kMaxFrameSize>`, before it is filled in. -/
def emptyFrame : Bytes := List.replicate kMaxFrameSize 0

theorem run_serialize_emptyFrame (crc : CrcType) (frame : RtuFrame) : ∃ rest buffer,
    (serialize crc frame).run emptyFrame = .ok rest buffer ∧
      buffer.take frame.getFrameSize = encode crc frame := by
  have hlen : emptyFrame.length = kMaxFrameSize := List.length_replicate
  have hroom : frame.getFrameSize ≤ emptyFrame.length := hlen ▸ frame.getFrameSize_le
  exact ⟨_, _, run_serialize hroom, List.take_left' (length_encode frame)⟩

/-! ### Decoding -/

theorem exists_parts {b : Bytes} (h : kMinFrameSize ≤ b.length) :
    ∃ slaveId pdu lo hi, b = slaveId :: (pdu ++ [lo, hi]) := by
  cases b with
  | nil => simp [kMinFrameSize] at h
  | cons slaveId b =>
    rw [kMinFrameSize, List.length_cons] at h
    obtain ⟨lo, hi, hlh⟩ := List.length_eq_two.mp
      (show (b.drop (b.length - 2)).length = 2 by rw [List.length_drop]; omega)
    exact ⟨slaveId, b.take (b.length - 2), lo, hi, by rw [← hlh, List.take_append_drop]⟩

theorem run_deserialize_of_lt {b : Bytes} (h : b.length < kMinFrameSize) :
    (deserialize crc).run b = .error .kBufferTooShort b := by
  rw [deserialize, run_get_bind, run_failIf_bind_of_pos h]

/-- Bytes that split into a slave id, a PDU and two checksum bytes. -/
theorem run_deserialize (slaveId lo hi : UInt8) (pdu : Bytes) :
    (deserialize crc).run (slaveId :: (pdu ++ [lo, hi]))
      = if h : pdu.length > kMaxPduSize then .error .kPduTooLarge (slaveId :: (pdu ++ [lo, hi]))
        else if checksum crc slaveId pdu = hi.toUInt16 <<< 8 ||| lo.toUInt16 then
          .ok ⟨slaveId, pdu, h⟩ []
        else .error .kInvalidCrc (slaveId :: (pdu ++ [lo, hi])) := by
  have hlen : (slaveId :: (pdu ++ [lo, hi])).length = pdu.length + kMinFrameSize := by
    simp [kMinFrameSize]
  have hcrc : calcCrc crc ((slaveId :: (pdu ++ [lo, hi])).take (pdu.length + kMinFrameSize - 2))
      = checksum crc slaveId pdu := by
    rw [kMinFrameSize, show pdu.length + 3 - 2 = pdu.length + 1 by omega, List.take_succ_cons,
      List.take_left' rfl]
    rfl
  have hlo : (slaveId :: (pdu ++ [lo, hi])).getD (1 + pdu.length) 0 = lo := by
    rw [Nat.add_comm, List.getD_cons_succ, List.getD_append_right _ _ _ _ (Nat.le_refl _)]
    simp
  have hhi : (slaveId :: (pdu ++ [lo, hi])).getD (1 + pdu.length + 1) 0 = hi := by
    rw [List.getD_cons_succ, Nat.add_comm, List.getD_append_right _ _ _ _ (by omega)]
    simp
  have hpdu : ((slaveId :: (pdu ++ [lo, hi])).drop 1).take pdu.length = pdu := by
    rw [List.drop_one, List.tail_cons, List.take_left' rfl]
  rw [deserialize, run_get_bind]
  dsimp only
  rw [hlen, Nat.add_sub_cancel, hcrc, hlo, hhi, hpdu, run_failIf_bind_of_neg (by omega)]
  by_cases h : pdu.length > kMaxPduSize
  · rw [run_failIf_bind_of_pos h, dif_pos h]
  · rw [run_failIf_bind_of_neg h, dif_neg h]
    by_cases hc : checksum crc slaveId pdu = hi.toUInt16 <<< 8 ||| lo.toUInt16
    · rw [run_failIf_bind_of_neg (not_not.mpr hc), if_pos hc, create, dif_neg h]
      exact congrArg (EStateM.Result.ok _) (List.drop_eq_nil_of_le hlen.le)
    · rw [run_failIf_bind_of_pos hc, if_neg hc]

/-- **A frame is accepted exactly in its own encoding**, and the span is then empty. -/
theorem deserialize_eq_ok {b rest : Bytes} {frame : RtuFrame} :
    (deserialize crc).run b = .ok frame rest ↔ b = encode crc frame ∧ rest = [] := by
  by_cases h : b.length < kMinFrameSize
  · rw [run_deserialize_of_lt h]
    constructor
    · intro hb
      cases hb
    · intro h'
      obtain ⟨rfl, _⟩ := h'
      rw [length_encode, getFrameSize] at h
      omega
  · obtain ⟨slaveId, pdu, lo, hi, rfl⟩ := exists_parts (Nat.not_lt.mp h)
    rw [run_deserialize]
    constructor
    · intro hb
      split at hb
      · cases hb
      · split at hb
        · rename_i hc
          cases hb
          refine ⟨?_, rfl⟩
          have hsplit := split_join hi lo
          rw [encode, hc]
          simp only [List.cons.injEq, and_true] at hsplit
          rw [hsplit.1, hsplit.2]
        · cases hb
    · intro h
      obtain ⟨hb, rfl⟩ := h
      obtain ⟨rfl, htail⟩ := List.cons.inj hb
      obtain ⟨rfl, hcheck⟩ := List.append_inj' htail rfl
      simp only [List.cons.injEq, and_true] at hcheck
      obtain ⟨rfl, rfl⟩ := hcheck
      rw [dif_neg frame.size_le, if_pos (join_split _).symm]

theorem deserialize_encode (frame : RtuFrame) :
    (deserialize crc).run (encode crc frame) = .ok frame [] :=
  deserialize_eq_ok.mpr ⟨rfl, rfl⟩

theorem deserialize_eq_error {b b' : Bytes} {e : RtuError}
    (h : (deserialize crc).run b = .error e b') : b' = b := by
  by_cases hlen : b.length < kMinFrameSize
  · rw [run_deserialize_of_lt hlen] at h
    cases h
    rfl
  · obtain ⟨slaveId, pdu, lo, hi, rfl⟩ := exists_parts (Nat.not_lt.mp hlen)
    rw [run_deserialize] at h
    split at h
    · cases h
      rfl
    · split at h
      · cases h
      · cases h
        rfl

/-- `frame.Serialize` writes exactly `b`: it needs as much room as `b` takes, fills
it in with `b`, and leaves the rest of the buffer alone. -/
def SerializesTo (crc : CrcType) (frame : RtuFrame) (b : Bytes) : Prop :=
  b.length = frame.getFrameSize ∧ ∀ out : Bytes,
    if out.length < b.length then (serialize crc frame).run out = .error .kBufferTooShort out
    else (serialize crc frame).run out = .ok (out.drop b.length) (b ++ out.drop b.length)

theorem serializesTo_iff {frame : RtuFrame} {b : Bytes} :
    SerializesTo crc frame b ↔ b = encode crc frame := by
  constructor
  · intro h'
    obtain ⟨hlen, h⟩ := h'
    have hb := h b
    rw [if_neg (by omega), run_serialize hlen.ge, hlen, EStateM.Result.ok.injEq] at hb
    rw [List.drop_eq_nil_of_le hlen.le, List.append_nil, List.append_nil] at hb
    exact hb.2.symm
  · rintro rfl
    refine ⟨length_encode frame, fun out => ?_⟩
    rw [length_encode]
    split
    · rename_i h
      exact run_serialize_of_lt h
    · rename_i h
      exact run_serialize (Nat.not_lt.mp h)

theorem encode_injective (crc : CrcType) {frame frame' : RtuFrame}
    (h : encode crc frame = encode crc frame') : frame = frame' := by
  obtain ⟨hs, h⟩ := List.cons.inj h
  exact RtuFrame.ext hs (List.append_inj' h rfl).1

/-- **`RtuFrame` is an exact, canonical codec.** -/
theorem deserialize_exact_canonical (crc : CrcType) :
    (∀ (s : UInt8) (p b : Bytes),
      (∃ frame rest, (deserialize crc).run b = .ok frame rest ∧ frame.slaveId = s ∧ frame.pdu = p) ↔
        p.length ≤ 253 ∧ b.length = p.length + 3 ∧
          ∃ frame, create s p = .ok frame ∧ SerializesTo crc frame b) ∧
    (∀ (s : UInt8) (p : Bytes), p.length ≤ 253 → ∃ frame b, create s p = .ok frame ∧
      SerializesTo crc frame b ∧ (deserialize crc).run b = .ok frame []) ∧
    (∀ b frame rest, (deserialize crc).run b = .ok frame rest → SerializesTo crc frame b) ∧
    (∀ frame frame' b, SerializesTo crc frame b → SerializesTo crc frame' b → frame = frame') ∧
    (∀ b frame rest, (deserialize crc).run b = .ok frame rest → rest = []) ∧
    (∀ b e b', (deserialize crc).run b = .error e b' → b' = b) := by
  have hcreate : ∀ (s : UInt8) (p : Bytes) (h : p.length ≤ 253),
      create s p = .ok ⟨s, p, Nat.not_lt.mpr h⟩ := fun s p h => dif_neg (Nat.not_lt.mpr h)
  refine ⟨fun s p b => ⟨?_, ?_⟩, fun s p h => ?_, fun b frame rest h => ?_,
    fun frame frame' b h h' => ?_,
    fun b frame rest h => (deserialize_eq_ok.mp h).2, fun b e b' h => deserialize_eq_error h⟩
  · intro h'
    obtain ⟨frame, rest, h, rfl, rfl⟩ := h'
    obtain ⟨rfl, _⟩ := deserialize_eq_ok.mp h
    have hp : frame.pdu.length ≤ 253 := Nat.not_lt.mp frame.size_le
    exact ⟨hp, length_encode frame, frame, hcreate _ _ hp, serializesTo_iff.mpr rfl⟩
  · intro h
    obtain ⟨hp, _, frame, hframe, hb⟩ := h
    rw [hcreate s p hp, Except.ok.injEq] at hframe
    subst hframe
    exact ⟨_, [], deserialize_eq_ok.mpr ⟨serializesTo_iff.mp hb, rfl⟩, rfl, rfl⟩
  · exact ⟨_, _, hcreate s p h, serializesTo_iff.mpr rfl, deserialize_encode _⟩
  · exact serializesTo_iff.mpr (deserialize_eq_ok.mp h).1
  · exact encode_injective crc ((serializesTo_iff.mp h).symm.trans (serializesTo_iff.mp h'))

end RtuFrame

end Modbus
