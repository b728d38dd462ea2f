import Modbus.RtuFrame
import Modbus.WellFormed

/-!
# Decoders that fail

`ReadBe` leaves a span alone when it fails, and so do the decoders of error responses and of
frames, which look before they move.  The decoders of messages read on from field to field,
and the first one, the function code, is gone whatever fails behind it.

* `Codec.Recognizes.restoresExactlyOn`: such a decoder gives everything back on the empty span
  only, or does not fail.
* `decoders_restoresExactlyOn`: all the decoders.
-/

namespace Modbus

open Span

/-- A failed decode consumes nothing: the caller's span is what it was. -/
def Codec.RestoresOn {M : Type} (c : Codec M) (b : Bytes) : Prop := AtomicAt c.deserialize b

/-- That is so on the empty span, and where the span starts with a word of `L`. -/
def Codec.RestoresExactlyOn {M : Type} (c : Codec M) (L : Bytes → Prop) : Prop :=
  ∀ b, c.RestoresOn b ↔ b = [] ∨ StartsWith L b

/-- **Behind the function code nothing is given back.** -/
theorem Codec.Recognizes.restoresExactlyOn {M : Type} {c : Codec M} {L : Bytes → Prop}
    (h : c.Recognizes L) {f : UInt8 → Reader M} (hdecoder : c.deserialize = readBe UInt8 >>= f)
    (hf : ∀ functionCode, Takes (f functionCode)) : c.RestoresExactlyOn L := by
  intro b
  have hempty : (∃ e b', (readBe UInt8).run b = .error e b') ↔ b = [] := by
    constructor
    · intro h
      obtain ⟨e, b', hrun⟩ := h
      cases b with
      | nil => rfl
      | cons x b => cases hrun
    · rintro rfl
      exact ⟨_, _, rfl⟩
  have hshort : ∀ functionCode b', (readBe UInt8).run b = .ok functionCode b' →
      b'.length < b.length := by
    intro functionCode b' hrun
    rw [readBe_eq_ok.mp hrun, List.length_append, BigEndian.length_toBytes, size_uint8]
    omega
  rw [← h.exists_run, ← hempty, RestoresOn, hdecoder]
  exact atomicAt_bind_iff (atomicAt_readBe b) hshort hf

theorem RangeMessage.restoresExactlyOn (code : FunctionCode) (maxQty : UInt16) :
    (codec code maxQty).RestoresExactlyOn (WellFormed code maxQty) := by
  refine (recognizes code maxQty).restoresExactlyOn rfl (fun functionCode => ?_)
  refine (Takes.failIf _ _).bind (fun _ => ?_)
  refine takes_readBe.bind (fun address => takes_readBe.bind (fun quantity => ?_))
  exact Takes.lift _

theorem SingleMessage.restoresExactlyOn (kind : WriteKind) (code : FunctionCode) :
    (codec kind code).RestoresExactlyOn (WellFormed kind code) := by
  refine (recognizes kind code).restoresExactlyOn rfl (fun functionCode => ?_)
  refine (Takes.failIf _ _).bind (fun _ => ?_)
  refine takes_readBe.bind (fun address => takes_readBe.bind (fun rawValue => ?_))
  exact (Takes.lift _).bind (fun value => Takes.lift _)

theorem Request.WriteMultiple.restoresExactlyOn {kind : WriteKind} (code : FunctionCode)
    {maxQty : UInt16} (hfit : kind.payloadSize maxQty.toNat ≤ 255) :
    (codec kind code maxQty).RestoresExactlyOn (WellFormed kind code maxQty) := by
  refine (recognizes code hfit).restoresExactlyOn rfl (fun functionCode => ?_)
  refine (Takes.failIf _ _).bind (fun _ => ?_)
  refine takes_readBe.bind (fun address => takes_readBe.bind (fun quantity => ?_))
  refine (Takes.failIf _ _).bind (fun _ => (Takes.failIf _ _).bind (fun _ => ?_))
  refine takes_readBe.bind (fun byteCount => (Takes.failIf _ _).bind (fun _ => ?_))
  exact (takes_readValues kind _).bind (fun parsedValues => Takes.lift _)

theorem Response.ReadMultiple.restoresExactlyOn {kind : ReadKind} (code : FunctionCode)
    {maxQty : UInt16} (hfit : kind.payloadSize maxQty.toNat ≤ 255) (expectedQuantity : UInt16) :
    (codec kind code maxQty expectedQuantity).RestoresExactlyOn
      (WellFormed kind code maxQty expectedQuantity) := by
  refine (recognizes code hfit expectedQuantity).restoresExactlyOn rfl (fun functionCode => ?_)
  refine (Takes.failIf _ _).bind (fun _ => ?_)
  refine takes_readBe.bind (fun byteCount => ?_)
  exact (takes_readPayload kind _ _ _).bind (fun parsedValues => Takes.lift _)

/-- An error response is looked at as a whole. -/
theorem Response.ErrorResponse.restoresOn (b : Bytes) : codec.RestoresOn b := by
  intro e b' h
  change deserialize.run b = .error e b' at h
  match b, h with
  | [], h =>
    cases h
    rfl
  | [_], h =>
    cases h
    rfl
  | rawFc :: rawEc :: tail, h =>
    change (if _ then _ else _ : EStateM.Result ParseError Bytes ErrorResponse) = _ at h
    split at h
    · cases h
      rfl
    · split at h
      · cases h
        rfl
      · cases h

/-- **When a failed decode consumes nothing.**  For requests and responses: on the empty
span, and where the decode does not fail because the span starts with a well-formed message.
For error responses and frames: always. -/
theorem decoders_restoresExactlyOn (expectedQuantity : UInt16) (crc : CrcType) :
    ((RangeMessage.codec .kReadCoils 2000).RestoresExactlyOn
        (RangeMessage.WellFormed .kReadCoils 2000) ∧
      (RangeMessage.codec .kReadDiscreteInputs 2000).RestoresExactlyOn
        (RangeMessage.WellFormed .kReadDiscreteInputs 2000) ∧
      (RangeMessage.codec .kReadHoldingRegisters 125).RestoresExactlyOn
        (RangeMessage.WellFormed .kReadHoldingRegisters 125) ∧
      (RangeMessage.codec .kReadInputRegisters 125).RestoresExactlyOn
        (RangeMessage.WellFormed .kReadInputRegisters 125) ∧
      (SingleMessage.codec .coil .kWriteSingleCoil).RestoresExactlyOn
        (SingleMessage.WellFormed .coil .kWriteSingleCoil) ∧
      (SingleMessage.codec .register .kWriteSingleHoldingRegister).RestoresExactlyOn
        (SingleMessage.WellFormed .register .kWriteSingleHoldingRegister) ∧
      (Request.WriteMultiple.codec .coil .kWriteMultipleCoils 1968).RestoresExactlyOn
        (Request.WriteMultiple.WellFormed .coil .kWriteMultipleCoils 1968) ∧
      (Request.WriteMultiple.codec .register .kWriteMultipleHoldingRegisters 123).RestoresExactlyOn
        (Request.WriteMultiple.WellFormed .register .kWriteMultipleHoldingRegisters 123)) ∧
    ((Response.ReadMultiple.codec .coil .kReadCoils 2000 expectedQuantity).RestoresExactlyOn
        (Response.ReadMultiple.WellFormed .coil .kReadCoils 2000 expectedQuantity) ∧
      (Response.ReadMultiple.codec .discreteInput .kReadDiscreteInputs 2000
          expectedQuantity).RestoresExactlyOn
        (Response.ReadMultiple.WellFormed .discreteInput .kReadDiscreteInputs 2000
          expectedQuantity) ∧
      (Response.ReadMultiple.codec .register .kReadHoldingRegisters 125
          expectedQuantity).RestoresExactlyOn
        (Response.ReadMultiple.WellFormed .register .kReadHoldingRegisters 125
          expectedQuantity) ∧
      (Response.ReadMultiple.codec .register .kReadInputRegisters 125
          expectedQuantity).RestoresExactlyOn
        (Response.ReadMultiple.WellFormed .register .kReadInputRegisters 125
          expectedQuantity)) ∧
    ((SingleMessage.codec .coil .kWriteSingleCoil).RestoresExactlyOn
        (SingleMessage.WellFormed .coil .kWriteSingleCoil) ∧
      (SingleMessage.codec .register .kWriteSingleHoldingRegister).RestoresExactlyOn
        (SingleMessage.WellFormed .register .kWriteSingleHoldingRegister) ∧
      (RangeMessage.codec .kWriteMultipleCoils 1968).RestoresExactlyOn
        (RangeMessage.WellFormed .kWriteMultipleCoils 1968) ∧
      (RangeMessage.codec .kWriteMultipleHoldingRegisters 123).RestoresExactlyOn
        (RangeMessage.WellFormed .kWriteMultipleHoldingRegisters 123)) ∧
    (∀ b, Response.ErrorResponse.codec.RestoresOn b) ∧
    ∀ b, AtomicAt (RtuFrame.deserialize crc) b := by
  refine ⟨⟨?_, ?_, ?_, ?_, ?_, ?_, ?_, ?_⟩, ⟨?_, ?_, ?_, ?_⟩, ⟨?_, ?_, ?_, ?_⟩,
    Response.ErrorResponse.restoresOn, fun b e b' h => RtuFrame.deserialize_eq_error h⟩
  · exact RangeMessage.restoresExactlyOn _ _
  · exact RangeMessage.restoresExactlyOn _ _
  · exact RangeMessage.restoresExactlyOn _ _
  · exact RangeMessage.restoresExactlyOn _ _
  · exact SingleMessage.restoresExactlyOn _ _
  · exact SingleMessage.restoresExactlyOn _ _
  · exact Request.WriteMultiple.restoresExactlyOn _ payloadSize_writeCoils
  · exact Request.WriteMultiple.restoresExactlyOn _ payloadSize_writeRegisters
  · exact Response.ReadMultiple.restoresExactlyOn _ (by decide) _
  · exact Response.ReadMultiple.restoresExactlyOn _ (by decide) _
  · exact Response.ReadMultiple.restoresExactlyOn _ (by decide) _
  · exact Response.ReadMultiple.restoresExactlyOn _ (by decide) _
  · exact SingleMessage.restoresExactlyOn _ _
  · exact SingleMessage.restoresExactlyOn _ _
  · exact RangeMessage.restoresExactlyOn _ _
  · exact RangeMessage.restoresExactlyOn _ _

/-- A device that refuses to read coils answers with an error response.  The decoder of the
normal one takes its function code, and what is left is no error response any more. -/
theorem not_restoresOn_refusal :
    (Response.ReadMultiple.deserialize .coil .kReadCoils 2000 8).run [0x81, 0x02]
      = .error .kInvalidFunctionCode [0x02] ∧
    Response.ErrorResponse.deserialize.run [0x81, 0x02] = .ok ⟨.kReadCoils, ⟨0x02⟩⟩ [] ∧
    Response.ErrorResponse.deserialize.run [0x02] = .error .kBufferTooShort [0x02] ∧
    ¬ (Response.ReadMultiple.codec .coil .kReadCoils 2000 8).RestoresOn [0x81, 0x02] := by
  refine ⟨rfl, rfl, rfl, fun h => ?_⟩
  have := h .kInvalidFunctionCode [0x02] rfl
  cases this

end Modbus
