import Modbus.Canonical
import Modbus.RtuFrame

/-!
# `Serialize`

`Serialize` asks once whether there is room for the whole message, by a formula of its own,
and then ignores what each `WriteBe` returns.

* `Codec.SerializesExactly`: it fills in a whole message or nothing, and ignores no error.
* `messages_serialize_exactly`: that holds of every message type.
-/

namespace Modbus

open Span

/-- Without room for the encoded size of a message nothing is filled in, and the error is
`kBufferTooShort`; with room the message is, whatever was there, and nothing behind it. -/
def Codec.AllOrNothing {M : Type} (c : Codec M) : Prop :=
  ∀ m, ∃ bytes : Bytes, bytes.length = c.encodedSize m ∧
    FillsExactly (c.serialize m) .kBufferTooShort bytes

/-- `writeFields` is `Serialize` behind its check, with something done with the result of each
`WriteBe`.  To let an error out (`id`) comes to the same as to ignore it: there is none. -/
structure Codec.SerializesExactly {M : Type} (c : Codec M)
    (writeFields : (Writer → Writer) → M → Writer) : Prop where
  allOrNothing : c.AllOrNothing
  checked : ∀ m, c.serialize m
    = requireRoom (c.encodedSize m) .kBufferTooShort >>= fun _ => writeFields ignore m
  noError : ∀ m (buffer : Bytes),
    (requireRoom (c.encodedSize m) .kBufferTooShort >>= fun _ => writeFields id m).run
        (OutSpan.of buffer)
      = (c.serialize m).run (OutSpan.of buffer)

theorem Codec.serializesExactly_of {M : Type} {c : Codec M}
    {writeFields : (Writer → Writer) → M → Writer} (encode : M → Bytes)
    (hsize : ∀ m, (encode m).length = c.encodedSize m)
    (hchecked : ∀ m, c.serialize m
      = requireRoom (c.encodedSize m) .kBufferTooShort >>= fun _ => writeFields ignore m)
    (hwrites : ∀ {handle : Writer → Writer}, Harmless handle →
      ∀ m, Writes (writeFields handle m) (encode m)) : c.SerializesExactly writeFields := by
  have hfills : ∀ {handle : Writer → Writer}, Harmless handle → ∀ m, FillsExactly
      (requireRoom (c.encodedSize m) .kBufferTooShort >>= fun _ => writeFields handle m)
      .kBufferTooShort (encode m) :=
    fun hhandle m => (hwrites hhandle m).fillsExactly (hsize m) _
  refine ⟨fun m => ⟨encode m, hsize m, ?_⟩, hchecked, fun m buffer => ?_⟩
  · rw [hchecked]
    exact hfills harmless_ignore m
  · rw [hchecked]
    exact (hfills harmless_id m buffer).trans (hfills harmless_ignore m buffer).symm

/-! ### Each template -/

theorem RangeMessage.serializesExactly (code : FunctionCode) (maxQty : UInt16) :
    (codec code maxQty).SerializesExactly writeFields :=
  Codec.serializesExactly_of encode length_encode (fun _ => rfl) writes_writeFields

theorem SingleMessage.serializesExactly (kind : WriteKind) (code : FunctionCode) :
    (codec kind code).SerializesExactly writeFields :=
  Codec.serializesExactly_of encode length_encode (fun _ => rfl) writes_writeFields

theorem Request.WriteMultiple.serializesExactly {kind : WriteKind} (code : FunctionCode)
    {maxQty : UInt16} (hfit : kind.payloadSize maxQty.toNat ≤ 255) :
    (codec kind code maxQty).SerializesExactly writeFields :=
  Codec.serializesExactly_of encode (length_encode hfit) serialize_eq (writes_writeFields hfit)

theorem Response.ReadMultiple.serializesExactly {kind : ReadKind} (code : FunctionCode)
    {maxQty : UInt16} (hfit : kind.payloadSize maxQty.toNat ≤ 255) (expectedQuantity : UInt16) :
    (codec kind code maxQty expectedQuantity).SerializesExactly writeFields :=
  Codec.serializesExactly_of encode (length_encode hfit) serialize_eq writes_writeFields

/-- An error response has no results to ignore: its bytes are assigned. -/
theorem Response.ErrorResponse.allOrNothing : codec.AllOrNothing := fun m =>
  ⟨m.encode, rfl, ((writes_writeBe (toErrorFunctionCode m.functionCode.raw)).then
    (writes_writeBe m.exceptionCode.raw)).fillsExactly rfl _⟩

/-! ### All of them -/

/-- **`Serialize` is all or nothing, and exact.** -/
theorem messages_serialize_exactly (expectedQuantity : UInt16) (crc : CrcType) :
    ((RangeMessage.codec .kReadCoils 2000).SerializesExactly RangeMessage.writeFields ∧
      (RangeMessage.codec .kReadDiscreteInputs 2000).SerializesExactly
        RangeMessage.writeFields ∧
      (RangeMessage.codec .kReadHoldingRegisters 125).SerializesExactly
        RangeMessage.writeFields ∧
      (RangeMessage.codec .kReadInputRegisters 125).SerializesExactly RangeMessage.writeFields ∧
      (SingleMessage.codec .coil .kWriteSingleCoil).SerializesExactly SingleMessage.writeFields ∧
      (SingleMessage.codec .register .kWriteSingleHoldingRegister).SerializesExactly
        SingleMessage.writeFields ∧
      (Request.WriteMultiple.codec .coil .kWriteMultipleCoils 1968).SerializesExactly
        Request.WriteMultiple.writeFields ∧
      (Request.WriteMultiple.codec .register .kWriteMultipleHoldingRegisters
        123).SerializesExactly Request.WriteMultiple.writeFields) ∧
    ((Response.ReadMultiple.codec .coil .kReadCoils 2000 expectedQuantity).SerializesExactly
        Response.ReadMultiple.writeFields ∧
      (Response.ReadMultiple.codec .discreteInput .kReadDiscreteInputs 2000
        expectedQuantity).SerializesExactly Response.ReadMultiple.writeFields ∧
      (Response.ReadMultiple.codec .register .kReadHoldingRegisters 125
        expectedQuantity).SerializesExactly Response.ReadMultiple.writeFields ∧
      (Response.ReadMultiple.codec .register .kReadInputRegisters 125
        expectedQuantity).SerializesExactly Response.ReadMultiple.writeFields) ∧
    ((SingleMessage.codec .coil .kWriteSingleCoil).SerializesExactly SingleMessage.writeFields ∧
      (SingleMessage.codec .register .kWriteSingleHoldingRegister).SerializesExactly
        SingleMessage.writeFields ∧
      (RangeMessage.codec .kWriteMultipleCoils 1968).SerializesExactly
        RangeMessage.writeFields ∧
      (RangeMessage.codec .kWriteMultipleHoldingRegisters 123).SerializesExactly
        RangeMessage.writeFields) ∧
    Response.ErrorResponse.codec.AllOrNothing ∧
    ∀ frame : RtuFrame, ∃ bytes, RtuFrame.SerializesTo crc frame bytes := by
  refine ⟨⟨?_, ?_, ?_, ?_, ?_, ?_, ?_, ?_⟩, ⟨?_, ?_, ?_, ?_⟩, ⟨?_, ?_, ?_, ?_⟩,
    Response.ErrorResponse.allOrNothing, fun frame => ⟨_, RtuFrame.serializesTo_iff.mpr rfl⟩⟩
  · exact RangeMessage.serializesExactly _ _
  · exact RangeMessage.serializesExactly _ _
  · exact RangeMessage.serializesExactly _ _
  · exact RangeMessage.serializesExactly _ _
  · exact SingleMessage.serializesExactly _ _
  · exact SingleMessage.serializesExactly _ _
  · exact Request.WriteMultiple.serializesExactly _ payloadSize_writeCoils
  · exact Request.WriteMultiple.serializesExactly _ payloadSize_writeRegisters
  · exact Response.ReadMultiple.serializesExactly _ (by decide) _
  · exact Response.ReadMultiple.serializesExactly _ (by decide) _
  · exact Response.ReadMultiple.serializesExactly _ (by decide) _
  · exact Response.ReadMultiple.serializesExactly _ (by decide) _
  · exact SingleMessage.serializesExactly _ _
  · exact SingleMessage.serializesExactly _ _
  · exact RangeMessage.serializesExactly _ _
  · exact RangeMessage.serializesExactly _ _

end Modbus
