import Modbus.Messages

/-!
# What decoders accept

A decoder is sound when it only returns messages that `Create` would return, and canonical
when it reads each of them off one encoding.  Here it is one up to padding: bits fill up
their last byte, and what is left over in it is not looked at.

* `Codec.canonical_of`: it comes down to what the decoder accepts.
* `decoders_canonical`: all of them are.
-/

namespace Modbus

open Span

/-- A decoder, and what its messages have. -/
structure Codec (M : Type) where
  deserialize : Reader M
  /-- `Create`, given the fields of a message. -/
  recreate : M → Except ParseError M
  serialize : M → Writer
  encodedSize : M → Nat
  /-- The bytes of a message with its padding cleared. -/
  clearPadding : M → Bytes → Bytes

namespace Codec

variable {M : Type}

/-- A message that is accepted has fields that `Create` accepts; the bytes consumed are as
many as its encoded size, and they are what `Serialize` writes, up to padding.  What else
decodes to it starts with the same bytes, up to padding. -/
def Canonical (c : Codec M) : Prop :=
  ∀ b m rest, c.deserialize.run b = .ok m rest →
    c.recreate m = .ok m ∧ ∃ consumed, b = consumed ++ rest ∧
      consumed.length = c.encodedSize m ∧
      (c.clearPadding m consumed).length = c.encodedSize m ∧
      Writes (c.serialize m) (c.clearPadding m consumed) ∧
      ∀ b' rest', c.deserialize.run b' = .ok m rest' →
        ∃ consumed', b' = consumed' ++ rest' ∧ consumed'.length = c.encodedSize m ∧
          c.clearPadding m consumed' = c.clearPadding m consumed

theorem canonical_of {c : Codec M} (encode : M → Bytes)
    (hcreate : ∀ m, c.recreate m = .ok m)
    (hsize : ∀ m, (encode m).length = c.encodedSize m)
    (hserialize : ∀ m, Writes (c.serialize m) (encode m))
    (hdeserialize : ∀ b m rest, c.deserialize.run b = .ok m rest →
      ∃ consumed, b = consumed ++ rest ∧ consumed.length = c.encodedSize m ∧
        c.clearPadding m consumed = encode m) : c.Canonical := by
  intro b m rest h
  obtain ⟨consumed, hb, hlen, hclear⟩ := hdeserialize b m rest h
  refine ⟨hcreate m, consumed, hb, hlen, by rw [hclear, hsize], by rw [hclear]; exact hserialize m,
    fun b' rest' h' => ?_⟩
  obtain ⟨consumed', hb', hlen', hclear'⟩ := hdeserialize b' m rest' h'
  exact ⟨consumed', hb', hlen', hclear'.trans hclear.symm⟩

end Codec

/-! ### Messages of a fixed size -/

def RangeMessage.codec (code : FunctionCode) (maxQty : UInt16) :
    Codec (RangeMessage code maxQty) where
  deserialize := deserialize code maxQty
  recreate m := create code maxQty m.address m.quantity
  serialize := serialize
  encodedSize _ := kEncodedSize
  clearPadding _ bytes := bytes

def SingleMessage.codec (kind : WriteKind) (code : FunctionCode) :
    Codec (SingleMessage kind code) where
  deserialize := deserialize kind code
  recreate m := create kind code m.address m.value
  serialize := serialize
  encodedSize _ := kEncodedSize
  clearPadding _ bytes := bytes

def Response.ErrorResponse.codec : Codec ErrorResponse where
  deserialize := deserialize
  recreate m := create m.functionCode m.exceptionCode
  serialize := serialize
  encodedSize _ := kEncodedSize
  clearPadding _ bytes := bytes

theorem RangeMessage.canonical (code : FunctionCode) (maxQty : UInt16) :
    (codec code maxQty).Canonical :=
  Codec.canonical_of encode (fun _ => create_eq_ok.mpr ⟨rfl, rfl⟩) (fun _ => rfl) writes_serialize
    (fun _ m _ h => ⟨m.encode, deserialize_eq_ok.mp h, rfl, rfl⟩)

theorem SingleMessage.canonical (kind : WriteKind) (code : FunctionCode) :
    (codec kind code).Canonical :=
  Codec.canonical_of encode (fun _ => create_eq_ok.mpr ⟨rfl, rfl⟩) (fun _ => rfl) writes_serialize
    (fun _ m _ h => ⟨m.encode, deserialize_eq_ok.mp h, rfl, rfl⟩)

def Response.ErrorResponse.encode (m : ErrorResponse) : Bytes :=
  [toErrorFunctionCode m.functionCode.raw, m.exceptionCode.raw]

theorem Response.ErrorResponse.writes_serialize (m : ErrorResponse) :
    Writes m.serialize m.encode :=
  ((writes_writeBe (toErrorFunctionCode m.functionCode.raw)).then
    (writes_writeBe m.exceptionCode.raw)).requireRoom (Nat.le_refl _) _

theorem Response.ErrorResponse.canonical : codec.Canonical := by
  refine Codec.canonical_of encode (fun _ => rfl) (fun _ => rfl) writes_serialize
    (fun b m rest h => ?_)
  obtain ⟨rawFc, rawEc, rfl, hfc, _, rfl⟩ := deserialize_eq_ok.mp h
  have hcode := toErrorFunctionCode_toNormal rawFc.toBitVec hfc
  exact ⟨[rawFc, rawEc], rfl, rfl, congrArg (fun code => [code, rawEc]) hcode.symm⟩

/-! ### Messages with values

Bits are preceded by a header of whole bytes, so what is cleared starts that many bits
later. -/

def Request.WriteMultiple.codec (kind : WriteKind) (code : FunctionCode) (maxQty : UInt16) :
    Codec (WriteMultiple kind code maxQty) where
  deserialize := deserialize kind code maxQty
  recreate m := create kind code maxQty m.address m.values
  serialize := serialize
  encodedSize := getEncodedSize
  clearPadding m bytes := kind.clearPadding (8 * 6 + m.values.length) bytes

def Response.ReadMultiple.codec (kind : ReadKind) (code : FunctionCode)
    (maxQty expectedQuantity : UInt16) : Codec (ReadMultiple kind code maxQty) where
  deserialize := deserialize kind code maxQty expectedQuantity
  recreate m := create kind code maxQty m.values
  serialize := serialize
  encodedSize := getEncodedSize
  clearPadding m bytes := kind.clearPadding (8 * 2 + m.values.length) bytes

theorem Request.WriteMultiple.canonical {kind : WriteKind} (code : FunctionCode) {maxQty : UInt16}
    (hfit : kind.payloadSize maxQty.toNat ≤ 255) : (codec kind code maxQty).Canonical := by
  refine Codec.canonical_of encode (fun _ => create_eq_ok.mpr ⟨rfl, rfl⟩) (length_encode hfit)
    (writes_serialize hfit) (fun b m rest h => ?_)
  obtain ⟨payload, rfl, hdec⟩ := deserialize_eq_ok.mp h
  have hvalues := hdec.encodeValues_eq
  refine ⟨m.header ++ payload, (List.append_assoc _ _ _).symm, ?_, ?_⟩
  · show (m.header ++ payload).length = m.getEncodedSize
    rw [← m.length_encode hfit, encode, hvalues, List.length_append, List.length_append,
      WriteKind.length_clearPadding]
  · show kind.clearPadding (8 * m.header.length + m.values.length) (m.header ++ payload) = m.encode
    rw [WriteKind.clearPadding_append, ← hvalues, encode]

theorem Response.ReadMultiple.canonical {kind : ReadKind} (code : FunctionCode) {maxQty : UInt16}
    (hfit : kind.payloadSize maxQty.toNat ≤ 255) (expectedQuantity : UInt16) :
    (codec kind code maxQty expectedQuantity).Canonical := by
  refine Codec.canonical_of encode (fun _ => create_eq_ok.mpr rfl) (length_encode hfit)
    (writes_serialize hfit) (fun b m rest h => ?_)
  obtain ⟨byteCount, payload, rfl, hlen, _, hdec⟩ := deserialize_eq_ok.mp h
  have hvalues := hdec.encodeValues_eq
  -- the byte count is the one that the values ask for
  have hcount : byteCount = m.getByteCount := UInt8.toNat_inj.mp (by
    rw [m.toNat_getByteCount hfit, ← hdec.length_payload, hlen])
  refine ⟨[code.raw, byteCount] ++ payload, rfl, ?_, ?_⟩
  · show ([code.raw, byteCount] ++ payload).length = m.getEncodedSize
    rw [getEncodedSize, ← hcount, ← hlen, List.length_append]
    rfl
  · show kind.clearPadding (8 * [code.raw, byteCount].length + m.values.length)
      ([code.raw, byteCount] ++ payload) = m.encode
    rw [ReadKind.clearPadding_append, ← hvalues, hcount, encode]
    rfl

/-! ### All of them -/

/-- **Every decoder is sound and canonical.** -/
theorem decoders_canonical :
    ((RangeMessage.codec .kReadCoils 2000).Canonical ∧
      (RangeMessage.codec .kReadDiscreteInputs 2000).Canonical ∧
      (RangeMessage.codec .kReadHoldingRegisters 125).Canonical ∧
      (RangeMessage.codec .kReadInputRegisters 125).Canonical ∧
      (SingleMessage.codec .coil .kWriteSingleCoil).Canonical ∧
      (SingleMessage.codec .register .kWriteSingleHoldingRegister).Canonical ∧
      (Request.WriteMultiple.codec .coil .kWriteMultipleCoils 1968).Canonical ∧
      (Request.WriteMultiple.codec .register .kWriteMultipleHoldingRegisters 123).Canonical) ∧
    (∀ expectedQuantity : UInt16,
      (Response.ReadMultiple.codec .coil .kReadCoils 2000 expectedQuantity).Canonical ∧
      (Response.ReadMultiple.codec .discreteInput .kReadDiscreteInputs 2000
        expectedQuantity).Canonical ∧
      (Response.ReadMultiple.codec .register .kReadHoldingRegisters 125
        expectedQuantity).Canonical ∧
      (Response.ReadMultiple.codec .register .kReadInputRegisters 125
        expectedQuantity).Canonical) ∧
    ((SingleMessage.codec .coil .kWriteSingleCoil).Canonical ∧
      (SingleMessage.codec .register .kWriteSingleHoldingRegister).Canonical ∧
      (RangeMessage.codec .kWriteMultipleCoils 1968).Canonical ∧
      (RangeMessage.codec .kWriteMultipleHoldingRegisters 123).Canonical) ∧
    Response.ErrorResponse.codec.Canonical := by
  refine ⟨⟨?_, ?_, ?_, ?_, ?_, ?_, ?_, ?_⟩, fun expectedQuantity => ⟨?_, ?_, ?_, ?_⟩,
    ⟨?_, ?_, ?_, ?_⟩, Response.ErrorResponse.canonical⟩
  · exact RangeMessage.canonical _ _
  · exact RangeMessage.canonical _ _
  · exact RangeMessage.canonical _ _
  · exact RangeMessage.canonical _ _
  · exact SingleMessage.canonical _ _
  · exact SingleMessage.canonical _ _
  · exact Request.WriteMultiple.canonical _ payloadSize_writeCoils
  · exact Request.WriteMultiple.canonical _ payloadSize_writeRegisters
  · exact Response.ReadMultiple.canonical _ (by decide) _
  · exact Response.ReadMultiple.canonical _ (by decide) _
  · exact Response.ReadMultiple.canonical _ (by decide) _
  · exact Response.ReadMultiple.canonical _ (by decide) _
  · exact SingleMessage.canonical _ _
  · exact SingleMessage.canonical _ _
  · exact RangeMessage.canonical _ _
  · exact RangeMessage.canonical _ _

end Modbus
