import Modbus.WellFormed

/-!
# Messages that are cut off

A decoder checks a field as soon as it has read it, so what it makes of the front of a span
does not depend on what comes behind.  The encoding of a message passes all checks, and a
piece of it passes those that it gets to.

* `Codec.reportsTruncation_of`: so a piece can only be too short.
* `messages_report_truncation`: that holds of every message.
-/

namespace Modbus

open Span

/-- The encoding of `m`, as many bytes as its encoded size, is what `Serialize` writes; of
anything less of it the decoder says that it is too short. -/
def Codec.ReportsTruncation {M : Type} (c : Codec M) (m : M) : Prop :=
  ∃ bytes : Bytes, bytes.length = c.encodedSize m ∧ Writes (c.serialize m) bytes ∧
    ∀ k < c.encodedSize m, ∃ left,
      c.deserialize.run (bytes.take k) = .error .kBufferTooShort left

theorem Codec.reportsTruncation_of {M : Type} {c : Codec M} {m m' : M} {bytes : Bytes}
    (hsize : bytes.length = c.encodedSize m) (hserialize : Writes (c.serialize m) bytes)
    (hstreams : Streams .kBufferTooShort c.deserialize)
    (hrun : c.deserialize.run bytes = .ok m' []) : c.ReportsTruncation m :=
  ⟨bytes, hsize, hserialize, fun _ hk => hstreams.run_take hrun (by rwa [hsize])⟩

/-! ### Each decoder -/

theorem RangeMessage.streams_deserialize (code : FunctionCode) (maxQty : UInt16) :
    Streams .kBufferTooShort (deserialize code maxQty) := by
  refine streams_readBe.bind (fun functionCode => (Streams.failIf _ _).bind (fun _ => ?_))
  refine streams_readBe.bind (fun address => streams_readBe.bind (fun quantity => ?_))
  exact Streams.lift _

theorem SingleMessage.streams_deserialize (kind : WriteKind) (code : FunctionCode) :
    Streams .kBufferTooShort (deserialize kind code) := by
  refine streams_readBe.bind (fun functionCode => (Streams.failIf _ _).bind (fun _ => ?_))
  refine streams_readBe.bind (fun address => streams_readBe.bind (fun rawValue => ?_))
  exact (Streams.lift _).bind (fun value => Streams.lift _)

theorem Request.WriteMultiple.streams_deserialize (kind : WriteKind) (code : FunctionCode)
    (maxQty : UInt16) : Streams .kBufferTooShort (deserialize kind code maxQty) := by
  refine streams_readBe.bind (fun functionCode => (Streams.failIf _ _).bind (fun _ => ?_))
  refine streams_readBe.bind (fun address => streams_readBe.bind (fun quantity => ?_))
  refine (Streams.failIf _ _).bind (fun _ => (Streams.failIf _ _).bind (fun _ => ?_))
  refine streams_readBe.bind (fun byteCount => (Streams.failIf _ _).bind (fun _ => ?_))
  exact (streams_readValues kind _).bind (fun parsedValues => Streams.lift _)

theorem Response.ReadMultiple.streams_deserialize (kind : ReadKind) (code : FunctionCode)
    (maxQty expectedQuantity : UInt16) :
    Streams .kBufferTooShort (deserialize kind code maxQty expectedQuantity) := by
  refine streams_readBe.bind (fun functionCode => (Streams.failIf _ _).bind (fun _ => ?_))
  refine streams_readBe.bind (fun byteCount => ?_)
  exact (streams_readPayload kind _ _ _).bind (fun parsedValues => Streams.lift _)

/-! ### Each template -/

theorem RangeMessage.reportsTruncation {code : FunctionCode} {maxQty : UInt16}
    (m : RangeMessage code maxQty) : (codec code maxQty).ReportsTruncation m := by
  have hrun : (deserialize code maxQty).run m.encode = .ok m [] :=
    deserialize_eq_ok.mpr (List.append_nil _).symm
  exact Codec.reportsTruncation_of m.length_encode m.writes_serialize
    (streams_deserialize code maxQty) hrun

theorem SingleMessage.reportsTruncation {kind : WriteKind} {code : FunctionCode}
    (m : SingleMessage kind code) : (codec kind code).ReportsTruncation m := by
  have hrun : (deserialize kind code).run m.encode = .ok m [] :=
    deserialize_eq_ok.mpr (List.append_nil _).symm
  exact Codec.reportsTruncation_of m.length_encode m.writes_serialize
    (streams_deserialize kind code) hrun

theorem Request.WriteMultiple.reportsTruncation {kind : WriteKind} {code : FunctionCode}
    {maxQty : UInt16} (hfit : kind.payloadSize maxQty.toNat ≤ 255)
    (m : WriteMultiple kind code maxQty) : (codec kind code maxQty).ReportsTruncation m := by
  have hrun := m.deserialize_encode []
  rw [List.append_nil] at hrun
  exact Codec.reportsTruncation_of (m.length_encode hfit) (m.writes_serialize hfit)
    (streams_deserialize kind code maxQty) hrun

/-- The encoding of a response is well formed for a caller who expects as many values, also
when they are values that come back as others. -/
theorem Response.ReadMultiple.wellFormed_encode {kind : ReadKind} {code : FunctionCode}
    {maxQty : UInt16} (hfit : kind.payloadSize maxQty.toNat ≤ 255)
    (m : ReadMultiple kind code maxQty) : WellFormed kind code maxQty m.getQuantity m.encode := by
  have hone : kMinQuantity.toNat = 1 := rfl
  have hq := m.quantity_ok
  have hcount := m.toNat_getByteCount hfit
  have hexp : kind.AsExpected m.getQuantity m.values.length := by
    cases kind <;> simp [ReadKind.AsExpected]
  refine ⟨m.getByteCount, kind.encodeValues m.values, rfl, ?_, ?_⟩
  · exact ReadKind.expects_iff.mpr ⟨m.values.length, hcount, by omega, by omega, hexp⟩
  · rw [ReadKind.length_encodeValues, hcount]

theorem Response.ReadMultiple.reportsTruncation {kind : ReadKind} {code : FunctionCode}
    {maxQty : UInt16} (hfit : kind.payloadSize maxQty.toNat ≤ 255)
    (m : ReadMultiple kind code maxQty) :
    (codec kind code maxQty m.getQuantity).ReportsTruncation m := by
  obtain ⟨m', _, hrun⟩ := (recognizes code hfit m.getQuantity).accepts _ (m.wellFormed_encode hfit)
  have hwhole := hrun []
  rw [List.append_nil] at hwhole
  exact Codec.reportsTruncation_of (m.length_encode hfit) (m.writes_serialize hfit)
    (streams_deserialize kind code maxQty m.getQuantity) hwhole

theorem Response.ErrorResponse.reportsTruncation (m : ErrorResponse) :
    codec.ReportsTruncation m := by
  refine ⟨m.encode, rfl, m.writes_serialize, fun k hk => ⟨_, run_deserialize_of_lt ?_⟩⟩
  rw [List.length_take]
  exact (Nat.min_le_left _ _).trans_lt hk

/-! ### All of them -/

/-- **Truncation is reported as such**, wherever a message is cut off. -/
theorem messages_report_truncation :
    ((∀ m : Request.ReadCoils, (RangeMessage.codec _ _).ReportsTruncation m) ∧
      (∀ m : Request.ReadDiscreteInputs, (RangeMessage.codec _ _).ReportsTruncation m) ∧
      (∀ m : Request.ReadHoldingRegisters, (RangeMessage.codec _ _).ReportsTruncation m) ∧
      (∀ m : Request.ReadInputRegisters, (RangeMessage.codec _ _).ReportsTruncation m) ∧
      (∀ m : Request.WriteSingleCoil, (SingleMessage.codec _ _).ReportsTruncation m) ∧
      (∀ m : Request.WriteSingleHoldingRegister, (SingleMessage.codec _ _).ReportsTruncation m) ∧
      (∀ m : Request.WriteMultipleCoils,
        (Request.WriteMultiple.codec _ _ _).ReportsTruncation m) ∧
      (∀ m : Request.WriteMultipleHoldingRegisters,
        (Request.WriteMultiple.codec _ _ _).ReportsTruncation m)) ∧
    ((∀ m : Response.ReadCoils,
        (Response.ReadMultiple.codec _ _ _ m.getQuantity).ReportsTruncation m) ∧
      (∀ m : Response.ReadDiscreteInputs,
        (Response.ReadMultiple.codec _ _ _ m.getQuantity).ReportsTruncation m) ∧
      (∀ m : Response.ReadHoldingRegisters,
        (Response.ReadMultiple.codec _ _ _ m.getQuantity).ReportsTruncation m) ∧
      (∀ m : Response.ReadInputRegisters,
        (Response.ReadMultiple.codec _ _ _ m.getQuantity).ReportsTruncation m)) ∧
    ((∀ m : Response.WriteSingleCoil, (SingleMessage.codec _ _).ReportsTruncation m) ∧
      (∀ m : Response.WriteSingleHoldingRegister, (SingleMessage.codec _ _).ReportsTruncation m) ∧
      (∀ m : Response.WriteMultipleCoils, (RangeMessage.codec _ _).ReportsTruncation m) ∧
      (∀ m : Response.WriteMultipleHoldingRegisters,
        (RangeMessage.codec _ _).ReportsTruncation m)) ∧
    ∀ m : Response.ErrorResponse, Response.ErrorResponse.codec.ReportsTruncation m := by
  refine ⟨⟨?_, ?_, ?_, ?_, ?_, ?_, ?_, ?_⟩, ⟨?_, ?_, ?_, ?_⟩, ⟨?_, ?_, ?_, ?_⟩,
    Response.ErrorResponse.reportsTruncation⟩
  · exact RangeMessage.reportsTruncation
  · exact RangeMessage.reportsTruncation
  · exact RangeMessage.reportsTruncation
  · exact RangeMessage.reportsTruncation
  · exact SingleMessage.reportsTruncation
  · exact SingleMessage.reportsTruncation
  · exact Request.WriteMultiple.reportsTruncation payloadSize_writeCoils
  · exact Request.WriteMultiple.reportsTruncation payloadSize_writeRegisters
  · exact Response.ReadMultiple.reportsTruncation (by decide)
  · exact Response.ReadMultiple.reportsTruncation (by decide)
  · exact Response.ReadMultiple.reportsTruncation (by decide)
  · exact Response.ReadMultiple.reportsTruncation (by decide)
  · exact SingleMessage.reportsTruncation
  · exact SingleMessage.reportsTruncation
  · exact RangeMessage.reportsTruncation
  · exact RangeMessage.reportsTruncation

end Modbus
