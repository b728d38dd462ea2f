import Modbus.Message.Range
import Modbus.Message.Single
import Modbus.Request.WriteMultiple
import Modbus.Response.Error
import Modbus.Response.ReadMultiple

/-!
# The message types

The eight requests and the eight responses, each a template at the function code
and the largest quantity that its header gives, and the limits of each template
that its encoding relies on.

* `requests_and_confirmations_round_trip`: every request and every answer to a
  write is read back from its own bytes, whatever comes after them.
* `read_responses_round_trip_iff`: so is an answer to a read, unless it holds a coil or
  an input that its type does not name.
-/

namespace Modbus

open Span

/-! ### Requests -/

namespace Request

abbrev ReadCoils := RangeMessage .kReadCoils 2000
abbrev ReadDiscreteInputs := RangeMessage .kReadDiscreteInputs 2000
abbrev ReadHoldingRegisters := RangeMessage .kReadHoldingRegisters 125
abbrev ReadInputRegisters := RangeMessage .kReadInputRegisters 125
abbrev WriteSingleCoil := SingleMessage .coil .kWriteSingleCoil
abbrev WriteSingleHoldingRegister := SingleMessage .register .kWriteSingleHoldingRegister
abbrev WriteMultipleCoils := WriteMultiple .coil .kWriteMultipleCoils 1968
abbrev WriteMultipleHoldingRegisters :=
  WriteMultiple .register .kWriteMultipleHoldingRegisters 123

end Request

/-! ### Responses -/

namespace Response

abbrev ReadCoils := ReadMultiple .coil .kReadCoils 2000
abbrev ReadDiscreteInputs := ReadMultiple .discreteInput .kReadDiscreteInputs 2000
abbrev ReadHoldingRegisters := ReadMultiple .register .kReadHoldingRegisters 125
abbrev ReadInputRegisters := ReadMultiple .register .kReadInputRegisters 125
abbrev WriteSingleCoil := SingleMessage .coil .kWriteSingleCoil
abbrev WriteSingleHoldingRegister := SingleMessage .register .kWriteSingleHoldingRegister
abbrev WriteMultipleCoils := RangeMessage .kWriteMultipleCoils 1968
abbrev WriteMultipleHoldingRegisters := RangeMessage .kWriteMultipleHoldingRegisters 123

end Response

/-! ### Byte counts fit in a byte -/

theorem payloadSize_writeCoils : WriteKind.coil.payloadSize (1968 : UInt16).toNat ≤ 255 := by decide

theorem payloadSize_writeRegisters : WriteKind.register.payloadSize (123 : UInt16).toNat ≤ 255 := by
  decide

/-! ### Messages that are decoded on their own -/

/-- A message class: what its `Create` takes, and what its accessors return. -/
class Message (M : Type) where
  Args : Type
  create : Args → Except ParseError M
  deserialize : Reader M
  serialize : M → Writer
  encodedSize : M → Nat
  Carries : M → Args → Prop

instance (code : FunctionCode) (maxQty : UInt16) : Message (RangeMessage code maxQty) where
  Args := UInt16 × UInt16
  create a := RangeMessage.create code maxQty a.1 a.2
  deserialize := RangeMessage.deserialize code maxQty
  serialize := RangeMessage.serialize
  encodedSize _ := RangeMessage.kEncodedSize
  Carries m a := m.address = a.1 ∧ m.quantity = a.2

instance (kind : WriteKind) (code : FunctionCode) : Message (SingleMessage kind code) where
  Args := UInt16 × kind.T
  create a := SingleMessage.create kind code a.1 a.2
  deserialize := SingleMessage.deserialize kind code
  serialize := SingleMessage.serialize
  encodedSize _ := SingleMessage.kEncodedSize
  Carries m a := m.address = a.1 ∧ m.value = a.2

instance (kind : WriteKind) (code : FunctionCode) (maxQty : UInt16) :
    Message (Request.WriteMultiple kind code maxQty) where
  Args := UInt16 × List kind.T
  create a := Request.WriteMultiple.create kind code maxQty a.1 a.2
  deserialize := Request.WriteMultiple.deserialize kind code maxQty
  serialize := Request.WriteMultiple.serialize
  encodedSize := Request.WriteMultiple.getEncodedSize
  Carries m a := m.address = a.1 ∧ m.getQuantity.toNat = a.2.length ∧ m.values = a.2

namespace Message

/-- What `Create` accepts is written into every buffer with room for it, and from
the bytes written, and any `t` after them, `Deserialize` returns a message with the
same fields and leaves `t`. -/
def RoundTrips (M : Type) [Message M] : Prop :=
  ∀ (a : Args M) (m : M), create a = .ok m → ∀ buffer : Bytes, encodedSize m ≤ buffer.length →
    ∃ written rest, (serialize m).run (OutSpan.of buffer) = .ok () ⟨written, rest⟩ ∧
      ∀ t : Bytes, ∃ m' : M, (deserialize : Reader M).run (written ++ t) = .ok m' t ∧ Carries m' a

theorem roundTrips_of {M : Type} [Message M] (encode : M → Bytes)
    (hcreate : ∀ (a : Args M) (m : M), create a = .ok m → Carries m a)
    (hsize : ∀ m, (encode m).length = encodedSize m)
    (hserialize : ∀ m, Writes (serialize m) (encode m))
    (hdeserialize : ∀ (m : M) (t : Bytes), (deserialize : Reader M).run (encode m ++ t) = .ok m t) :
    RoundTrips M := by
  intro a m ha buffer hroom
  refine ⟨encode m, buffer.drop (encode m).length, ?_,
    fun t => ⟨m, hdeserialize m t, hcreate a m ha⟩⟩
  exact hserialize m [] buffer (by rw [hsize]; exact hroom)

theorem roundTrips_range (code : FunctionCode) (maxQty : UInt16) :
    RoundTrips (RangeMessage code maxQty) := by
  refine roundTrips_of RangeMessage.encode (fun a m h => ?_) (fun _ => rfl)
    RangeMessage.writes_serialize (fun m t => RangeMessage.deserialize_eq_ok.mpr rfl)
  obtain ⟨ha, hq⟩ := RangeMessage.create_eq_ok.mp h
  exact ⟨ha.symm, hq.symm⟩

theorem roundTrips_single (kind : WriteKind) (code : FunctionCode) :
    RoundTrips (SingleMessage kind code) := by
  refine roundTrips_of SingleMessage.encode (fun a m h => ?_) (fun _ => rfl)
    SingleMessage.writes_serialize (fun m t => SingleMessage.deserialize_eq_ok.mpr rfl)
  obtain ⟨ha, hv⟩ := SingleMessage.create_eq_ok.mp h
  exact ⟨ha.symm, hv.symm⟩

theorem roundTrips_multiple {kind : WriteKind} (code : FunctionCode) {maxQty : UInt16}
    (hfit : kind.payloadSize maxQty.toNat ≤ 255) :
    RoundTrips (Request.WriteMultiple kind code maxQty) := by
  refine roundTrips_of Request.WriteMultiple.encode (fun a m h => ?_)
    (Request.WriteMultiple.length_encode hfit) (Request.WriteMultiple.writes_serialize hfit)
    Request.WriteMultiple.deserialize_encode
  obtain ⟨ha, hv⟩ := Request.WriteMultiple.create_eq_ok.mp h
  exact ⟨ha.symm, by rw [Request.WriteMultiple.toNat_getQuantity, hv], hv.symm⟩

/-- **The eight requests and the four answers to a write round trip.** -/
theorem requests_and_confirmations_round_trip :
    (RoundTrips Request.ReadCoils ∧ RoundTrips Request.ReadDiscreteInputs ∧
      RoundTrips Request.ReadHoldingRegisters ∧ RoundTrips Request.ReadInputRegisters) ∧
    (RoundTrips Request.WriteSingleCoil ∧ RoundTrips Request.WriteSingleHoldingRegister ∧
      RoundTrips Request.WriteMultipleCoils ∧ RoundTrips Request.WriteMultipleHoldingRegisters) ∧
    (RoundTrips Response.WriteSingleCoil ∧ RoundTrips Response.WriteSingleHoldingRegister ∧
      RoundTrips Response.WriteMultipleCoils ∧
      RoundTrips Response.WriteMultipleHoldingRegisters) :=
  ⟨⟨roundTrips_range _ _, roundTrips_range _ _, roundTrips_range _ _, roundTrips_range _ _⟩,
    ⟨roundTrips_single _ _, roundTrips_single _ _, roundTrips_multiple _ payloadSize_writeCoils,
      roundTrips_multiple _ payloadSize_writeRegisters⟩,
    ⟨roundTrips_single _ _, roundTrips_single _ _, roundTrips_range _ _, roundTrips_range _ _⟩⟩

end Message

/-! ### Read responses

Their `Create` checks how many values there are and not which; the decoders of bits only
return values that their types name. -/

namespace Response.ReadMultiple

variable {kind : ReadKind} {code : FunctionCode} {maxQty : UInt16}

/-- `m` is written into every buffer with room for it, and from the bytes written, and any
`t` after them, a caller who expects as many values gets `values` back and is left with `t`. -/
def RoundTrips (m : ReadMultiple kind code maxQty) (values : List kind.T) : Prop :=
  ∀ buffer : Bytes, m.getEncodedSize ≤ buffer.length →
    ∃ written rest, m.serialize.run (OutSpan.of buffer) = .ok () ⟨written, rest⟩ ∧
      ∀ (t : Bytes) (expectedQuantity : UInt16), expectedQuantity.toNat = values.length →
        ∃ m' : ReadMultiple kind code maxQty,
          (deserialize kind code maxQty expectedQuantity).run (written ++ t) = .ok m' t ∧
            m'.values = values

theorem roundTrips_iff (hfit : kind.payloadSize maxQty.toNat ≤ 255) {values : List kind.T}
    {m : ReadMultiple kind code maxQty} (h : create kind code maxQty values = .ok m) :
    m.RoundTrips values ↔ ∀ val ∈ values, kind.Named val := by
  obtain rfl := create_eq_ok.mp h
  have hsize := m.length_encode hfit
  have hser : ∀ buffer : Bytes, m.getEncodedSize ≤ buffer.length →
      m.serialize.run (OutSpan.of buffer) = .ok () ⟨m.encode, buffer.drop m.encode.length⟩ :=
    fun buffer hroom => m.writes_serialize hfit [] buffer (by omega)
  constructor
  · intro hround
    obtain ⟨_, _, _, hread⟩ := hround (List.replicate m.getEncodedSize 0) (by simp)
    obtain ⟨m', hrun, hvalues⟩ := hread [] m.getQuantity m.toNat_getQuantity
    obtain ⟨_, _, _, _, _, hdec⟩ := deserialize_eq_ok.mp hrun
    rw [← hvalues]
    exact hdec.named
  · intro hnamed buffer hroom
    refine ⟨m.encode, _, hser buffer hroom, fun t expectedQuantity hexp => ⟨m, ?_, rfl⟩⟩
    obtain rfl : expectedQuantity = m.getQuantity :=
      UInt16.toNat_inj.mp (by rw [hexp, m.toNat_getQuantity])
    exact m.deserialize_encode hfit hnamed t

/-- **A response to a read round trips** if and only if its type names all its values. -/
theorem read_responses_round_trip_iff (coils : List Coil) (inputs : List DiscreteInput)
    (registers : List UInt16) :
    (∀ m : Response.ReadCoils, create .coil .kReadCoils 2000 coils = .ok m →
      (m.RoundTrips coils ↔ ∀ val ∈ coils, val.Named)) ∧
    (∀ m : Response.ReadDiscreteInputs,
      create .discreteInput .kReadDiscreteInputs 2000 inputs = .ok m →
        (m.RoundTrips inputs ↔ ∀ val ∈ inputs, val.Named)) ∧
    (∀ m : Response.ReadHoldingRegisters,
      create .register .kReadHoldingRegisters 125 registers = .ok m → m.RoundTrips registers) ∧
    (∀ m : Response.ReadInputRegisters,
      create .register .kReadInputRegisters 125 registers = .ok m → m.RoundTrips registers) :=
  ⟨fun _ h => roundTrips_iff (by decide) h, fun _ h => roundTrips_iff (by decide) h,
    fun _ h => (roundTrips_iff (by decide) h).mpr (fun _ _ => trivial),
    fun _ h => (roundTrips_iff (by decide) h).mpr (fun _ _ => trivial)⟩

/-- Two coils, two inputs and a register. -/
theorem read_responses_round_trip_small :
    (⟨[.kOn, .kOff], by decide⟩ : Response.ReadCoils).RoundTrips [.kOn, .kOff] ∧
      (⟨[.kOff, .kOn], by decide⟩ : Response.ReadDiscreteInputs).RoundTrips [.kOff, .kOn] ∧
      (⟨[7], by decide⟩ : Response.ReadHoldingRegisters).RoundTrips [7] ∧
      (⟨[7], by decide⟩ : Response.ReadInputRegisters).RoundTrips [7] := by
  obtain ⟨hcoils, hinputs, hholding, hinput⟩ :=
    read_responses_round_trip_iff [.kOn, .kOff] [.kOff, .kOn] [7]
  refine ⟨?_, ?_, ?_, ?_⟩
  · exact (hcoils _ (create_eq_ok.mpr rfl)).mpr (by decide)
  · exact (hinputs _ (create_eq_ok.mpr rfl)).mpr (by simp [DiscreteInput.Named])
  · exact hholding _ (create_eq_ok.mpr rfl)
  · exact hinput _ (create_eq_ok.mpr rfl)

/-- A coil of raw value `2` is accepted, written as a zero bit, and comes back off. -/
theorem not_roundTrips_unnamed_coil : ∃ m : Response.ReadCoils,
    create .coil .kReadCoils 2000 [⟨2⟩] = .ok m ∧
      m.serialize.run (OutSpan.of [9, 9, 9]) = .ok () ⟨[0x01, 1, 0], []⟩ ∧
      (∃ m', (deserialize .coil .kReadCoils 2000 1).run [0x01, 1, 0] = .ok m' [] ∧
        m'.values = [.kOff]) ∧
      ¬ m.RoundTrips [⟨2⟩] := by
  refine ⟨⟨[⟨2⟩], by decide⟩, create_eq_ok.mpr rfl, rfl, ?_, fun h => ?_⟩
  · exact ⟨⟨[.kOff], by decide⟩,
      deserialize_eq_ok.mpr ⟨1, [0], rfl, rfl, rfl, rfl, by decide⟩, rfl⟩
  · have hnamed := (roundTrips_iff (by decide) (create_eq_ok.mpr rfl)).mp h
    have hno : ¬ (Coil.mk 2).Named := by decide
    exact hno (hnamed ⟨2⟩ List.mem_cons_self)

end Response.ReadMultiple

end Modbus
