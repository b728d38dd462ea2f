import Modbus.WellFormed

/-!
# Coils on the wire

Coils are packed twice, byte by byte in a request and bit by bit in a response, and unpacked
twice.  What goes into a request can be compared with what comes out of a response only if
both mean the same bits.

* `packersAgree`: the two packers, and the one of discrete inputs, write the reference.
* `unpackersAgree`: the two unpackers read it.
-/

namespace Modbus

open Span ByteBits

def Coil.toInput (coil : Coil) : DiscreteInput := .ofBool (coil = .kOn)

/-- Behind a header of `n` bytes, `x` writes `payload`. -/
def WritesBehind (n : Nat) (x : Writer) (payload : Bytes) : Prop :=
  ∃ header : Bytes, header.length = n ∧ Writes x (header ++ payload)

theorem Request.WriteMultiple.writesBehind {kind : WriteKind} {code : FunctionCode}
    {maxQty : UInt16} (hfit : kind.payloadSize maxQty.toNat ≤ 255)
    (m : WriteMultiple kind code maxQty) :
    WritesBehind 6 m.serialize (kind.encodeValues m.values) :=
  ⟨m.header, m.length_header, m.writes_serialize hfit⟩

theorem Response.ReadMultiple.writesBehind {kind : ReadKind} {code : FunctionCode}
    {maxQty : UInt16} (hfit : kind.payloadSize maxQty.toNat ≤ 255)
    (m : ReadMultiple kind code maxQty) :
    WritesBehind 2 m.serialize (kind.encodeValues m.values) :=
  ⟨[code.raw, m.getByteCount], rfl, m.writes_serialize hfit⟩

/-- The payload of the request `m`, of the response with the same coils, and of the one with
the corresponding inputs, is the reference packing. -/
def PackersAgree (m : Request.WriteMultipleCoils) : Prop :=
  ∃ payload : Bytes, IsPacking (m.values.map (fun coil => decide (coil = .kOn))) payload ∧
    WritesBehind 6 m.serialize payload ∧
    (∃ r : Response.ReadCoils,
      Response.ReadMultiple.create .coil .kReadCoils 2000 m.values = .ok r ∧
        WritesBehind 2 r.serialize payload) ∧
    ∃ r : Response.ReadDiscreteInputs, Response.ReadMultiple.create .discreteInput
        .kReadDiscreteInputs 2000 (m.values.map Coil.toInput) = .ok r ∧
      WritesBehind 2 r.serialize payload

/-- Behind the header of a request for `n` coils, and behind that of a response when `n` coils
are expected, `payload` is the same `n` coils, read off its bits. -/
def UnpackersAgree (address n : UInt16) (payload tail : Bytes) : Prop :=
  ∃ coils : List Coil, coils.length = n.toNat ∧
    (∀ i (h : i < coils.length), coils[i] = Coil.ofBool (bitAt payload i)) ∧
    (∃ m : Request.WriteMultipleCoils,
      (Request.WriteMultiple.deserialize .coil .kWriteMultipleCoils 1968).run
        (FunctionCode.kWriteMultipleCoils.raw :: (toBytes address ++ (toBytes n ++
          UInt8.ofNat payload.length :: payload)) ++ tail) = .ok m tail ∧ m.values = coils) ∧
    ∃ r : Response.ReadCoils,
      (Response.ReadMultiple.deserialize .coil .kReadCoils 2000 n).run
        (FunctionCode.kReadCoils.raw :: UInt8.ofNat payload.length :: payload ++ tail)
          = .ok r tail ∧ r.values = coils

theorem packersAgree (m : Request.WriteMultipleCoils) : PackersAgree m := by
  have hq := m.quantity_ok
  have hmax : (1968 : UInt16).toNat ≤ (2000 : UInt16).toNat := by decide
  have hinputs : (m.values.map Coil.toInput).map (fun input => decide (input = .kOn))
      = m.values.map (fun coil => decide (coil = .kOn)) := by
    rw [List.map_map]
    exact List.map_congr_left (fun coil _ => DiscreteInput.decide_ofBool_eq_kOn _)
  have hcoils := Response.ReadMultiple.writesBehind (by decide)
    (⟨m.values, by omega⟩ : Response.ReadCoils)
  have hdiscrete := Response.ReadMultiple.writesBehind (by decide)
    (⟨m.values.map Coil.toInput, by rw [List.length_map]; omega⟩ : Response.ReadDiscreteInputs)
  rw [ReadKind.encodeValues, hinputs] at hdiscrete
  exact ⟨_, isPacking_iff.mpr rfl, m.writesBehind payloadSize_writeCoils,
    ⟨_, Response.ReadMultiple.create_eq_ok.mpr rfl, hcoils⟩,
    ⟨_, Response.ReadMultiple.create_eq_ok.mpr rfl, hdiscrete⟩⟩

theorem unpackersAgree {address n : UInt16} {payload : Bytes} (hmin : 1 ≤ n.toNat)
    (hmax : n.toNat ≤ 1968) (ha : address.toNat + n.toNat ≤ 0x10000)
    (hlen : payload.length = (n.toNat + 7) / 8) (tail : Bytes) :
    UnpackersAgree address n payload tail := by
  have hbits : IsBits Coil.ofBool n.toNat payload ((unpack n.toNat payload).map Coil.ofBool) :=
    ⟨hlen, rfl⟩
  have hcount : (UInt8.ofNat payload.length).toNat = payload.length := by
    rw [UInt8.toNat_ofNat']
    exact Nat.mod_eq_of_lt (by omega)
  have hsize := hbits.length_eq
  have hresponse : n.toNat ≤ (2000 : UInt16).toNat := hmax.trans (by decide)
  obtain ⟨m, hm, _, hrun⟩ := Request.WriteMultiple.deserialize_of_decodes .coil
    .kWriteMultipleCoils 1968 payloadSize_writeCoils hmin hmax ha (hcount.trans hlen) hbits
  obtain ⟨r, hr, hrun'⟩ := Response.ReadMultiple.deserialize_of_decodes .coil .kReadCoils 2000
    n (by rwa [hsize]) (by rwa [hsize]) hsize hcount.symm (hsize.symm ▸ hbits)
  refine ⟨_, hsize, fun i hi => ?_, ⟨m, hrun tail, hm⟩, ⟨r, hrun' tail, hr⟩⟩
  simp only [unpack, List.getElem_map, List.getElem_range]

/-- **Coils are packed alike and unpacked alike** in requests and responses, as the reference
says. -/
theorem coils_packed_alike :
    (∀ m : Request.WriteMultipleCoils, PackersAgree m) ∧
    ∀ (address n : UInt16) (payload tail : Bytes), 1 ≤ n.toNat → n.toNat ≤ 1968 →
      address.toNat + n.toNat ≤ 0x10000 → payload.length = (n.toNat + 7) / 8 →
        UnpackersAgree address n payload tail :=
  ⟨packersAgree, fun _ _ _ tail hmin hmax ha hlen => unpackersAgree hmin hmax ha hlen tail⟩

/-- Ten coils in two bytes, with something in the padding and something behind. -/
theorem coils_packed_alike_ten : UnpackersAgree 5 10 [0xA5, 0xFE] [0xEE] :=
  coils_packed_alike.2 5 10 [0xA5, 0xFE] [0xEE] (by decide) (by decide) (by decide) (by decide)

end Modbus
