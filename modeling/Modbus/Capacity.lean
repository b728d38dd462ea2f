import Modbus.Client.Requests
import Modbus.Serialization
import Modbus.Udp.Operations

/-!
# Room for every message

The largest quantity of a message, the byte of its byte count, the 253 bytes of a PDU and the
256 bytes of a frame are limits of different files.  They fit: what `Create` accepts is never
cut short by a cast or turned down for its size later on.

* `Codec.fitsPdu_of`: a message type fits in a PDU if its encoded sizes do.
* `Call.fits`: `SendPdu` hands on the request of a call, whole.
* `UdpClient.accepts_of_le`: and `SendRawRequest` does not turn it down.
* `capacity_suffices`: all of it.
-/

namespace Modbus

open Span Transport

/-! ### Messages in a PDU -/

/-- Every message fits in a PDU: `Serialize` succeeds on a buffer of that size and leaves all
of it but the encoded size. -/
def Codec.FitsPdu {M : Type} (c : Codec M) : Prop :=
  ∀ m, c.encodedSize m ≤ kMaxPduSize ∧ ∀ buffer : Bytes, buffer.length = kMaxPduSize →
    ∃ out, (c.serialize m).run (OutSpan.of buffer) = .ok () out ∧
      out.rest.length ≤ buffer.length ∧ buffer.length - out.rest.length = c.encodedSize m

theorem Codec.fitsPdu_of {M : Type} {c : Codec M} (h : c.AllOrNothing)
    (hsize : ∀ m, c.encodedSize m ≤ kMaxPduSize) : c.FitsPdu := by
  intro m
  refine ⟨hsize m, fun buffer hbuffer => ?_⟩
  obtain ⟨bytes, hlen, hfills⟩ := h m
  have hroom : ¬ buffer.length < bytes.length := by
    rw [hlen, hbuffer]
    exact Nat.not_lt.mpr (hsize m)
  refine ⟨_, (hfills buffer).trans (if_neg hroom), ?_, ?_⟩
  · rw [List.length_drop]
    exact Nat.sub_le _ _
  · rw [List.length_drop, ← hlen]
    omega

theorem RangeMessage.fitsPdu (code : FunctionCode) (maxQty : UInt16) :
    (codec code maxQty).FitsPdu :=
  Codec.fitsPdu_of (serializesExactly code maxQty).allOrNothing
    (fun _ => (by decide : kEncodedSize ≤ kMaxPduSize))

theorem SingleMessage.fitsPdu (kind : WriteKind) (code : FunctionCode) :
    (codec kind code).FitsPdu :=
  Codec.fitsPdu_of (serializesExactly kind code).allOrNothing
    (fun _ => (by decide : kEncodedSize ≤ kMaxPduSize))

theorem Request.WriteMultiple.fitsPdu {kind : WriteKind} (code : FunctionCode) {maxQty : UInt16}
    (hfit : kind.payloadSize maxQty.toNat ≤ 247) : (codec kind code maxQty).FitsPdu := by
  have hbyte : kind.payloadSize maxQty.toNat ≤ 255 := hfit.trans (by decide)
  refine Codec.fitsPdu_of (serializesExactly code hbyte).allOrNothing (fun m => ?_)
  show 6 + m.getByteCount.toNat ≤ 253
  have hsize := (kind.payloadSize_mono m.length_le).trans hfit
  rw [m.toNat_getByteCount hbyte]
  omega

theorem Response.ReadMultiple.fitsPdu {kind : ReadKind} (code : FunctionCode) {maxQty : UInt16}
    (hfit : kind.payloadSize maxQty.toNat ≤ 251) (expectedQuantity : UInt16) :
    (codec kind code maxQty expectedQuantity).FitsPdu := by
  have hbyte : kind.payloadSize maxQty.toNat ≤ 255 := hfit.trans (by decide)
  refine Codec.fitsPdu_of (serializesExactly code hbyte expectedQuantity).allOrNothing
    (fun m => ?_)
  show 2 + m.getByteCount.toNat ≤ 253
  have hsize := (kind.payloadSize_mono m.length_le).trans hfit
  rw [m.toNat_getByteCount hbyte]
  omega

theorem Response.ErrorResponse.fitsPdu : codec.FitsPdu :=
  Codec.fitsPdu_of allOrNothing (fun _ => (by decide : kEncodedSize ≤ kMaxPduSize))

/-! ### Requests of a call -/

namespace Call

/-- `serialize` is the `Serialize` of the request that a call makes of its arguments, and
`size` its encoded size. -/
def Serializes : Call → Writer → Nat → Prop
  | read op address quantity _, serialize, size => ∃ request : op.Request,
      RangeMessage.create op.functionCode op.maxQuantity address quantity = .ok request ∧
      serialize = request.serialize ∧ size = RangeMessage.kEncodedSize
  | writeSingle kind address value, serialize, size => ∃ request : kind.Single,
      SingleMessage.create kind kind.singleCode address value = .ok request ∧
      serialize = request.serialize ∧ size = SingleMessage.kEncodedSize
  | writeMultiple kind address values, serialize, size => ∃ request : kind.MultipleRequest,
      Request.WriteMultiple.create kind kind.multipleCode kind.maxQuantity address values
        = .ok request ∧
      serialize = request.serialize ∧ size = request.getEncodedSize

/-- `SendPdu` does not fail to serialize the request of a call, `request_pdu_raw.size() -
ser_result->size()` is its encoded size, and `SendRawRequest` gets that many bytes. -/
def Fits (call : Call) : Prop :=
  ∀ serialize size, call.Serializes serialize size → size ≤ kMaxPduSize ∧
    ∃ serResult, serialize.run (OutSpan.of emptyPdu) = .ok () serResult ∧
      serResult.rest.length ≤ emptyPdu.length ∧
      emptyPdu.length - serResult.rest.length = size ∧
      (serResult.buffer.take size).length = size ∧
      ∀ (σ : Type) (t : Transport σ) (s : σ), call.Valid →
        ∃ outcome, call.log t s = [(serResult.buffer.take size, outcome)]

variable {call : Call}

/-- The request of a call has an encoding that fits in a PDU, and only that is sent. -/
theorem exists_encoding {serialize : Writer} {size : Nat} (h : call.Serializes serialize size) :
    ∃ req, Writes serialize req ∧ req.length = size ∧ size ≤ kMaxPduSize ∧
      ∀ req', call.Sends req' → req' = req := by
  cases call with
  | read op address quantity out =>
    obtain ⟨request, hreq, rfl, rfl⟩ := h
    refine ⟨request.encode, request.writes_serialize, rfl, by decide, fun req' hsends => ?_⟩
    obtain ⟨_, request', hreq', rfl⟩ := hsends
    rw [Except.ok.inj (hreq'.symm.trans hreq)]
  | writeSingle kind address value =>
    obtain ⟨request, hreq, rfl, rfl⟩ := h
    refine ⟨request.encode, request.writes_serialize, rfl, by decide, fun req' hsends => ?_⟩
    obtain ⟨request', hreq', rfl⟩ := hsends
    rw [Except.ok.inj (hreq'.symm.trans hreq)]
  | writeMultiple kind address values =>
    obtain ⟨request, hreq, rfl, rfl⟩ := h
    obtain ⟨hwrites, hlen⟩ := writes_multipleRequest request
    have hfit := kind.payloadSize_maxQuantity_le.trans (by decide : 246 ≤ 255)
    have hsize := request.length_encode hfit
    refine ⟨request.encode, hwrites, hsize, hsize ▸ hlen, fun req' hsends => ?_⟩
    obtain ⟨request', hreq', rfl⟩ := hsends
    rw [Except.ok.inj (hreq'.symm.trans hreq)]

/-- **The request of a call fits.** -/
theorem fits (call : Call) : call.Fits := by
  intro serialize size h
  obtain ⟨bytes, hwrites, rfl, hsize, hunique⟩ := exists_encoding h
  have hroom : bytes.length ≤ emptyPdu.length := by rwa [length_emptyPdu]
  have htake : (OutSpan.mk bytes (emptyPdu.drop bytes.length)).buffer.take bytes.length = bytes :=
    List.take_left
  refine ⟨hsize, ⟨bytes, emptyPdu.drop bytes.length⟩, hwrites [] emptyPdu hroom, ?_, ?_, ?_,
    fun σ t s hvalid => ?_⟩
  · rw [List.length_drop]
    exact Nat.sub_le _ _
  · rw [List.length_drop]
    omega
  · rw [htake]
  · obtain ⟨req, hsends⟩ := exists_sends.mpr hvalid
    obtain rfl := hunique req hsends
    rw [htake]
    exact ⟨_, log_of_sends hsends⟩

theorem length_le_of_sends {req : Bytes} (h : call.Sends req) : req.length ≤ kMaxPduSize := by
  cases call with
  | read op address quantity out =>
    obtain ⟨_, request, _, rfl⟩ := h
    exact (by decide : 5 ≤ kMaxPduSize)
  | writeSingle kind address value =>
    obtain ⟨request, _, rfl⟩ := h
    exact (by decide : 5 ≤ kMaxPduSize)
  | writeMultiple kind address values =>
    obtain ⟨request, _, rfl⟩ := h
    exact (writes_multipleRequest request).2

theorem length_le_of_mem_log {σ : Type} {t : Transport σ} {s : σ} {req : Bytes}
    {outcome : Outcome} (h : (req, outcome) ∈ call.log t s) : req.length ≤ kMaxPduSize := by
  by_cases hsends : ∃ req', call.Sends req'
  · obtain ⟨req', hsends⟩ := hsends
    rw [log_of_sends hsends, List.mem_singleton, Prod.mk.injEq] at h
    rw [h.1]
    exact length_le_of_sends hsends
  · rw [log_of_refused (not_exists.mp hsends)] at h
    cases h

end Call

/-! ### Requests of a client in a frame -/

namespace UdpClient

/-- There is a frame of `req`, it is serialized in a buffer for frames, and whatever the socket
does, a call does not end with `kInvalidRequest`. -/
structure Accepts (client : UdpClient) (req : Bytes) : Prop where
  framed : ∃ frame rest buffer, RtuFrame.create client.slaveId req = .ok frame ∧
    (frame.serialize client.crc).run RtuFrame.emptyFrame = .ok rest buffer
  not_refused : ∀ (σ : Type) (ops : SocketOps σ) (s : σ) (out out' : Bytes),
    ¬ Ends client ops (start req out, s) (.returned (.error .kInvalidRequest)) out'

/-- `kInvalidRequest` is still to be ruled out in the drain loop only, and there it is. -/
def Phase.NotRefused : Phase → Prop
  | .recvNoblock req _ => ¬ req.length > kMaxPduSize
  | .done outcome _ => outcome ≠ .returned (.error .kInvalidRequest)
  | _ => True

open Phase

theorem Phase.Leads.notRefused {phase phase' : Phase} (hleads : phase.Leads phase')
    (h : phase.NotRefused) : phase'.NotRefused := by
  have hfail : ∀ {e : ClientError} (out : Bytes), e ≠ .kInvalidRequest →
      (fail e out).NotRefused := by
    intro e out he hrefused
    cases hrefused
    exact he rfl
  cases hleads with
  | drains req out => exact h
  | drainThrows req out => exact fun he => by cases he
  | refuses out hlong => exact absurd hlong h
  | drained req adu out => trivial
  | sendFails adu out he => exact hfail out he
  | sent adu out => trivial
  | receiveFails out he => exact hfail out he
  | returns _ => exact fun he => by cases he
  | done outcome out => exact h

/-- **What fits in a PDU is accepted.** -/
theorem accepts_of_le (client : UdpClient) {req : Bytes} (h : req.length ≤ kMaxPduSize) :
    client.Accepts req := by
  have hle : ¬ req.length > kMaxPduSize := Nat.not_lt.mpr h
  constructor
  · obtain ⟨rest, buffer, hrun, _⟩ :=
      RtuFrame.run_serialize_emptyFrame client.crc ⟨client.slaveId, req, hle⟩
    exact ⟨_, rest, buffer, dif_neg hle, hrun⟩
  · intro σ ops s out out' hends
    have hkept := hends.keeps Phase.NotRefused (fun hleads => hleads.notRefused) hle
    exact hkept rfl

end UdpClient

/-! ### All of it -/

/-- **Every message has room**: casts of its counts lose nothing, it fits in a PDU, and a PDU
fits in a frame. -/
theorem capacity_suffices :
    ((∀ m : Request.WriteMultipleCoils, m.getQuantity.toNat = m.values.length ∧
        m.getByteCount.toNat = (m.values.length + 7) / 8) ∧
      (∀ m : Request.WriteMultipleHoldingRegisters, m.getQuantity.toNat = m.values.length ∧
        m.getByteCount.toNat = m.values.length * 2) ∧
      (∀ m : Response.ReadCoils, m.getQuantity.toNat = m.values.length ∧
        m.getByteCount.toNat = (m.values.length + 7) / 8) ∧
      (∀ m : Response.ReadDiscreteInputs, m.getQuantity.toNat = m.values.length ∧
        m.getByteCount.toNat = (m.values.length + 7) / 8) ∧
      (∀ m : Response.ReadHoldingRegisters, m.getQuantity.toNat = m.values.length ∧
        m.getByteCount.toNat = m.values.length * 2) ∧
      (∀ m : Response.ReadInputRegisters, m.getQuantity.toNat = m.values.length ∧
        m.getByteCount.toNat = m.values.length * 2)) ∧
    ((RangeMessage.codec .kReadCoils 2000).FitsPdu ∧
      (RangeMessage.codec .kReadDiscreteInputs 2000).FitsPdu ∧
      (RangeMessage.codec .kReadHoldingRegisters 125).FitsPdu ∧
      (RangeMessage.codec .kReadInputRegisters 125).FitsPdu ∧
      (SingleMessage.codec .coil .kWriteSingleCoil).FitsPdu ∧
      (SingleMessage.codec .register .kWriteSingleHoldingRegister).FitsPdu ∧
      (Request.WriteMultiple.codec .coil .kWriteMultipleCoils 1968).FitsPdu ∧
      (Request.WriteMultiple.codec .register .kWriteMultipleHoldingRegisters 123).FitsPdu) ∧
    (∀ expectedQuantity : UInt16,
      (Response.ReadMultiple.codec .coil .kReadCoils 2000 expectedQuantity).FitsPdu ∧
      (Response.ReadMultiple.codec .discreteInput .kReadDiscreteInputs 2000
        expectedQuantity).FitsPdu ∧
      (Response.ReadMultiple.codec .register .kReadHoldingRegisters 125
        expectedQuantity).FitsPdu ∧
      (Response.ReadMultiple.codec .register .kReadInputRegisters 125
        expectedQuantity).FitsPdu) ∧
    ((SingleMessage.codec .coil .kWriteSingleCoil).FitsPdu ∧
      (SingleMessage.codec .register .kWriteSingleHoldingRegister).FitsPdu ∧
      (RangeMessage.codec .kWriteMultipleCoils 1968).FitsPdu ∧
      (RangeMessage.codec .kWriteMultipleHoldingRegisters 123).FitsPdu ∧
      Response.ErrorResponse.codec.FitsPdu) ∧
    ∀ call : Call, call.Fits ∧ ∀ (σ : Type) (t : Transport σ) (s : σ) (client : UdpClient),
      ∀ e ∈ call.log t s, client.Accepts e.1 := by
  refine ⟨⟨?_, ?_, ?_, ?_, ?_, ?_⟩, ⟨?_, ?_, ?_, ?_, ?_, ?_, ?_, ?_⟩,
    fun expectedQuantity => ⟨?_, ?_, ?_, ?_⟩, ⟨?_, ?_, ?_, ?_, ?_⟩,
    fun call => ⟨call.fits, fun σ t s client e he => ?_⟩⟩
  · exact fun m => ⟨m.toNat_getQuantity, m.toNat_getByteCount payloadSize_writeCoils⟩
  · exact fun m => ⟨m.toNat_getQuantity, m.toNat_getByteCount payloadSize_writeRegisters⟩
  · exact fun m => ⟨m.toNat_getQuantity, m.toNat_getByteCount (by decide)⟩
  · exact fun m => ⟨m.toNat_getQuantity, m.toNat_getByteCount (by decide)⟩
  · exact fun m => ⟨m.toNat_getQuantity, m.toNat_getByteCount (by decide)⟩
  · exact fun m => ⟨m.toNat_getQuantity, m.toNat_getByteCount (by decide)⟩
  · exact RangeMessage.fitsPdu _ _
  · exact RangeMessage.fitsPdu _ _
  · exact RangeMessage.fitsPdu _ _
  · exact RangeMessage.fitsPdu _ _
  · exact SingleMessage.fitsPdu _ _
  · exact SingleMessage.fitsPdu _ _
  · exact Request.WriteMultiple.fitsPdu _ (by decide)
  · exact Request.WriteMultiple.fitsPdu _ (by decide)
  · exact Response.ReadMultiple.fitsPdu _ (by decide) _
  · exact Response.ReadMultiple.fitsPdu _ (by decide) _
  · exact Response.ReadMultiple.fitsPdu _ (by decide) _
  · exact Response.ReadMultiple.fitsPdu _ (by decide) _
  · exact SingleMessage.fitsPdu _ _
  · exact SingleMessage.fitsPdu _ _
  · exact RangeMessage.fitsPdu _ _
  · exact RangeMessage.fitsPdu _ _
  · exact Response.ErrorResponse.fitsPdu
  · exact client.accepts_of_le (call.length_le_of_mem_log he)

end Modbus
