import Modbus.Client.Calls

/-!
# What a read leaves in its buffer

`ExecuteRead` checks its buffer against the quantity it asks for, and then copies as
many values as the response holds.  For bits the decoder makes the two the same.  For
registers nothing does, and a response with another number of them is copied whole.

* `readExact_iff`: a read is exact unless it gets a register response whose byte count
  is not twice the quantity.
-/

namespace Modbus

open Span Transport ByteBits

variable {σ : Type}

namespace ReadOp

variable (op : ReadOp)

def decodeResponse (quantity : UInt16) (pdu : Bytes) : Except ParseError op.Response :=
  decode (Response.ReadMultiple.deserialize op.kind op.functionCode op.maxQuantity quantity) pdu

def finalState (t : Transport σ) (s : σ) (address quantity : UInt16) (cells : List op.T) :
    CallState σ (OutBuffer op.T) :=
  stateOf ((executeRead t op address quantity).run ⟨s, [], ⟨cells, []⟩⟩)

/-- Nothing is assigned past the end of the buffer; and after a success, the response
held `quantity` values, they are in the buffer from its start on, and the rest of the
buffer is as it was. -/
def ReadExact (t : Transport σ) (s : σ) (address quantity : UInt16) (cells : List op.T) : Prop :=
  (op.finalState t s address quantity cells).out.overrun = [] ∧
    ((Call.read op address quantity cells).result t s = .ok () →
      ∃ pdu m, (Call.read op address quantity cells).Replied t s pdu ∧
        op.decodeResponse quantity pdu = .ok m ∧ m.values.length = quantity.toNat ∧
        (op.finalState t s address quantity cells).out.cells
          = m.values ++ cells.drop quantity.toNat)

/-- `pdu` is a response with registers in it: the function code, an even byte count from
`2` to `250`, and at least that many bytes. -/
def RegisterResponse (pdu : Bytes) (byteCount : UInt8) : Prop :=
  op.kind = .register ∧
    Response.ReadMultiple.IsRegisterResponse op.functionCode op.maxQuantity pdu byteCount

variable {op}

/-! ### How many values there are -/

theorem decodeResponse_of_registerResponse {pdu : Bytes} {byteCount : UInt8}
    (h : op.RegisterResponse pdu byteCount) (quantity : UInt16) :
    ∃ m, op.decodeResponse quantity pdu = .ok m ∧ m.values.length * 2 = byteCount.toNat := by
  obtain ⟨hkind, h⟩ := h
  cases op with
  | readCoils | readDiscreteInputs => cases hkind
  | readHoldingRegisters | readInputRegisters =>
    obtain ⟨m, rest, hrun, hcount⟩ := Response.ReadMultiple.deserialize_registers h quantity
    exact ⟨m, decode_eq_ok.mpr ⟨rest, hrun⟩, hcount⟩

/-- The values of a response are as many as were asked for, unless it is a register
response with another byte count. -/
theorem length_values {quantity : UInt16} {pdu : Bytes} {m : op.Response}
    (hdec : op.decodeResponse quantity pdu = .ok m)
    (hcount : ∀ byteCount, op.RegisterResponse pdu byteCount →
      byteCount.toNat = 2 * quantity.toNat) : m.values.length = quantity.toNat := by
  obtain ⟨rest, hrun⟩ := decode_eq_ok.mp hdec
  cases op with
  | readCoils | readDiscreteInputs =>
    obtain ⟨_, _, _, _, hexp, _⟩ := Response.ReadMultiple.deserialize_eq_ok.mp hrun
    exact hexp
  | readHoldingRegisters | readInputRegisters =>
    obtain ⟨byteCount, hresp, hlen⟩ := Response.ReadMultiple.length_registers hrun
    have hbytes := hcount byteCount ⟨rfl, hresp⟩
    have hvalues : m.values.length * 2 = byteCount.toNat := hlen
    omega

/-! ### The copy -/

theorem finalState_out_of_ne_ok {t : Transport σ} {s : σ} {address quantity : UInt16}
    {cells : List op.T} (h : (Call.read op address quantity cells).result t s ≠ .ok ()) :
    (op.finalState t s address quantity cells).out = ⟨cells, []⟩ := by
  rw [Call.result] at h
  rw [finalState]
  by_cases hq : cells.length < quantity.toNat
  · rw [run_executeRead_of_lt hq, stateOf_refused_out]
  · cases hreq : RangeMessage.create op.functionCode op.maxQuantity address quantity with
    | error e => rw [run_executeRead_of_error (Nat.not_lt.mp hq) hreq, stateOf_refused_out]
    | ok request =>
      rw [run_executeRead (Nat.not_lt.mp hq) hreq] at h ⊢
      cases hr : received t request.encode s (Response.ReadMultiple.deserialize op.kind
          op.functionCode op.maxQuantity quantity) with
      | ok m => simp [hr, Except.map] at h
      | error e => rw [stateOf_finished_error_out]

theorem finalState_out_of_replied {t : Transport σ} {s : σ} {address quantity : UInt16}
    {cells : List op.T} {pdu : Bytes} {m : op.Response}
    (hreplied : (Call.read op address quantity cells).Replied t s pdu)
    (hdec : op.decodeResponse quantity pdu = .ok m) :
    (op.finalState t s address quantity cells).out = (OutBuffer.mk cells []).copy m.values := by
  obtain ⟨req, ⟨hq, request, hreq, rfl⟩, hreply⟩ := hreplied
  rw [finalState, run_executeRead (s := ⟨s, [], ⟨cells, []⟩⟩) hq hreq,
    received_eq_ok.mpr ⟨pdu, hreply, hdec⟩, stateOf_finished_ok_out]

/-- **A read is exact** if and only if the response it gets is not a register response
with a byte count other than twice the quantity. -/
theorem readExact_iff (t : Transport σ) (s : σ) (op : ReadOp) (address quantity : UInt16)
    (cells : List op.T) : op.ReadExact t s address quantity cells ↔
      ∀ pdu byteCount, (Call.read op address quantity cells).Replied t s pdu →
        op.RegisterResponse pdu byteCount → byteCount.toNat = 2 * quantity.toNat := by
  constructor
  · rintro ⟨_, hexact⟩ pdu byteCount hreplied hresp
    obtain ⟨m, hdec, hcount⟩ := decodeResponse_of_registerResponse hresp quantity
    obtain ⟨pdu', m', hreplied', hdec', hlen, _⟩ :=
      hexact (Call.result_eq_ok.mpr ⟨pdu, hreplied, m, hdec⟩)
    obtain rfl := Call.replied_unique hreplied hreplied'
    rw [hdec, Except.ok.injEq] at hdec'
    rw [← hcount, hdec', hlen]
    omega
  · intro h
    by_cases hok : (Call.read op address quantity cells).result t s = .ok ()
    · obtain ⟨pdu, hreplied, m, hdec⟩ := Call.result_eq_ok.mp hok
      have hlen := length_values hdec (fun byteCount => h pdu byteCount hreplied)
      obtain ⟨_, ⟨hq, _⟩, _⟩ := id hreplied
      have hout := finalState_out_of_replied hreplied hdec
      rw [OutBuffer.copy_of_le (by omega)] at hout
      refine ⟨by rw [hout], fun _ => ⟨pdu, m, hreplied, hdec, hlen, ?_⟩⟩
      rw [hout, hlen]
    · exact ⟨by rw [finalState_out_of_ne_ok hok], fun hok' => absurd hok' hok⟩

/-- One register is asked for, into a buffer of one, and two come back: the second is
assigned past the end of the buffer. -/
theorem readExact_two_registers :
    (readHoldingRegisters.finalState (answering [0x03, 4, 0, 1, 0, 2]) () 0 1
        ([0] : List UInt16)).out.overrun = ([2] : List UInt16) ∧
      ¬ readHoldingRegisters.ReadExact (answering [0x03, 4, 0, 1, 0, 2]) () 0 1
        ([0] : List UInt16) := by
  have hreplied : (Call.read readHoldingRegisters 0 1 ([0] : List UInt16)).Replied
      (answering [0x03, 4, 0, 1, 0, 2]) () [0x03, 4, 0, 1, 0, 2] :=
    ⟨[0x03, 0, 0, 0, 1], ⟨by decide, ⟨0, 1, by decide, by decide⟩, rfl, rfl⟩,
      reply_answering (by decide) _⟩
  have hdec : readHoldingRegisters.decodeResponse 1 [0x03, 4, 0, 1, 0, 2]
      = .ok ⟨([1, 2] : List UInt16), by decide⟩ :=
    decode_eq_ok.mpr ⟨[], Response.ReadMultiple.deserialize_eq_ok.mpr
      ⟨4, [0, 1, 0, 2], rfl, rfl, trivial, rfl, rfl⟩⟩
  have hout := finalState_out_of_replied hreplied hdec
  refine ⟨by rw [hout]; rfl, fun h => ?_⟩
  have hnil := h.1
  rw [hout] at hnil
  cases hnil

end ReadOp

end Modbus
