import Modbus.Values

/-!
# What a client is built on

`client.hpp`, `client_metrics.hpp` and the one member that `ClientBase` leaves to
its subclasses, `SendRawRequest`.  A `Transport` is such a member over a state of
its own; its two laws are what every implementation owes the span it is given.
Counters are shared between clients, so a call is known by the increments it makes,
in order, and not by their values.
-/

namespace Modbus

inductive ClientError
  | kBufferTooSmall
  | kInvalidRequest
  | kInvalidResponse
  | kTransportError
  | kTimeout
  | kModbusException
deriving DecidableEq, Repr

/-! ### Metrics -/

inductive MessageType
  | kReadCoils
  | kReadDiscreteInputs
  | kReadHoldingRegisters
  | kReadInputRegisters
  | kWriteSingleCoil
  | kWriteSingleRegister
  | kWriteMultipleCoils
  | kWriteMultipleRegisters
deriving DecidableEq, Repr

/-- One atomic step on a `RateCounter` of `ClientMetrics`. -/
inductive Increment
  | bytesSent (n : Nat)
  | bytesReceived (n : Nat)
  | requestsTotal
  | requestsSuccess
  | requestsErrors
  | total (type : MessageType)
  | success (type : MessageType)
  | errors (type : MessageType)
deriving DecidableEq, Repr

/-! ### `SendRawRequest` -/

/-- How `SendRawRequest` ends: it may also leave by an exception. -/
inductive Outcome
  | returned (result : Except ClientError Nat)
  | threw

structure SendResult (σ : Type) where
  outcome : Outcome
  responsePduOut : Bytes
  state : σ

structure Transport (σ : Type) where
  /-- The request PDU, what is in `response_pdu_out`, and the state before. -/
  sendRawRequest : Bytes → Bytes → σ → SendResult σ
  length_responsePduOut : ∀ req out s, (sendRawRequest req out s).responsePduOut.length = out.length
  returned_le : ∀ req out s n,
    (sendRawRequest req out s).outcome = .returned (.ok n) → n ≤ out.length

namespace Transport

variable {σ : Type}

/-- The buffer that `ClientBase` passes: `std::array<std::byte, kMaxPduSize> response_pdu_raw{}`. -/
def emptyPdu : Bytes := List.replicate kMaxPduSize 0

theorem length_emptyPdu : emptyPdu.length = kMaxPduSize := List.length_replicate

def send (t : Transport σ) (req : Bytes) (s : σ) : SendResult σ := t.sendRawRequest req emptyPdu s

/-- The response PDU, when one is returned. -/
def reply (t : Transport σ) (req : Bytes) (s : σ) : Option Bytes :=
  match (t.send req s).outcome with
  | .returned (.ok n) => some ((t.send req s).responsePduOut.take n)
  | _ => none

/-- The calls of `SendRawRequest`: the request PDU, and how each ended. -/
abbrev Log := List (Bytes × Outcome)

def logged (t : Transport σ) : Transport (Log × σ) where
  sendRawRequest req out s :=
    let r := t.sendRawRequest req out s.2
    ⟨r.outcome, r.responsePduOut, s.1 ++ [(req, r.outcome)], r.state⟩
  length_responsePduOut req out s := t.length_responsePduOut req out s.2
  returned_le req out s := t.returned_le req out s.2

/-- `SendRawRequest` of a device that is at the other end of a function call: whatever
is asked, it answers `pdu`. -/
def answering (pdu : Bytes) : Transport Unit where
  sendRawRequest _ out _ :=
    if out.length < pdu.length then ⟨.returned (.error .kBufferTooSmall), out, ()⟩
    else ⟨.returned (.ok pdu.length), pdu ++ out.drop pdu.length, ()⟩
  length_responsePduOut _ out _ := by
    split
    · rfl
    · simp only [List.length_append, List.length_drop]
      omega
  returned_le _ out _ n h := by
    split at h
    · cases h
    · cases h
      omega

theorem sendRawRequest_answering {pdu out : Bytes} (h : pdu.length ≤ out.length) (req : Bytes) :
    (answering pdu).sendRawRequest req out ()
      = ⟨.returned (.ok pdu.length), pdu ++ out.drop pdu.length, ()⟩ :=
  if_neg (Nat.not_lt.mpr h)

theorem reply_answering {pdu : Bytes} (h : pdu.length ≤ kMaxPduSize) (req : Bytes) :
    (answering pdu).reply req () = some pdu := by
  rw [reply, send, sendRawRequest_answering (by rwa [length_emptyPdu])]
  exact congrArg some List.take_left

end Transport

end Modbus
