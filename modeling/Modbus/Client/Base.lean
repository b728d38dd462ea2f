import Modbus.Client.Transport
import Modbus.Messages

/-!
# `ClientBase`

The eight operations over a transport.  `ExecuteRead`, `ExecuteWriteSingle` and
`ExecuteWriteMultiple` share what lies between the request and the response,
`transact`; they differ in how a request is made and in what becomes of the
response.

* `run_transact`: one exchange, in terms of what the transport replies.
* `run_executeRead`, `run_executeWriteSingle`, `run_executeWriteMultiple`: one
  operation, from its arguments and the reply.
-/

namespace Modbus

open Span Transport

/-! ### The state of a call -/

/-- An out buffer of the caller: its elements, and the elements that were assigned
at an index past its end. -/
structure OutBuffer (T : Type) where
  cells : List T
  overrun : List T

/-- `std::copy(values.begin(), values.end(), out_buffer.begin())` -/
def OutBuffer.copy {T : Type} (out : OutBuffer T) (values : List T) : OutBuffer T :=
  ⟨values.take out.cells.length ++ out.cells.drop values.length,
    out.overrun ++ values.drop out.cells.length⟩

theorem OutBuffer.copy_of_le {T : Type} {cells values : List T}
    (h : values.length ≤ cells.length) :
    (OutBuffer.mk cells []).copy values = ⟨values ++ cells.drop values.length, []⟩ := by
  rw [copy, List.take_of_length_le h, List.drop_eq_nil_of_le h, List.append_nil]

structure CallState (σ β : Type) where
  transport : σ
  metrics : List Increment
  out : β

/-- How a call ends, other than with success. -/
inductive Exit
  | error (e : ClientError)
  | threw
deriving DecidableEq, Repr

abbrev ClientM (σ β : Type) := EStateM Exit (CallState σ β)

variable {σ β : Type}

def CallState.count (s : CallState σ β) (increments : List Increment) : CallState σ β :=
  { s with metrics := s.metrics ++ increments }

/-- `if (!r.has_value()) return unexpected{e}` -/
def valueOr {ε α : Type} (e : ClientError) : Except ε α → ClientM σ β α
  | .ok a => pure a
  | .error _ => throw (.error e)

/-- `ScopeMetrics::ScopeMetrics` -/
def CallState.openScope (s : CallState σ β) (type : MessageType) : CallState σ β :=
  s.count [.requestsTotal, .total type]

/-- `ScopeMetrics::~ScopeMetrics`.  `MarkSuccess` is the last thing that a body does, so
the destructor sees it marked exactly when the body succeeds. -/
def closeScope (type : MessageType) :
    EStateM.Result Exit (CallState σ β) Unit → EStateM.Result Exit (CallState σ β) Unit
  | .ok () s => .ok () (s.count [.requestsSuccess, .success type])
  | .error e s => .error e (s.count [.requestsErrors, .errors type])

/-- A body with a `metrics_guard`. -/
def withScopeMetrics (type : MessageType) (body : ClientM σ β Unit) : ClientM σ β Unit := fun s =>
  closeScope type (body.run (s.openScope type))

/-- The result of a decoder; the span it leaves is not looked at. -/
def decode {α : Type} (deserialize : Reader α) (pdu : Bytes) : Except ParseError α :=
  match deserialize.run pdu with
  | .ok a _ => .ok a
  | .error e _ => .error e

theorem decode_eq_ok {α : Type} {deserialize : Reader α} {pdu : Bytes} {a : α} :
    decode deserialize pdu = .ok a ↔ ∃ rest, deserialize.run pdu = .ok a rest := by
  unfold decode
  cases deserialize.run pdu with
  | ok b rest => simp
  | error e rest => simp

/-! ### `SendPdu` -/

/-- The value is the length returned and what is in `response_pdu_buf` then. -/
def sendPdu (t : Transport σ) (serialize : Writer) : ClientM σ β (Nat × Bytes) := fun s =>
  match serialize.run (OutSpan.of emptyPdu) with
  | .error _ _ => .error (.error .kInvalidRequest) s
  | .ok () serResult =>
    let requestPduLen := emptyPdu.length - serResult.rest.length
    let requestPdu := serResult.buffer.take requestPduLen
    let s := s.count [.bytesSent requestPduLen]
    let r := t.send requestPdu s.transport
    let s := { s with transport := r.state }
    match r.outcome with
    | .threw => .error .threw s
    | .returned (.error e) => .error (.error e) s
    | .returned (.ok n) => .ok (n, r.responsePduOut) (s.count [.bytesReceived n])

/-- From a request to a decoded response. -/
def transact {R : Type} (t : Transport σ) (serialize : Writer) (deserialize : Reader R) :
    ClientM σ β R := do
  let (pduLen, responsePduRaw) ← sendPdu t serialize
  let responsePdu := responsePduRaw.take pduLen
  valueOr .kInvalidResponse (decode deserialize responsePdu)

def CallState.sent (s : CallState σ β) (t : Transport σ) (req : Bytes) : CallState σ β :=
  { transport := (t.send req s.transport).state
    metrics := s.metrics ++ ([.bytesSent req.length] ++
      match (t.send req s.transport).outcome with
      | .returned (.ok n) => [.bytesReceived n]
      | _ => [])
    out := s.out }

/-- How an exchange ends in which the transport got `req`. -/
def received {R : Type} (t : Transport σ) (req : Bytes) (s : σ) (deserialize : Reader R) :
    Except Exit R :=
  match (t.send req s).outcome with
  | .threw => .error .threw
  | .returned (.error e) => .error (.error e)
  | .returned (.ok n) =>
    match decode deserialize ((t.send req s).responsePduOut.take n) with
    | .ok m => .ok m
    | .error _ => .error (.error .kInvalidResponse)

def outcomeAt {R : Type} (r : Except Exit R) (s : CallState σ β) :
    EStateM.Result Exit (CallState σ β) R :=
  match r with
  | .ok m => .ok m s
  | .error e => .error e s

/-- **One exchange.** -/
theorem run_transact {R : Type} (t : Transport σ) {serialize : Writer} {req : Bytes}
    (hser : Writes serialize req) (hlen : req.length ≤ kMaxPduSize) (deserialize : Reader R)
    (s : CallState σ β) : (transact t serialize deserialize).run s
      = outcomeAt (received t req s.transport deserialize) (s.sent t req) := by
  have hroom : req.length ≤ emptyPdu.length := by rwa [length_emptyPdu]
  have hrun : serialize.run (OutSpan.of emptyPdu) = .ok () ⟨req, emptyPdu.drop req.length⟩ :=
    hser [] emptyPdu hroom
  have hsent : emptyPdu.length - (emptyPdu.drop req.length).length = req.length := by
    rw [List.length_drop]
    omega
  have hsend : (sendPdu t serialize).run s
      = outcomeAt (match (t.send req s.transport).outcome with
          | .threw => .error .threw
          | .returned (.error e) => .error (.error e)
          | .returned (.ok n) => .ok (n, (t.send req s.transport).responsePduOut))
        (s.sent t req) := by
    show sendPdu t serialize s = _
    unfold sendPdu CallState.sent outcomeAt
    simp only [hrun, hsent, OutSpan.buffer, List.take_left, CallState.count]
    cases (t.send req s.transport).outcome with
    | threw => simp
    | returned r => cases r <;> simp
  rw [transact, EStateM.run_bind, hsend, received]
  cases (t.send req s.transport).outcome with
  | threw => rfl
  | returned r =>
    cases r with
    | error e => rfl
    | ok n =>
      simp only [outcomeAt]
      cases decode deserialize ((t.send req s.transport).responsePduOut.take n) <;> rfl

/-! ### The instantiations -/

/-- The four instantiations of `ExecuteRead`. -/
inductive ReadOp
  | readCoils
  | readDiscreteInputs
  | readHoldingRegisters
  | readInputRegisters
deriving DecidableEq, Repr

namespace ReadOp

def kind : ReadOp → ReadKind
  | readCoils => .coil
  | readDiscreteInputs => .discreteInput
  | readHoldingRegisters => .register
  | readInputRegisters => .register

def functionCode : ReadOp → FunctionCode
  | readCoils => .kReadCoils
  | readDiscreteInputs => .kReadDiscreteInputs
  | readHoldingRegisters => .kReadHoldingRegisters
  | readInputRegisters => .kReadInputRegisters

/-- `MaxQty`, the same for the request and the response. -/
def maxQuantity : ReadOp → UInt16
  | readCoils => 2000
  | readDiscreteInputs => 2000
  | readHoldingRegisters => 125
  | readInputRegisters => 125

/-- `RequestTraits` -/
def messageType : ReadOp → MessageType
  | readCoils => .kReadCoils
  | readDiscreteInputs => .kReadDiscreteInputs
  | readHoldingRegisters => .kReadHoldingRegisters
  | readInputRegisters => .kReadInputRegisters

abbrev T (op : ReadOp) : Type := op.kind.T

abbrev Request (op : ReadOp) : Type := RangeMessage op.functionCode op.maxQuantity

abbrev Response (op : ReadOp) : Type :=
  Modbus.Response.ReadMultiple op.kind op.functionCode op.maxQuantity

theorem payloadSize_le (op : ReadOp) : op.kind.payloadSize op.maxQuantity.toNat ≤ 250 := by
  cases op <;> decide

end ReadOp

/-! `ExecuteWriteSingle` and `ExecuteWriteMultiple` have two instantiations each, one
for each `WriteKind`. -/

namespace WriteKind

def singleCode : WriteKind → FunctionCode
  | .coil => .kWriteSingleCoil
  | .register => .kWriteSingleHoldingRegister

def multipleCode : WriteKind → FunctionCode
  | .coil => .kWriteMultipleCoils
  | .register => .kWriteMultipleHoldingRegisters

/-- `MaxQty`, the same for the request and the response. -/
def maxQuantity : WriteKind → UInt16
  | .coil => 1968
  | .register => 123

/-- `RequestTraits` -/
def singleMessageType : WriteKind → MessageType
  | .coil => .kWriteSingleCoil
  | .register => .kWriteSingleRegister

/-- `RequestTraits` -/
def multipleMessageType : WriteKind → MessageType
  | .coil => .kWriteMultipleCoils
  | .register => .kWriteMultipleRegisters

abbrev Single (kind : WriteKind) : Type := SingleMessage kind kind.singleCode

abbrev MultipleRequest (kind : WriteKind) : Type :=
  Request.WriteMultiple kind kind.multipleCode kind.maxQuantity

abbrev MultipleResponse (kind : WriteKind) : Type :=
  RangeMessage kind.multipleCode kind.maxQuantity

theorem payloadSize_maxQuantity_le (kind : WriteKind) :
    kind.payloadSize kind.maxQuantity.toNat ≤ 246 := by
  cases kind <;> decide

end WriteKind

/-! ### The operations -/

def executeRead (t : Transport σ) (op : ReadOp) (address quantity : UInt16) :
    ClientM σ (OutBuffer op.T) Unit :=
  withScopeMetrics op.messageType do
    let s ← get
    failIf (s.out.cells.length < quantity.toNat) (.error .kBufferTooSmall)
    let request ← valueOr .kInvalidRequest
      (RangeMessage.create op.functionCode op.maxQuantity address quantity)
    let response ← transact t request.serialize
      (Response.ReadMultiple.deserialize op.kind op.functionCode op.maxQuantity quantity)
    modify fun s => { s with out := s.out.copy response.values }

def executeWriteSingle (t : Transport σ) (kind : WriteKind) (address : UInt16) (value : kind.T) :
    ClientM σ Unit Unit :=
  withScopeMetrics kind.singleMessageType do
    let request ← valueOr .kInvalidRequest (SingleMessage.create kind kind.singleCode address value)
    let _ ← transact t request.serialize (SingleMessage.deserialize kind kind.singleCode)
    return ()

def executeWriteMultiple (t : Transport σ) (kind : WriteKind) (address : UInt16)
    (values : List kind.T) : ClientM σ Unit Unit :=
  withScopeMetrics kind.multipleMessageType do
    let request ← valueOr .kInvalidRequest
      (Request.WriteMultiple.create kind kind.multipleCode kind.maxQuantity address values)
    let _ ← transact t request.serialize
      (RangeMessage.deserialize kind.multipleCode kind.maxQuantity)
    return ()

namespace ClientBase

variable (t : Transport σ)

def readCoils (address quantity : UInt16) : ClientM σ (OutBuffer Coil) Unit :=
  executeRead t .readCoils address quantity

def readDiscreteInputs (address quantity : UInt16) : ClientM σ (OutBuffer DiscreteInput) Unit :=
  executeRead t .readDiscreteInputs address quantity

def readHoldingRegisters (address quantity : UInt16) : ClientM σ (OutBuffer UInt16) Unit :=
  executeRead t .readHoldingRegisters address quantity

def readInputRegisters (address quantity : UInt16) : ClientM σ (OutBuffer UInt16) Unit :=
  executeRead t .readInputRegisters address quantity

def writeCoil (address : UInt16) (value : Coil) : ClientM σ Unit Unit :=
  executeWriteSingle t .coil address value

def writeCoils (address : UInt16) (values : List Coil) : ClientM σ Unit Unit :=
  executeWriteMultiple t .coil address values

def writeHoldingRegister (address value : UInt16) : ClientM σ Unit Unit :=
  executeWriteSingle t .register address value

def writeHoldingRegisters (address : UInt16) (values : List UInt16) : ClientM σ Unit Unit :=
  executeWriteMultiple t .register address values

end ClientBase

/-! ### What an operation does -/

theorem run_withScopeMetrics (type : MessageType) (body : ClientM σ β Unit) (s : CallState σ β) :
    (withScopeMetrics type body).run s = closeScope type (body.run (s.openScope type)) := rfl

/-- The end of an operation that gives up before it sends anything. -/
def refused (type : MessageType) (e : ClientError) (s : CallState σ β) :
    EStateM.Result Exit (CallState σ β) Unit :=
  closeScope type (.error (.error e) (s.openScope type))

/-- The end of an operation that has sent `req`: `k` is what it does with the
response. -/
def finished {R : Type} (type : MessageType) (t : Transport σ) (req : Bytes) (s : CallState σ β)
    (k : R → β → β) (r : Except Exit R) : EStateM.Result Exit (CallState σ β) Unit :=
  closeScope type (match r with
    | .ok m => .ok () { (s.openScope type).sent t req with out := k m s.out }
    | .error e => .error e ((s.openScope type).sent t req))

variable {t : Transport σ}

theorem run_transact_bind {R : Type} {serialize : Writer} {req : Bytes}
    (hser : Writes serialize req) (hlen : req.length ≤ kMaxPduSize) (deserialize : Reader R)
    (f : R → ClientM σ β Unit) (s : CallState σ β) :
    (transact t serialize deserialize >>= f).run s
      = match received t req s.transport deserialize with
        | .ok m => (f m).run (s.sent t req)
        | .error e => .error e (s.sent t req) := by
  rw [EStateM.run_bind, run_transact t hser hlen]
  cases received t req s.transport deserialize <;> rfl

/-- A response is received when one is returned and can be decoded. -/
theorem received_eq_ok {R : Type} {req : Bytes} {s : σ} {deserialize : Reader R} {m : R} :
    received t req s deserialize = .ok m ↔
      ∃ pdu, t.reply req s = some pdu ∧ decode deserialize pdu = .ok m := by
  unfold received reply
  cases (t.send req s).outcome with
  | threw => simp
  | returned r =>
    cases r with
    | error e => simp
    | ok n =>
      simp only [Option.some.injEq, exists_eq_left']
      cases decode deserialize ((t.send req s).responsePduOut.take n) <;> simp

theorem received_of_error {R : Type} {req pdu : Bytes} {s : σ} {deserialize : Reader R}
    {e : ParseError} (hreply : t.reply req s = some pdu) (h : decode deserialize pdu = .error e) :
    received t req s deserialize = .error (.error .kInvalidResponse) := by
  unfold reply at hreply
  unfold received
  split at hreply
  · rename_i n hn
    cases hreply
    simp only [hn, h]
  · cases hreply

/-! The end of an operation, by parts. -/

def resultOf : EStateM.Result Exit (CallState σ β) Unit → Except Exit Unit
  | .ok () _ => .ok ()
  | .error e _ => .error e

def stateOf : EStateM.Result Exit (CallState σ β) Unit → CallState σ β
  | .ok () s => s
  | .error _ s => s

theorem resultOf_refused (type : MessageType) (e : ClientError) (s : CallState σ β) :
    resultOf (refused type e s) = .error (.error e) := rfl

@[simp] theorem stateOf_refused_out (type : MessageType) (e : ClientError) (s : CallState σ β) :
    (stateOf (refused type e s)).out = s.out := rfl

section

variable {R : Type} (type : MessageType) (req : Bytes) (s : CallState σ β) (k : R → β → β)

@[simp] theorem resultOf_finished (r : Except Exit R) :
    resultOf (finished type t req s k r) = r.map (fun _ => ()) := by
  cases r <;> rfl

@[simp] theorem stateOf_finished_ok_out (m : R) :
    (stateOf (finished type t req s k (.ok m))).out = k m s.out := rfl

@[simp] theorem stateOf_finished_error_out (e : Exit) :
    (stateOf (finished type t req s k (.error e : Except Exit R))).out = s.out := rfl

end

theorem run_executeRead_of_lt {op : ReadOp} {address quantity : UInt16}
    {s : CallState σ (OutBuffer op.T)} (h : s.out.cells.length < quantity.toNat) :
    (executeRead t op address quantity).run s = refused op.messageType .kBufferTooSmall s := by
  rw [executeRead, run_withScopeMetrics, run_get_bind]
  exact congrArg _ (run_failIf_bind_of_pos h _ _ _)

theorem run_executeRead_of_error {op : ReadOp} {address quantity : UInt16}
    {s : CallState σ (OutBuffer op.T)} (h : quantity.toNat ≤ s.out.cells.length) {e : ParseError}
    (hreq : RangeMessage.create op.functionCode op.maxQuantity address quantity = .error e) :
    (executeRead t op address quantity).run s = refused op.messageType .kInvalidRequest s := by
  rw [executeRead, run_withScopeMetrics, run_get_bind, hreq]
  exact congrArg _ (run_failIf_bind_of_neg (Nat.not_lt.mpr h) _ _ _)

/-- **A read** whose buffer has room and whose arguments are accepted. -/
theorem run_executeRead {op : ReadOp} {address quantity : UInt16}
    {s : CallState σ (OutBuffer op.T)} (h : quantity.toNat ≤ s.out.cells.length)
    {request : op.Request}
    (hreq : RangeMessage.create op.functionCode op.maxQuantity address quantity = .ok request) :
    (executeRead t op address quantity).run s
      = finished op.messageType t request.encode s
          (fun (response : op.Response) out => out.copy response.values)
          (received t request.encode s.transport
            (Response.ReadMultiple.deserialize op.kind op.functionCode op.maxQuantity
              quantity)) := by
  rw [executeRead, run_withScopeMetrics, run_get_bind, hreq]
  refine congrArg _ ((run_failIf_bind_of_neg (Nat.not_lt.mpr h) _ _ _).trans ?_)
  rw [valueOr, pure_bind, run_transact_bind request.writes_serialize (by simp [kMaxPduSize])]
  rfl

theorem run_executeWriteSingle_of_error {kind : WriteKind} {address : UInt16} {value : kind.T}
    {s : CallState σ Unit} {e : ParseError}
    (hreq : SingleMessage.create kind kind.singleCode address value = .error e) :
    (executeWriteSingle t kind address value).run s
      = refused kind.singleMessageType .kInvalidRequest s := by
  rw [executeWriteSingle, run_withScopeMetrics, hreq]
  rfl

/-- **A single write** whose arguments are accepted. -/
theorem run_executeWriteSingle {kind : WriteKind} {address : UInt16} {value : kind.T}
    {s : CallState σ Unit} {request : kind.Single}
    (hreq : SingleMessage.create kind kind.singleCode address value = .ok request) :
    (executeWriteSingle t kind address value).run s
      = finished kind.singleMessageType t request.encode s (fun (_ : kind.Single) out => out)
          (received t request.encode s.transport
            (SingleMessage.deserialize kind kind.singleCode)) := by
  rw [executeWriteSingle, run_withScopeMetrics, hreq, valueOr, pure_bind,
    run_transact_bind request.writes_serialize (by simp [kMaxPduSize])]
  rfl

theorem run_executeWriteMultiple_of_error {kind : WriteKind} {address : UInt16}
    {values : List kind.T} {s : CallState σ Unit} {e : ParseError}
    (hreq : Request.WriteMultiple.create kind kind.multipleCode kind.maxQuantity address values
      = .error e) :
    (executeWriteMultiple t kind address values).run s
      = refused kind.multipleMessageType .kInvalidRequest s := by
  rw [executeWriteMultiple, run_withScopeMetrics, hreq]
  rfl

theorem writes_multipleRequest {kind : WriteKind} (request : kind.MultipleRequest) :
    Writes request.serialize request.encode ∧ request.encode.length ≤ kMaxPduSize := by
  have hmax := kind.payloadSize_maxQuantity_le
  have hfit : kind.payloadSize kind.maxQuantity.toNat ≤ 255 := by omega
  have hsize := (kind.payloadSize_mono request.length_le).trans hmax
  refine ⟨request.writes_serialize hfit, ?_⟩
  rw [request.length_encode hfit, Request.WriteMultiple.getEncodedSize,
    request.toNat_getByteCount hfit, kMaxPduSize]
  omega

/-- **A multiple write** whose arguments are accepted. -/
theorem run_executeWriteMultiple {kind : WriteKind} {address : UInt16} {values : List kind.T}
    {s : CallState σ Unit} {request : kind.MultipleRequest}
    (hreq : Request.WriteMultiple.create kind kind.multipleCode kind.maxQuantity address values
      = .ok request) :
    (executeWriteMultiple t kind address values).run s
      = finished kind.multipleMessageType t request.encode s
          (fun (_ : kind.MultipleResponse) out => out)
          (received t request.encode s.transport
            (RangeMessage.deserialize kind.multipleCode kind.maxQuantity)) := by
  obtain ⟨hser, hlen⟩ := writes_multipleRequest request
  rw [executeWriteMultiple, run_withScopeMetrics, hreq, valueOr, pure_bind,
    run_transact_bind hser hlen]
  rfl

end Modbus
