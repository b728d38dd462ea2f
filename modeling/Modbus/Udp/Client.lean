import Modbus.Client.Transport
import Modbus.RtuFrame

/-!
# `UdpClient`

`SendRawRequest` is cut at its socket operations.  Between two of them it computes
without looking at the socket, so a call is a `Phase`, the operation it makes next,
and one function for each operation says how the result is gone on with.  The same
functions make up a whole call over a `Socket` (`sendRawRequest`) and the steps of
several calls on a network.

* `Phase.Leads`: what an operation can lead to, whatever comes of it.
* `sendRawRequest_isDone`: with a finite queue the drain loop ends, and so does the call.
* `UdpClient.transport`: the call keeps the laws of a `Transport`.
-/

namespace Modbus

open Span

/-- What an operation of `userver::engine::io::Socket` comes to. -/
inductive IoResult (α : Type)
  | ok (a : α)
  | ioTimeout
  | ioException

/-- The members that a call reads, and the checksum of its frames. -/
structure UdpClient where
  slaveId : UInt8
  crc : CrcType

namespace UdpClient

/-- Where a `SendRawRequest` call stands: what it does next, or how it has ended. -/
inductive Phase
  | recvNoblock (requestPdu responsePduOut : Bytes)
  | sendAllTo (requestAdu responsePduOut : Bytes)
  | recvSome (responsePduOut : Bytes)
  | done (outcome : Outcome) (responsePduOut : Bytes)

namespace Phase

/-- `return userver::utils::unexpected{e}` -/
def fail (e : ClientError) (responsePduOut : Bytes) : Phase :=
  .done (.returned (.error e)) responsePduOut

end Phase

open Phase

/-! ### Between two operations -/

/-- A call starts with `DrainSocket`. -/
def start (requestPdu responsePduOut : Bytes) : Phase := .recvNoblock requestPdu responsePduOut

/-- After `DrainSocket`. -/
def onDrained (client : UdpClient) (requestPdu responsePduOut : Bytes) : Phase :=
  match RtuFrame.create client.slaveId requestPdu with
  | .error _ => fail .kInvalidRequest responsePduOut
  | .ok requestAdu =>
    match (requestAdu.serialize client.crc).run RtuFrame.emptyFrame with
    | .error _ _ => fail .kInvalidRequest responsePduOut
    | .ok _ buffer => .sendAllTo (buffer.take requestAdu.getFrameSize) responsePduOut

/-- `DrainSocket` is called before the `try`. -/
def onRecvNoblock (client : UdpClient) (requestPdu responsePduOut : Bytes) :
    IoResult (Option Bytes) → Phase
  | .ok (some _) => .recvNoblock requestPdu responsePduOut
  | .ok none => client.onDrained requestPdu responsePduOut
  | .ioTimeout => .done .threw responsePduOut
  | .ioException => .done .threw responsePduOut

def onSendAllTo (requestAdu responsePduOut : Bytes) : IoResult Nat → Phase
  | .ok n =>
    if n ≠ requestAdu.length then fail .kTransportError responsePduOut
    else .recvSome responsePduOut
  | .ioTimeout => fail .kTimeout responsePduOut
  | .ioException => fail .kTransportError responsePduOut

/-- The received bytes, after the `try`. -/
def onResponse (client : UdpClient) (responsePduOut responseSpan : Bytes) : Phase :=
  match (RtuFrame.deserialize client.crc).run responseSpan with
  | .error _ _ => fail .kInvalidResponse responsePduOut
  | .ok responseAdu _ =>
    if responseAdu.slaveId ≠ client.slaveId then fail .kInvalidResponse responsePduOut
    else if responsePduOut.length < responseAdu.pdu.length then fail .kBufferTooSmall responsePduOut
    else .done (.returned (.ok responseAdu.pdu.length)) (copyTo responsePduOut 0 responseAdu.pdu)

def onRecvSome (client : UdpClient) (responsePduOut : Bytes) : IoResult Bytes → Phase
  | .ok responseSpan => client.onResponse responsePduOut responseSpan
  | .ioTimeout => fail .kTimeout responsePduOut
  | .ioException => fail .kTransportError responsePduOut

theorem onDrained_of_le (client : UdpClient) {req : Bytes} (h : ¬ req.length > kMaxPduSize)
    (out : Bytes) : client.onDrained req out
      = .sendAllTo (RtuFrame.encode client.crc ⟨client.slaveId, req, h⟩) out := by
  obtain ⟨rest, buffer, hrun, htake⟩ :=
    RtuFrame.run_serialize_emptyFrame client.crc ⟨client.slaveId, req, h⟩
  have hcreate : RtuFrame.create client.slaveId req = .ok ⟨client.slaveId, req, h⟩ := dif_neg h
  simp only [onDrained, hcreate, hrun, htake]

/-- **A response is accepted** when it is a frame of the client's slave id and its PDU
fits. -/
theorem onResponse_encode (client : UdpClient) {pdu out : Bytes} (h : ¬ pdu.length > kMaxPduSize)
    (hout : pdu.length ≤ out.length) :
    client.onResponse out (RtuFrame.encode client.crc ⟨client.slaveId, pdu, h⟩)
      = .done (.returned (.ok pdu.length)) (copyTo out 0 pdu) := by
  simp only [onResponse, RtuFrame.deserialize_encode, ne_eq, not_true_eq_false, if_false,
    if_neg (Nat.not_lt.mpr hout)]

/-! ### What a call returns -/

/-- The PDU that a call has returned with success. -/
def Phase.returned : Phase → Option Bytes
  | .done (.returned (.ok n)) responsePduOut => some (responsePduOut.take n)
  | _ => none

theorem returned_onDrained (client : UdpClient) (req out : Bytes) :
    (client.onDrained req out).returned = none := by
  unfold onDrained
  split
  · rfl
  · split <;> rfl

theorem returned_onResponse_encode (client : UdpClient) {pdu out p : Bytes}
    (h : ¬ pdu.length > kMaxPduSize)
    (hp : (client.onResponse out (RtuFrame.encode client.crc ⟨client.slaveId, pdu, h⟩)).returned
      = some p) : p = pdu := by
  by_cases hout : pdu.length ≤ out.length
  · rw [client.onResponse_encode h hout] at hp
    simp only [Phase.returned, copyTo, List.take_zero, List.nil_append, Option.some.injEq] at hp
    rw [← hp, List.take_left]
  · simp only [onResponse, RtuFrame.deserialize_encode, ne_eq, not_true_eq_false, if_false,
      if_pos (Nat.not_le.mp hout)] at hp
    cases hp

/-! ### A call over a socket -/

/-- The operations of `socket_`, with the size of the buffer where they receive.  They may do
anything, but for one law: `recvNoblock_lt` says that `pending` bounds what a drain can find, so
that the drain loop ends.  What is said of every `Socket` rests on it; `SocketOps` has no law. -/
structure Socket (σ : Type) where
  recvNoblock : Nat → σ → IoResult (Option Bytes) × σ
  sendAllTo : Bytes → σ → IoResult Nat × σ
  recvSome : Nat → σ → IoResult Bytes × σ
  pending : σ → Nat
  recvNoblock_lt : ∀ size s d,
    (recvNoblock size s).1 = .ok (some d) → pending (recvNoblock size s).2 < pending s

variable {σ : Type}

def next (client : UdpClient) (socket : Socket σ) : Phase → σ → Phase × σ
  | .recvNoblock requestPdu out, s =>
    let (r, s') := socket.recvNoblock RtuFrame.kMaxFrameSize s
    (client.onRecvNoblock requestPdu out r, s')
  | .sendAllTo requestAdu out, s =>
    let (r, s') := socket.sendAllTo requestAdu s
    (onSendAllTo requestAdu out r, s')
  | .recvSome out, s =>
    let (r, s') := socket.recvSome RtuFrame.kMaxFrameSize s
    (client.onRecvSome out r, s')
  | .done outcome out, s => (.done outcome out, s)

def runPhases (client : UdpClient) (socket : Socket σ) : Nat → Phase → σ → Phase × σ
  | 0, phase, s => (phase, s)
  | n + 1, phase, s =>
    runPhases client socket n (client.next socket phase s).1 (client.next socket phase s).2

/-- A whole call: the drain finds at most what is pending, and there are three more
operations. -/
def sendRawRequest (client : UdpClient) (socket : Socket σ) (requestPdu responsePduOut : Bytes)
    (s : σ) : Phase × σ :=
  client.runPhases socket (socket.pending s + 3) (start requestPdu responsePduOut) s

/-! ### What an operation leads to -/

variable {client : UdpClient} {socket : Socket σ}

theorem onResponse_returns (client : UdpClient) (out responseSpan : Bytes) :
    ∃ result out', client.onResponse out responseSpan = .done (.returned result) out' := by
  unfold onResponse
  split
  · exact ⟨_, _, rfl⟩
  · split
    · exact ⟨_, _, rfl⟩
    · split <;> exact ⟨_, _, rfl⟩

theorem onResponse_isDone (client : UdpClient) (out responseSpan : Bytes) :
    ∃ outcome out', client.onResponse out responseSpan = .done outcome out' := by
  obtain ⟨result, out', h⟩ := client.onResponse_returns out responseSpan
  exact ⟨_, out', h⟩

/-- What a call can go on with after an operation.  A request is refused only if it is too long,
and the buffer changes only when the call succeeds. -/
inductive Phase.Leads : Phase → Phase → Prop
  | drains (req out : Bytes) : Leads (.recvNoblock req out) (.recvNoblock req out)
  | drainThrows (req out : Bytes) : Leads (.recvNoblock req out) (.done .threw out)
  | refuses {req : Bytes} (out : Bytes) (h : req.length > kMaxPduSize) :
      Leads (.recvNoblock req out) (fail .kInvalidRequest out)
  | drained (req adu out : Bytes) : Leads (.recvNoblock req out) (.sendAllTo adu out)
  | sendFails (adu out : Bytes) {e : ClientError} (h : e ≠ .kInvalidRequest) :
      Leads (.sendAllTo adu out) (fail e out)
  | sent (adu out : Bytes) : Leads (.sendAllTo adu out) (.recvSome out)
  | receiveFails (out : Bytes) {e : ClientError} (h : e ≠ .kInvalidRequest) :
      Leads (.recvSome out) (fail e out)
  | returns {out pdu : Bytes} (h : pdu.length ≤ out.length) :
      Leads (.recvSome out) (.done (.returned (.ok pdu.length)) (copyTo out 0 pdu))
  | done (outcome : Outcome) (out : Bytes) : Leads (.done outcome out) (.done outcome out)

theorem leads_onRecvNoblock (req out : Bytes) (r : IoResult (Option Bytes)) :
    (Phase.recvNoblock req out).Leads (client.onRecvNoblock req out r) := by
  cases r with
  | ok r =>
    cases r with
    | none =>
      rw [onRecvNoblock]
      by_cases h : req.length > kMaxPduSize
      · rw [onDrained, RtuFrame.create, dif_pos h]
        exact .refuses out h
      · rw [client.onDrained_of_le h]
        exact .drained req _ out
    | some d => exact .drains req out
  | ioTimeout => exact .drainThrows req out
  | ioException => exact .drainThrows req out

theorem leads_onSendAllTo (adu out : Bytes) (r : IoResult Nat) :
    (Phase.sendAllTo adu out).Leads (onSendAllTo adu out r) := by
  cases r with
  | ok k =>
    rw [onSendAllTo]
    split
    · exact .sendFails adu out (by decide)
    · exact .sent adu out
  | ioTimeout => exact .sendFails adu out (by decide)
  | ioException => exact .sendFails adu out (by decide)

theorem leads_onRecvSome (client : UdpClient) (out : Bytes) (r : IoResult Bytes) :
    (Phase.recvSome out).Leads (client.onRecvSome out r) := by
  cases r with
  | ok responseSpan =>
    rw [onRecvSome, onResponse]
    split
    · exact .receiveFails out (by decide)
    · split
      · exact .receiveFails out (by decide)
      · split
        · exact .receiveFails out (by decide)
        · rename_i hroom
          exact .returns (Nat.not_lt.mp hroom)
  | ioTimeout => exact .receiveFails out (by decide)
  | ioException => exact .receiveFails out (by decide)

theorem leads_next (phase : Phase) (s : σ) : phase.Leads (client.next socket phase s).1 := by
  cases phase with
  | recvNoblock req out => exact leads_onRecvNoblock req out _
  | sendAllTo adu out => exact leads_onSendAllTo adu out _
  | recvSome out => exact client.leads_onRecvSome out _
  | done outcome out => exact .done outcome out

/-! ### A call ends -/

def Phase.IsDone : Phase → Prop
  | .done _ _ => True
  | _ => False

def operationsLeft (socket : Socket σ) : Phase × σ → Nat
  | (.recvNoblock _ _, s) => socket.pending s + 3
  | (.sendAllTo _ _, _) => 2
  | (.recvSome _, _) => 1
  | (.done _ _, _) => 0

/-- One operation leaves fewer: in the drain loop there is a datagram less. -/
theorem operationsLeft_next (client : UdpClient) (socket : Socket σ) (phase : Phase) (s : σ) :
    operationsLeft socket (client.next socket phase s) ≤ operationsLeft socket (phase, s) - 1 := by
  cases phase with
  | recvNoblock req out =>
    show operationsLeft socket (client.onRecvNoblock req out
      (socket.recvNoblock RtuFrame.kMaxFrameSize s).1, _) ≤ socket.pending s + 2
    cases hr : (socket.recvNoblock RtuFrame.kMaxFrameSize s).1 with
    | ok r =>
      cases r with
      | none =>
        rw [onRecvNoblock, onDrained]
        split
        · exact Nat.zero_le _
        · split
          · exact Nat.zero_le _
          · exact Nat.le_add_left _ _
      | some d =>
        have hlt := socket.recvNoblock_lt _ s d hr
        exact Nat.add_le_add_right hlt 2
    | ioTimeout => exact Nat.zero_le _
    | ioException => exact Nat.zero_le _
  | sendAllTo adu out =>
    have hleads := leads_onSendAllTo adu out (socket.sendAllTo adu s).1
    show operationsLeft socket (onSendAllTo adu out (socket.sendAllTo adu s).1, _) ≤ 1
    generalize onSendAllTo adu out (socket.sendAllTo adu s).1 = phase at hleads ⊢
    cases hleads with
    | sendFails _ _ _ => exact Nat.zero_le _
    | sent _ _ => exact Nat.le_refl _
  | recvSome out =>
    have hleads := client.leads_onRecvSome out (socket.recvSome RtuFrame.kMaxFrameSize s).1
    show operationsLeft socket (client.onRecvSome out
      (socket.recvSome RtuFrame.kMaxFrameSize s).1, _) ≤ 0
    generalize client.onRecvSome out (socket.recvSome RtuFrame.kMaxFrameSize s).1 = phase
      at hleads ⊢
    cases hleads with
    | receiveFails _ _ => exact Nat.le_refl _
    | returns _ => exact Nat.le_refl _
  | done outcome out => exact Nat.zero_le _

theorem runPhases_isDone (n : Nat) (phase : Phase) (s : σ)
    (h : operationsLeft socket (phase, s) ≤ n) : (client.runPhases socket n phase s).1.IsDone := by
  induction n generalizing phase s with
  | zero =>
    cases phase with
    | done outcome out => trivial
    | _ => exact absurd h (by simp [operationsLeft])
  | succ n ih =>
    have hleft := client.operationsLeft_next socket phase s
    exact ih _ _ (hleft.trans (Nat.sub_le_of_le_add h))

/-- **The drain loop ends**, after as many passes as datagrams are pending, and so does
the call. -/
theorem sendRawRequest_isDone (client : UdpClient) (socket : Socket σ) (req out : Bytes) (s : σ) :
    (client.sendRawRequest socket req out s).1.IsDone :=
  runPhases_isDone _ _ s (Nat.le_refl _)

/-! ### The laws of a transport -/

/-- The span that was passed keeps its length `n`, and no more is returned. -/
def Phase.Within (n : Nat) : Phase → Prop
  | .recvNoblock _ out => out.length = n
  | .sendAllTo _ out => out.length = n
  | .recvSome out => out.length = n
  | .done outcome out => out.length = n ∧ ∀ k, outcome = .returned (.ok k) → k ≤ n

theorem fail_within {n : Nat} {out : Bytes} (h : out.length = n) (e : ClientError) :
    (fail e out).Within n := ⟨h, fun _ hk => by cases hk⟩

theorem Phase.Leads.within {n : Nat} {phase phase' : Phase} (hleads : phase.Leads phase')
    (h : phase.Within n) : phase'.Within n := by
  cases hleads with
  | drains req out => exact h
  | drainThrows req out => exact ⟨h, fun _ hk => by cases hk⟩
  | refuses out _ => exact fail_within h _
  | drained req adu out => exact h
  | sendFails adu out _ => exact fail_within h _
  | sent adu out => exact h
  | receiveFails out _ => exact fail_within h _
  | @returns out pdu hroom =>
    have hout : out.length = n := h
    refine ⟨?_, fun k hk => ?_⟩
    · simp only [copyTo, List.length_append, List.length_take, List.length_drop]
      omega
    · cases hk
      omega
  | done outcome out => exact h

theorem runPhases_within {n : Nat} (k : Nat) : ∀ {phase : Phase}, phase.Within n → ∀ s : σ,
    (client.runPhases socket k phase s).1.Within n := by
  induction k with
  | zero => intro phase h s; exact h
  | succ k ih => intro phase h s; exact ih ((leads_next _ s).within h) _

theorem sendRawRequest_within {n : Nat} (req : Bytes) {out : Bytes} (s : σ)
    (h : out.length = n) : (client.sendRawRequest socket req out s).1.Within n :=
  runPhases_within _ (show (start req out).Within n from h) s

/-- How a call ends.  It has ended (`sendRawRequest_isDone`), so the last case is none. -/
def Phase.result (s : σ) (out : Bytes) : Phase → SendResult σ
  | .done outcome responsePduOut => ⟨outcome, responsePduOut, s⟩
  | _ => ⟨.threw, out, s⟩

theorem result_within {n : Nat} {phase : Phase} (h : phase.Within n) {out : Bytes}
    (hout : out.length = n) (s : σ) : (phase.result s out).responsePduOut.length = n ∧
      ∀ k, (phase.result s out).outcome = .returned (.ok k) → k ≤ n := by
  cases phase with
  | done outcome responsePduOut => exact h
  | _ => exact ⟨hout, fun _ hk => by cases hk⟩

/-- **`UdpClient` is a transport.** -/
def transport (client : UdpClient) (socket : Socket σ) : Transport σ where
  sendRawRequest req out s :=
    (client.sendRawRequest socket req out s).1.result (client.sendRawRequest socket req out s).2 out
  length_responsePduOut req _ s := (result_within (sendRawRequest_within req s rfl) rfl _).1
  returned_le req _ s := (result_within (sendRawRequest_within req s rfl) rfl _).2

end UdpClient

end Modbus
