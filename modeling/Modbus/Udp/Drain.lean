import Modbus.Udp.Acceptance
import Modbus.Udp.Failures

/-!
# Draining

Before it sends anything a call takes all that is pending off its socket, and of what it takes
it only looks at whether there was something.  So it makes no difference what was pending: two
calls that find other datagrams on the socket go on from the same state.

* `Queues`: what `RecvNoblock` is relied on for.  The other operations may do anything, such as
  let any datagrams arrive.
* `call_forgets_pending`: a call goes as it would have gone with nothing pending.
-/

namespace Modbus

namespace UdpClient

open Phase Span

variable {σ : Type} {client : UdpClient} {ops : SocketOps σ} {req out adu : Bytes} {s s' s₁ s₂ : σ}

/-! ### The frame of a call -/

/-- A call hands `adu` to `SendAllTo`. -/
def Transmits (client : UdpClient) (ops : SocketOps σ) (c : Phase × σ) (adu : Bytes) : Prop :=
  ∃ n out s, (client.operate ops)^[n] c = (.sendAllTo adu out, s)

theorem transmits_recvNoblock {r : IoResult (Option Bytes)}
    (h : ops.recvNoblock RtuFrame.kMaxFrameSize s = (r, s')) :
    Transmits client ops (.recvNoblock req out, s) adu ↔
      Transmits client ops (client.onRecvNoblock req out r, s') adu := by
  have hstep : client.operate ops (.recvNoblock req out, s)
      = (client.onRecvNoblock req out r, s') := by rw [operate, h]
  constructor
  · intro h'
    obtain ⟨n, out', t, hn⟩ := h'
    cases n with
    | zero => cases hn
    | succ n => exact ⟨n, out', t, hstep ▸ hn⟩
  · intro h'
    obtain ⟨n, out', t, hn⟩ := h'
    refine ⟨n + 1, out', t, ?_⟩
    rw [Function.iterate_succ_apply, hstep, hn]

theorem transmits_of_drained (h : Drained ops s s') :
    Transmits client ops (start req out, s) adu ↔
      Transmits client ops (client.onDrained req out, s') adu := by
  induction h with
  | empty h => rw [start, transmits_recvNoblock h, onRecvNoblock]
  | datagram h rest ih => rw [start, transmits_recvNoblock h, onRecvNoblock, ← ih, start]

/-! ### Two calls -/

/-- A call does not tell two states of its socket apart: it ends in the same way, with the same
bytes in its buffer, and sends the same frame. -/
structure SameCall (client : UdpClient) (ops : SocketOps σ) (req out : Bytes) (s₁ s₂ : σ) :
    Prop where
  ends : ∀ outcome out', Ends client ops (start req out, s₁) outcome out' ↔
    Ends client ops (start req out, s₂) outcome out'
  transmits : ∀ adu, Transmits client ops (start req out, s₁) adu ↔
    Transmits client ops (start req out, s₂) adu

/-- **Calls that are drained to the same state go the same way** from there. -/
theorem sameCall_of_drained (client : UdpClient) (req out : Bytes) (h₁ : Drained ops s₁ s')
    (h₂ : Drained ops s₂ s') : SameCall client ops req out s₁ s₂ where
  ends _ _ := (ends_of_drained h₁).trans (ends_of_drained h₂).symm
  transmits _ := (transmits_of_drained h₁).trans (transmits_of_drained h₂).symm

/-! ### A queue of datagrams -/

/-- `state queue` is a state of the socket with the datagrams of `queue` pending.
`RecvNoblock` takes one of them, as much of it as fits, and finds none only when there
is none. -/
structure Queues (ops : SocketOps σ) (state : List Bytes → σ) : Prop where
  empty : ∀ size, ops.recvNoblock size (state []) = (.ok none, state [])
  datagram : ∀ size d queue,
    ops.recvNoblock size (state (d :: queue)) = (.ok (some (d.take size)), state queue)

/-- **The drain loop ends**, whatever is pending, and nothing is pending then. -/
theorem Queues.drained {state : List Bytes → σ} (h : Queues ops state) (queue : List Bytes) :
    Drained ops (state queue) (state []) := by
  induction queue with
  | nil => exact .empty (h.empty _)
  | cons d queue ih => exact .datagram (h.datagram _ d queue) ih

/-- **A call goes as if nothing had been pending.** -/
theorem call_forgets_pending (client : UdpClient) {σ : Type} {ops : SocketOps σ}
    {state : List Bytes → σ} (h : Queues ops state) (req out : Bytes) (queue : List Bytes) :
    Drained ops (state queue) (state []) ∧
      SameCall client ops req out (state queue) (state []) ∧
      ∃ result out', Ends client ops (start req out, state queue) (.returned result) out' ∧
        Ends client ops (start req out, state []) (.returned result) out' := by
  have hdrained := h.drained queue
  have hsame := sameCall_of_drained client req out hdrained (h.drained [])
  refine ⟨hdrained, hsame, ?_⟩
  obtain ⟨result, out', hends⟩ := onDrained_returns client ops req out (state [])
  have hpending := (ends_of_drained hdrained).mpr hends
  exact ⟨result, out', hpending, (hsame.ends _ _).mp hpending⟩

/-- The operations of a socket on which `answer` arrives when something has been sent. -/
def replyingOps (answer : Bytes) : SocketOps (List Bytes) where
  recvNoblock size queue :=
    match queue with
    | [] => (.ok none, [])
    | d :: queue => (.ok (some (d.take size)), queue)
  sendAllTo requestAdu queue := (.ok requestAdu.length, queue ++ [answer])
  recvSome size queue :=
    match queue with
    | [] => (.ioTimeout, [])
    | d :: queue => (.ok (d.take size), queue)

theorem queues_replyingOps (answer : Bytes) : Queues (replyingOps answer) id where
  empty _ := rfl
  datagram _ _ _ := rfl

theorem ends_replyingOps (client : UdpClient) {pdu : Bytes} (hreq : ¬ req.length > kMaxPduSize)
    (hpdu : ¬ pdu.length > kMaxPduSize) (hout : pdu.length ≤ out.length) :
    Ends client (replyingOps (RtuFrame.encode client.crc ⟨client.slaveId, pdu, hpdu⟩))
      (start req out, []) (.returned (.ok pdu.length)) (copyTo out 0 pdu) := by
  have hanswered : client.Answered
      (replyingOps (RtuFrame.encode client.crc ⟨client.slaveId, pdu, hpdu⟩)) req
      (RtuFrame.encode client.crc ⟨client.slaveId, pdu, hpdu⟩) [] :=
    ⟨_, [], _, [], ⟨hreq, rfl⟩, .empty rfl, rfl, rfl⟩
  rw [ends_of_answered hanswered, RtuFrame.take_encode]
  exact client.onResponse_encode hpdu hout

/-- A frame that comes late, an empty datagram and one that is longer than any frame are
pending, and the call returns what is answered. -/
theorem call_forgets_pending_stale :
    Ends ⟨1, bitwiseCrc⟩
      (replyingOps (RtuFrame.encode bitwiseCrc ⟨1, [0x12, 0x21, 0x42], by decide⟩))
      (start [3, 0, 0, 1] [0, 0, 0, 0],
        [RtuFrame.encode bitwiseCrc ⟨1, [0x99, 0x99, 0x99], by decide⟩, [],
          List.replicate 300 0])
      (.returned (.ok 3)) [0x12, 0x21, 0x42, 0] := by
  obtain ⟨_, hsame, _⟩ := call_forgets_pending ⟨1, bitwiseCrc⟩ (queues_replyingOps
    (RtuFrame.encode bitwiseCrc ⟨1, [0x12, 0x21, 0x42], by decide⟩)) [3, 0, 0, 1] [0, 0, 0, 0]
    [RtuFrame.encode bitwiseCrc ⟨1, [0x99, 0x99, 0x99], by decide⟩, [], List.replicate 300 0]
  refine (hsame.ends _ _).mpr ?_
  have hreq : ¬ ([3, 0, 0, 1] : Bytes).length > kMaxPduSize := by decide
  have hpdu : ¬ ([0x12, 0x21, 0x42] : Bytes).length > kMaxPduSize := by decide
  exact ends_replyingOps ⟨1, bitwiseCrc⟩ hreq hpdu (by decide : 3 ≤ 4)

end UdpClient

end Modbus
