import Modbus.Client.Read
import Modbus.Client.Requests
import Modbus.Udp.Operations

/-!
# Calls that fail

What a failed call leaves behind, and which failures of the socket it turns into an error
of its own.

* `failures_leave_buffers`: nothing is written to a buffer before a call succeeds.
* `handlesFailures_iff`: an exception gets out if it is thrown in the drain loop.
-/

namespace Modbus

/-! ### What is left behind -/

/-- A read that returns an error leaves its buffer alone, and an error of the transport is
the one that it returns. -/
def ReadOp.FailsCleanly {σ : Type} (t : Transport σ) (s : σ) (op : ReadOp)
    (address quantity : UInt16) (cells : List op.T) : Prop :=
  (∀ e, (Call.read op address quantity cells).result t s = .error (.error e) →
    (op.finalState t s address quantity cells).out = ⟨cells, []⟩) ∧
  (∀ req e, (Call.read op address quantity cells).Sends req →
    (t.send req s).outcome = .returned (.error e) →
      (Call.read op address quantity cells).result t s = .error (.error e))

/-- A call that returns an error leaves its buffer alone. -/
def UdpClient.FailsCleanly {σ : Type} (client : UdpClient) (ops : SocketOps σ) (req out : Bytes)
    (s : σ) : Prop :=
  ∀ e out', Ends client ops (start req out, s) (.returned (.error e)) out' → out' = out

/-- **A failed call leaves its caller's data alone**, at both layers. -/
theorem failures_leave_buffers :
    (∀ (σ : Type) (t : Transport σ) (s : σ) (op : ReadOp) (address quantity : UInt16)
      (cells : List op.T), op.FailsCleanly t s address quantity cells) ∧
    (∀ (client : UdpClient) (σ : Type) (ops : SocketOps σ) (req out : Bytes) (s : σ),
      client.FailsCleanly ops req out s) := by
  refine ⟨fun σ t s op address quantity cells => ⟨fun e he => ?_, fun req e hsends he => ?_⟩,
    fun client σ ops req out s e out' hends => ?_⟩
  · refine ReadOp.finalState_out_of_ne_ok (fun hok => ?_)
    rw [hok] at he
    cases he
  · exact Call.result_of_transport_error hsends he
  · exact hends.unchanged (fun n hn => by cases hn)

/-! ### Failures of the socket -/

/-- What a socket operation throws: `IoTimeout`, or another `IoException`. -/
inductive IoFailure
  | timeout
  | other
deriving DecidableEq, Repr

def IoFailure.clientError : IoFailure → ClientError
  | timeout => .kTimeout
  | other => .kTransportError

def IoResult.failure {α : Type} : IoResult α → Option IoFailure
  | .ok _ => none
  | .ioTimeout => some .timeout
  | .ioException => some .other

namespace UdpClient

open Phase

variable {σ : Type}

/-- What the next operation of a call throws, if it throws. -/
def failure (ops : SocketOps σ) : Phase × σ → Option IoFailure
  | (.recvNoblock _ _, s) => (ops.recvNoblock RtuFrame.kMaxFrameSize s).1.failure
  | (.sendAllTo requestAdu _, s) => (ops.sendAllTo requestAdu s).1.failure
  | (.recvSome _, s) => (ops.recvSome RtuFrame.kMaxFrameSize s).1.failure
  | (.done _ _, _) => none

/-- A call returns; an operation that throws makes it return the error for it; and so does
a `SendAllTo` that sends less than the frame. -/
structure HandlesFailures (client : UdpClient) (ops : SocketOps σ) (req out : Bytes) (s : σ) :
    Prop where
  returns : ∃ result out', Ends client ops (start req out, s) (.returned result) out'
  throws : ∀ n thrown, failure ops ((client.operate ops)^[n] (start req out, s)) = some thrown →
    ∃ out', Ends client ops (start req out, s) (.returned (.error thrown.clientError)) out'
  short : ∀ n adu out₁ s₁ k s₂,
    (client.operate ops)^[n] (start req out, s) = (.sendAllTo adu out₁, s₁) →
      ops.sendAllTo adu s₁ = (.ok k, s₂) → k < adu.length →
        ∃ out', Ends client ops (start req out, s) (.returned (.error .kTransportError)) out'

variable {client : UdpClient} {ops : SocketOps σ} {req out : Bytes} {s : σ}

/-! What a call makes of a failure. -/

theorem onRecvNoblock_of_failure {r : IoResult (Option Bytes)} {thrown : IoFailure}
    (h : r.failure = some thrown) : client.onRecvNoblock req out r = .done .threw out := by
  cases r with
  | ok r => cases h
  | ioTimeout => rfl
  | ioException => rfl

theorem onSendAllTo_of_failure {adu : Bytes} {r : IoResult Nat} {thrown : IoFailure}
    (h : r.failure = some thrown) : onSendAllTo adu out r = fail thrown.clientError out := by
  cases r with
  | ok k => cases h
  | ioTimeout =>
    cases h
    rfl
  | ioException =>
    cases h
    rfl

theorem onRecvSome_of_failure {r : IoResult Bytes} {thrown : IoFailure}
    (h : r.failure = some thrown) : client.onRecvSome out r = fail thrown.clientError out := by
  cases r with
  | ok responseSpan => cases h
  | ioTimeout =>
    cases h
    rfl
  | ioException =>
    cases h
    rfl

/-! After the drain a call has two operations left, and returns whatever they do. -/

theorem recvSome_returns (client : UdpClient) (ops : SocketOps σ) (out : Bytes) (s : σ) :
    ∃ result out', Ends client ops (.recvSome out, s) (.returned result) out' := by
  rcases hop : ops.recvSome RtuFrame.kMaxFrameSize s with ⟨r, s'⟩
  simp only [ends_recvSome hop]
  cases r with
  | ok responseSpan =>
    obtain ⟨result, out', hdone⟩ := client.onResponse_returns out responseSpan
    rw [onRecvSome, hdone]
    exact ⟨result, out', ends_done.mpr ⟨rfl, rfl⟩⟩
  | ioTimeout => exact ⟨_, _, ends_done.mpr ⟨rfl, rfl⟩⟩
  | ioException => exact ⟨_, _, ends_done.mpr ⟨rfl, rfl⟩⟩

theorem sendAllTo_returns (client : UdpClient) (ops : SocketOps σ) (adu out : Bytes) (s : σ) :
    ∃ result out', Ends client ops (.sendAllTo adu out, s) (.returned result) out' := by
  rcases hop : ops.sendAllTo adu s with ⟨r, s'⟩
  simp only [ends_sendAllTo hop]
  cases r with
  | ok k =>
    rw [onSendAllTo]
    split
    · exact ⟨_, _, ends_done.mpr ⟨rfl, rfl⟩⟩
    · exact recvSome_returns client ops out s'
  | ioTimeout => exact ⟨_, _, ends_done.mpr ⟨rfl, rfl⟩⟩
  | ioException => exact ⟨_, _, ends_done.mpr ⟨rfl, rfl⟩⟩

theorem onDrained_returns (client : UdpClient) (ops : SocketOps σ) (req out : Bytes) (s : σ) :
    ∃ result out', Ends client ops (client.onDrained req out, s) (.returned result) out' := by
  unfold onDrained
  split
  · exact ⟨_, _, ends_done.mpr ⟨rfl, rfl⟩⟩
  · split
    · exact ⟨_, _, ends_done.mpr ⟨rfl, rfl⟩⟩
    · exact sendAllTo_returns client ops _ out s

/-- **Failures are handled** if and only if the drain loop finds the socket empty before an
operation of it throws. -/
theorem handlesFailures_iff (client : UdpClient) (ops : SocketOps σ) (req out : Bytes) (s : σ) :
    HandlesFailures client ops req out s ↔ ∃ s', Drained ops s s' := by
  constructor
  · intro h
    obtain ⟨⟨result, out', hends⟩, _, _⟩ := h
    exact hends.drained
  · intro h
    obtain ⟨s', hdrained⟩ := h
    have hreturns : ∃ result out', Ends client ops (start req out, s) (.returned result) out' := by
      simp only [ends_of_drained hdrained]
      exact onDrained_returns client ops req out s'
    refine ⟨hreturns, fun n thrown hthrown => ?_, fun n adu out₁ s₁ k s₂ hn hsend hk => ?_⟩
    · rcases hn : (client.operate ops)^[n] (start req out, s) with ⟨phase, s₁⟩
      have hends : ∀ {outcome out'}, Ends client ops (phase, s₁) outcome out' ↔
          Ends client ops (start req out, s) outcome out' := hn ▸ ends_iterate n
      rw [hn] at hthrown
      cases phase with
      | recvNoblock req' out₁ =>
        -- it would have got out of the call
        obtain ⟨result, out', hreturned⟩ := hreturns
        rw [← hends, ends_recvNoblock rfl, onRecvNoblock_of_failure hthrown] at hreturned
        cases (ends_done.mp hreturned).1
      | sendAllTo adu out₁ =>
        refine ⟨out₁, hends.mp ?_⟩
        rw [ends_sendAllTo rfl, onSendAllTo_of_failure hthrown]
        exact ends_done.mpr ⟨rfl, rfl⟩
      | recvSome out₁ =>
        refine ⟨out₁, hends.mp ?_⟩
        rw [ends_recvSome rfl, onRecvSome_of_failure hthrown]
        exact ends_done.mpr ⟨rfl, rfl⟩
      | done outcome out₁ => cases hthrown
    · refine ⟨out₁, (ends_iterate n).mp ?_⟩
      rw [hn, ends_sendAllTo hsend, onSendAllTo, if_pos (by omega)]
      exact ends_done.mpr ⟨rfl, rfl⟩

/-- The operations of a socket whose first `RecvNoblock` throws. -/
def failingOps : SocketOps Unit where
  recvNoblock _ _ := (.ioException, ())
  sendAllTo requestAdu _ := (.ok requestAdu.length, ())
  recvSome _ _ := (.ioTimeout, ())

/-- `IoException` from the drain loop gets out of the call. -/
theorem not_handlesFailures_drain :
    Ends ⟨1, bitwiseCrc⟩ failingOps (start [3, 0, 0, 0, 1] Transport.emptyPdu, ()) .threw
        Transport.emptyPdu ∧
      ¬ HandlesFailures ⟨1, bitwiseCrc⟩ failingOps [3, 0, 0, 0, 1] Transport.emptyPdu () := by
  have hthrew : Ends ⟨1, bitwiseCrc⟩ failingOps (start [3, 0, 0, 0, 1] Transport.emptyPdu, ())
      .threw Transport.emptyPdu := ⟨1, (), rfl⟩
  refine ⟨hthrew, fun h => ?_⟩
  obtain ⟨result, out', hreturned⟩ := h.returns
  cases (hthrew.unique hreturned).1

end UdpClient

end Modbus
