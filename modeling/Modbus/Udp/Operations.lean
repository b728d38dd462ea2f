import Mathlib.Logic.Function.Iterate
import Modbus.Udp.Client

/-!
# A call over any socket operations

`Socket` comes with a law that makes the drain loop end.  Here the three operations may do
anything: return what they like, throw when they like, go on forever.

* `Finishes`: how a call ends, if it does, and the state that it leaves the socket in.  It ends in
  one way (`Finishes.unique`).
* `Ends`: the same without that state.
* `finishes_sendRawRequest`: over a `Socket` a call ends as `sendRawRequest` does.
* `Drained`: the drain loop finds the socket empty.  `ends_of_drained`: the rest of the
  call then starts from there.
* `Ends.keeps`: what every operation keeps holds at the end.
* `Ends.unchanged`: a call that does not succeed leaves its buffer alone.
-/

namespace Modbus

/-- The operations of `socket_`, with the size of the buffer where they receive. -/
structure SocketOps (σ : Type) where
  recvNoblock : Nat → σ → IoResult (Option Bytes) × σ
  sendAllTo : Bytes → σ → IoResult Nat × σ
  recvSome : Nat → σ → IoResult Bytes × σ

namespace UdpClient

open Phase

variable {σ : Type}

def Socket.ops (socket : Socket σ) : SocketOps σ :=
  ⟨socket.recvNoblock, socket.sendAllTo, socket.recvSome⟩

def operate (client : UdpClient) (ops : SocketOps σ) : Phase × σ → Phase × σ
  | (.recvNoblock requestPdu out, s) =>
    (client.onRecvNoblock requestPdu out (ops.recvNoblock RtuFrame.kMaxFrameSize s).1,
      (ops.recvNoblock RtuFrame.kMaxFrameSize s).2)
  | (.sendAllTo requestAdu out, s) =>
    (onSendAllTo requestAdu out (ops.sendAllTo requestAdu s).1, (ops.sendAllTo requestAdu s).2)
  | (.recvSome out, s) =>
    (client.onRecvSome out (ops.recvSome RtuFrame.kMaxFrameSize s).1,
      (ops.recvSome RtuFrame.kMaxFrameSize s).2)
  | (.done outcome out, s) => (.done outcome out, s)

/-- From `c` on, the call comes to an end, and leaves the socket in the state `s'`. -/
def Finishes (client : UdpClient) (ops : SocketOps σ) (c : Phase × σ) (outcome : Outcome)
    (responsePduOut : Bytes) (s' : σ) : Prop :=
  ∃ n, (client.operate ops)^[n] c = (.done outcome responsePduOut, s')

/-- From `c` on, the call comes to an end. -/
def Ends (client : UdpClient) (ops : SocketOps σ) (c : Phase × σ) (outcome : Outcome)
    (responsePduOut : Bytes) : Prop :=
  ∃ n s', (client.operate ops)^[n] c = (.done outcome responsePduOut, s')

variable {client : UdpClient} {ops : SocketOps σ} {c : Phase × σ} {outcome outcome' : Outcome}
  {req adu out out' : Bytes} {s s₁ s' s'' : σ}

theorem ends_iff_finishes : Ends client ops c outcome out ↔
    ∃ s', Finishes client ops c outcome out s' := exists_comm

/-! ### How a call ends -/

theorem iterate_done (n : Nat) (outcome : Outcome) (out : Bytes) (s : σ) :
    (client.operate ops)^[n] (.done outcome out, s) = (.done outcome out, s) :=
  Function.iterate_fixed rfl n

theorem finishes_done : Finishes client ops (.done outcome out, s) outcome' out' s' ↔
    outcome = outcome' ∧ out = out' ∧ s = s' := by
  simp only [Finishes, iterate_done, exists_const, Prod.mk.injEq, Phase.done.injEq, and_assoc]

/-- One operation does not change how a call ends. -/
theorem finishes_operate : Finishes client ops (client.operate ops c) outcome out s' ↔
    Finishes client ops c outcome out s' := by
  constructor
  · intro h'
    obtain ⟨n, h⟩ := h'
    exact ⟨n + 1, h⟩
  · intro h'
    obtain ⟨n, h⟩ := h'
    cases n with
    | zero =>
      have hc : c = (.done outcome out, s') := h
      rw [hc]
      exact ⟨0, rfl⟩
    | succ n => exact ⟨n, h⟩

theorem finishes_recvNoblock {r : IoResult (Option Bytes)}
    (h : ops.recvNoblock RtuFrame.kMaxFrameSize s = (r, s₁)) :
    Finishes client ops (.recvNoblock req out, s) outcome out' s' ↔
      Finishes client ops (client.onRecvNoblock req out r, s₁) outcome out' s' := by
  rw [← finishes_operate, operate, h]

theorem finishes_sendAllTo {r : IoResult Nat} (h : ops.sendAllTo adu s = (r, s₁)) :
    Finishes client ops (.sendAllTo adu out, s) outcome out' s' ↔
      Finishes client ops (onSendAllTo adu out r, s₁) outcome out' s' := by
  rw [← finishes_operate, operate, h]

theorem finishes_recvSome {r : IoResult Bytes}
    (h : ops.recvSome RtuFrame.kMaxFrameSize s = (r, s₁)) :
    Finishes client ops (.recvSome out, s) outcome out' s' ↔
      Finishes client ops (client.onRecvSome out r, s₁) outcome out' s' := by
  rw [← finishes_operate, operate, h]

theorem Finishes.unique (h : Finishes client ops c outcome out s')
    (h' : Finishes client ops c outcome' out' s'') :
    outcome = outcome' ∧ out = out' ∧ s' = s'' := by
  obtain ⟨n, hn⟩ := h
  induction n generalizing c with
  | zero =>
    have hc : c = (.done outcome out, s') := hn
    rw [hc] at h'
    exact finishes_done.mp h'
  | succ n ih => exact ih (finishes_operate.mpr h') hn

/-! Without the state of the socket. -/

theorem ends_done : Ends client ops (.done outcome out, s) outcome' out' ↔
    outcome = outcome' ∧ out = out' := by
  simp only [ends_iff_finishes, finishes_done, ← and_assoc, exists_and_left, exists_eq', and_true]

theorem ends_operate : Ends client ops (client.operate ops c) outcome out ↔
    Ends client ops c outcome out := by
  simp only [ends_iff_finishes, finishes_operate]

theorem ends_recvNoblock {r : IoResult (Option Bytes)}
    (h : ops.recvNoblock RtuFrame.kMaxFrameSize s = (r, s')) :
    Ends client ops (.recvNoblock req out, s) outcome out' ↔
      Ends client ops (client.onRecvNoblock req out r, s') outcome out' := by
  simp only [ends_iff_finishes, finishes_recvNoblock h]

theorem ends_sendAllTo {r : IoResult Nat} (h : ops.sendAllTo adu s = (r, s')) :
    Ends client ops (.sendAllTo adu out, s) outcome out' ↔
      Ends client ops (onSendAllTo adu out r, s') outcome out' := by
  simp only [ends_iff_finishes, finishes_sendAllTo h]

theorem ends_recvSome {r : IoResult Bytes}
    (h : ops.recvSome RtuFrame.kMaxFrameSize s = (r, s')) :
    Ends client ops (.recvSome out, s) outcome out' ↔
      Ends client ops (client.onRecvSome out r, s') outcome out' := by
  simp only [ends_iff_finishes, finishes_recvSome h]

theorem ends_iterate (n : Nat) : Ends client ops ((client.operate ops)^[n] c) outcome out ↔
    Ends client ops c outcome out := by
  induction n generalizing c with
  | zero => exact Iff.rfl
  | succ n ih => exact ih.trans ends_operate

theorem Ends.unique (h : Ends client ops c outcome out) (h' : Ends client ops c outcome' out') :
    outcome = outcome' ∧ out = out' := by
  obtain ⟨s, hs⟩ := ends_iff_finishes.mp h
  obtain ⟨s', hs'⟩ := ends_iff_finishes.mp h'
  obtain ⟨houtcome, hout, _⟩ := hs.unique hs'
  exact ⟨houtcome, hout⟩

theorem leads_operate (c : Phase × σ) : c.1.Leads (client.operate ops c).1 := by
  obtain ⟨phase, s⟩ := c
  cases phase with
  | recvNoblock req out => exact leads_onRecvNoblock req out _
  | sendAllTo adu out => exact leads_onSendAllTo adu out _
  | recvSome out => exact client.leads_onRecvSome out _
  | done outcome out => exact .done outcome out

/-- **What every operation keeps** holds at the end. -/
theorem Ends.keeps (P : Phase → Prop) (h : Ends client ops c outcome out)
    (hstep : ∀ {phase phase' : Phase}, phase.Leads phase' → P phase → P phase') (hc : P c.1) :
    P (.done outcome out) := by
  obtain ⟨n, s', h⟩ := h
  have hkept : P ((client.operate ops)^[n] c).1 :=
    Function.Iterate.rec (fun c : Phase × σ => P c.1) hc (fun c => hstep (leads_operate c)) n
  rw [h] at hkept
  exact hkept

/-! ### Over a socket -/

theorem runPhases_eq_iterate (socket : Socket σ) (n : Nat) (phase : Phase) (s : σ) :
    client.runPhases socket n phase s = (client.operate socket.ops)^[n] (phase, s) := by
  induction n generalizing phase s with
  | zero => rfl
  | succ n ih =>
    have hnext : client.operate socket.ops (phase, s) = client.next socket phase s := by
      cases phase <;> rfl
    rw [Function.iterate_succ_apply, hnext]
    exact ih _ _

/-- **Over a socket** a call ends as it does over the socket's operations. -/
theorem finishes_sendRawRequest {socket : Socket σ}
    (h : client.sendRawRequest socket req out s = (.done outcome out', s')) :
    Finishes client socket.ops (start req out, s) outcome out' s' :=
  ⟨_, (runPhases_eq_iterate socket _ _ s).symm.trans h⟩

/-! ### The drain loop -/

/-- The drain loop finds the socket empty. -/
inductive Drained (ops : SocketOps σ) : σ → σ → Prop
  | empty {s s' : σ} (h : ops.recvNoblock RtuFrame.kMaxFrameSize s = (.ok none, s')) :
      Drained ops s s'
  | datagram {s mid s' : σ} {d : Bytes}
      (h : ops.recvNoblock RtuFrame.kMaxFrameSize s = (.ok (some d), mid))
      (rest : Drained ops mid s') : Drained ops s s'

theorem finishes_of_drained (h : Drained ops s s₁) :
    Finishes client ops (start req out, s) outcome out' s' ↔
      Finishes client ops (client.onDrained req out, s₁) outcome out' s' := by
  induction h with
  | empty h => rw [start, finishes_recvNoblock h, onRecvNoblock]
  | datagram h rest ih => rw [start, finishes_recvNoblock h, onRecvNoblock, ← ih, start]

theorem ends_of_drained (h : Drained ops s s') :
    Ends client ops (start req out, s) outcome out' ↔
      Ends client ops (client.onDrained req out, s') outcome out' := by
  simp only [ends_iff_finishes, finishes_of_drained h]

theorem Ends.drained {result : Except ClientError Nat}
    (h : Ends client ops (start req out, s) (.returned result) out') : ∃ s', Drained ops s s' := by
  obtain ⟨n, send, h⟩ := h
  induction n generalizing s with
  | zero => cases h
  | succ n ih =>
    rcases hop : ops.recvNoblock RtuFrame.kMaxFrameSize s with ⟨r, mid⟩
    rw [Function.iterate_succ_apply, start, operate, hop] at h
    cases r with
    | ok r =>
      cases r with
      | none => exact ⟨mid, .empty hop⟩
      | some d =>
        obtain ⟨s', hdrained⟩ := ih h
        exact ⟨s', .datagram hop hdrained⟩
    | ioTimeout =>
      rw [onRecvNoblock, iterate_done] at h
      cases h
    | ioException =>
      rw [onRecvNoblock, iterate_done] at h
      cases h

/-! ### The buffer of a call -/

/-- Only success changes the buffer. -/
def Phase.Unchanged (out : Bytes) : Phase → Prop
  | .recvNoblock _ out' => out' = out
  | .sendAllTo _ out' => out' = out
  | .recvSome out' => out' = out
  | .done outcome out' => (∀ n, outcome ≠ .returned (.ok n)) → out' = out

theorem Phase.Leads.unchanged {phase phase' : Phase} (hleads : phase.Leads phase')
    (h : phase.Unchanged out) : phase'.Unchanged out := by
  cases hleads with
  | drains req out => exact h
  | drainThrows req out => exact fun _ => h
  | refuses out _ => exact fun _ => h
  | drained req adu out => exact h
  | sendFails adu out _ => exact fun _ => h
  | sent adu out => exact h
  | receiveFails out _ => exact fun _ => h
  | returns _ => exact fun hfail => absurd rfl (hfail _)
  | done outcome out => exact h

/-- **A call that does not succeed leaves its buffer alone.** -/
theorem Ends.unchanged (h : Ends client ops (start req out, s) outcome out')
    (hfail : ∀ n, outcome ≠ .returned (.ok n)) : out' = out :=
  h.keeps (Phase.Unchanged out) (fun hleads => hleads.unchanged) rfl hfail

end UdpClient

end Modbus
