import Modbus.Capacity
import Modbus.Udp.Acceptance
import Modbus.Udp.Exchange

/-!
# What the result of a call means

`ClientBase` over `UdpClient` over any `Socket`: every result that a call can return has its causes,
and `Cause` lists them.

* `sendRawRequest_of_took`: over a socket the course of a call is its end.
* `result_iff_cause`: a call returns what has a cause, and nothing else.
-/

namespace Modbus

open Transport UdpClient

variable {σ : Type} {client : UdpClient} {socket : UdpClient.Socket σ} {s s' : σ} {req out : Bytes}
  {course : Course} {call : Call}

/-! ### Over a socket -/

namespace UdpClient

/-- **Over a socket** a call ends as its course ends. -/
theorem sendRawRequest_of_took (h : Took client socket.ops req s course s') :
    client.sendRawRequest socket req out s = (course.ending client out, s') := by
  obtain ⟨outcome, out', hdone⟩ := course.ending_isDone client out
  have hfinishes : Finishes client socket.ops (start req out, s) outcome out' s' := by
    rw [h.finishes, hdone]
    exact finishes_done.mpr ⟨rfl, rfl, rfl⟩
  have hends := client.sendRawRequest_isDone socket req out s
  rcases hrun : client.sendRawRequest socket req out s with ⟨phase, s₁⟩
  rw [hrun] at hends
  cases phase with
  | done outcome₁ out₁ =>
    obtain ⟨rfl, rfl, rfl⟩ := (finishes_sendRawRequest hrun).unique hfinishes
    rw [hdone]
  | _ => exact hends.elim

/-- Datagrams do not keep on coming on a socket. -/
theorem not_drainsForever (socket : Socket σ) (s : σ) : ¬ DrainsForever socket.ops s := by
  intro hforever
  have hends := sendRawRequest_isDone ⟨0, bitwiseCrc⟩ socket [] [] s
  obtain ⟨s₁, hs₁⟩ := iterate_of_drainsForever ⟨0, bitwiseCrc⟩ [] [] hforever
    (socket.pending s + 3)
  rw [sendRawRequest, runPhases_eq_iterate, hs₁] at hends
  exact hends.elim

theorem send_of_took (h : Took client socket.ops req s course s') {outcome : Outcome}
    (hdone : course.ending client emptyPdu = .done outcome out) :
    (client.transport socket).send req s = ⟨outcome, out, s'⟩ := by
  show (client.sendRawRequest socket req emptyPdu s).1.result
    (client.sendRawRequest socket req emptyPdu s).2 emptyPdu = _
  rw [sendRawRequest_of_took h, hdone]
  rfl

theorem reply_of_took {d pdu : Bytes} (h : Took client socket.ops req s (.receives d) s')
    (hframe : client.IsFrameOf d pdu) : (client.transport socket).reply req s = some pdu := by
  have hroom : pdu.length ≤ emptyPdu.length := by
    obtain ⟨hpdu, _⟩ := hframe
    rw [length_emptyPdu]
    exact Nat.not_lt.mp hpdu
  rw [reply, send_of_took h (onResponse_of_le hframe hroom)]
  exact congrArg some List.take_left

end UdpClient

/-! ### Causes -/

namespace Call

def Takes (client : UdpClient) (socket : UdpClient.Socket σ) (s : σ) (call : Call)
    (course : Course) : Prop :=
  ∃ req s', call.Sends req ∧ Took client socket.ops req s course s'

def TooSmall : Call → Prop
  | read _ _ quantity out => out.length < quantity.toNat
  | writeSingle _ _ _ => False
  | writeMultiple _ _ _ => False

/-- What the results of a call come from. -/
inductive Cause (client : UdpClient) (socket : UdpClient.Socket σ) (s : σ) (call : Call) :
    Except Exit Unit → Prop
  | tooSmall (h : call.TooSmall) : Cause client socket s call (.error (.error .kBufferTooSmall))
  | invalid (h : ¬ call.TooSmall) (hvalid : ¬ call.Valid) :
      Cause client socket s call (.error (.error .kInvalidRequest))
  | drainThrows (h : call.Takes client socket s .drainThrows) :
      Cause client socket s call (.error .threw)
  | sendTimesOut (h : call.Takes client socket s (.sendThrows .timeout)) :
      Cause client socket s call (.error (.error .kTimeout))
  | receiveTimesOut (h : call.Takes client socket s (.receiveThrows .timeout)) :
      Cause client socket s call (.error (.error .kTimeout))
  | sendThrows (h : call.Takes client socket s (.sendThrows .other)) :
      Cause client socket s call (.error (.error .kTransportError))
  | sendsShort (h : call.Takes client socket s .sendsShort) :
      Cause client socket s call (.error (.error .kTransportError))
  | receiveThrows (h : call.Takes client socket s (.receiveThrows .other)) :
      Cause client socket s call (.error (.error .kTransportError))
  /-- No frame of the slave, or one whose PDU is no response to the call. -/
  | noResponse {d : Bytes} (h : call.Takes client socket s (.receives d))
      (hno : ∀ pdu, client.IsFrameOf d pdu → ¬ call.Decodes pdu) :
      Cause client socket s call (.error (.error .kInvalidResponse))
  | response {d pdu : Bytes} (h : call.Takes client socket s (.receives d))
      (hframe : client.IsFrameOf d pdu) (hdec : call.Decodes pdu) :
      Cause client socket s call (.ok ())

/-! Before anything is sent. -/

theorem not_valid_of_tooSmall (h : call.TooSmall) : ¬ call.Valid := by
  cases call with
  | read op address quantity out => exact fun hvalid => Nat.not_lt.mpr hvalid.2.2.2 h
  | writeSingle kind address value => exact h.elim
  | writeMultiple kind address values => exact h.elim

theorem result_of_not_valid {t : Transport σ} (h : ¬ call.Valid) :
    call.result t s = .error (.error call.refusal) :=
  result_of_refused fun req hsends => h (exists_sends.mp ⟨req, hsends⟩)

theorem refusal_of_tooSmall (h : call.TooSmall) : call.refusal = .kBufferTooSmall := by
  cases call with
  | read op address quantity out => exact if_pos h
  | writeSingle kind address value => exact h.elim
  | writeMultiple kind address values => exact h.elim

theorem refusal_of_not_tooSmall (h : ¬ call.TooSmall) : call.refusal = .kInvalidRequest := by
  cases call with
  | read op address quantity out => exact if_neg h
  | writeSingle kind address value => rfl
  | writeMultiple kind address values => rfl

/-! The courses of a call. -/

theorem result_of_threw {t : Transport σ} (h : call.Sends req)
    (hthrew : (t.send req s).outcome = .threw) : call.result t s = .error .threw := by
  obtain ⟨β, R, out, deserialize, k, _, hends⟩ := ends_of_sends h
  rw [result_eq_ends, hends, resultOf_finished, received, hthrew]
  rfl

theorem result_of_fails {e : ClientError} (h : call.Takes client socket s course)
    (hfail : course.ending client emptyPdu = Phase.fail e emptyPdu) :
    call.result (client.transport socket) s = .error (.error e) := by
  obtain ⟨req, s', hsends, htook⟩ := h
  refine result_of_transport_error hsends ?_
  rw [send_of_took htook hfail]

theorem replied_of_receives {d pdu : Bytes} (h : call.Takes client socket s (.receives d))
    (hframe : client.IsFrameOf d pdu) : call.Replied (client.transport socket) s pdu := by
  obtain ⟨req, s', hsends, htook⟩ := h
  exact ⟨req, hsends, reply_of_took htook hframe⟩

/-- **What has a cause is returned.** -/
theorem Cause.result {r : Except Exit Unit} (h : Cause client socket s call r) :
    call.result (client.transport socket) s = r := by
  cases h with
  | tooSmall h => rw [result_of_not_valid (not_valid_of_tooSmall h), refusal_of_tooSmall h]
  | invalid h hvalid => rw [result_of_not_valid hvalid, refusal_of_not_tooSmall h]
  | drainThrows h =>
    obtain ⟨req, s', hsends, htook⟩ := h
    refine result_of_threw hsends ?_
    rw [send_of_took htook rfl]
  | sendTimesOut h | receiveTimesOut h | sendThrows h | sendsShort h | receiveThrows h =>
    exact result_of_fails h rfl
  | @noResponse d h hno =>
    by_cases hframe : ∃ pdu, client.IsFrameOf d pdu
    · obtain ⟨pdu, hframe⟩ := hframe
      rcases result_of_replied (replied_of_receives h hframe) with ⟨hdec, _⟩ | ⟨_, hr⟩
      · exact absurd hdec (hno pdu hframe)
      · exact hr
    · exact result_of_fails h (onResponse_of_not_isFrameOf (not_exists.mp hframe))
  | response h hframe hdec => exact result_eq_ok.mpr ⟨_, replied_of_receives h hframe, hdec⟩

/-- **There is always a cause.** -/
theorem exists_cause (client : UdpClient) (socket : UdpClient.Socket σ) (s : σ) (call : Call) :
    ∃ r, Cause client socket s call r := by
  by_cases hvalid : call.Valid
  · obtain ⟨req, hsends⟩ := exists_sends.mpr hvalid
    obtain ⟨course, s', htook⟩ := exists_took client req (not_drainsForever socket s)
    have h : call.Takes client socket s course := ⟨req, s', hsends, htook⟩
    cases course with
    | drainThrows => exact ⟨_, .drainThrows h⟩
    | refused =>
      cases htook with
      | refused _ hreq => exact absurd (length_le_of_sends hsends) (Nat.not_le.mpr hreq)
    | sendThrows thrown =>
      cases thrown with
      | timeout => exact ⟨_, .sendTimesOut h⟩
      | other => exact ⟨_, .sendThrows h⟩
    | sendsShort => exact ⟨_, .sendsShort h⟩
    | receiveThrows thrown =>
      cases thrown with
      | timeout => exact ⟨_, .receiveTimesOut h⟩
      | other => exact ⟨_, .receiveThrows h⟩
    | receives d =>
      by_cases hresponse : ∃ pdu, client.IsFrameOf d pdu ∧ call.Decodes pdu
      · obtain ⟨pdu, hframe, hdec⟩ := hresponse
        exact ⟨_, .response h hframe hdec⟩
      · exact ⟨_, .noResponse h fun pdu hframe hdec => hresponse ⟨pdu, hframe, hdec⟩⟩
  · by_cases htooSmall : call.TooSmall
    · exact ⟨_, .tooSmall htooSmall⟩
    · exact ⟨_, .invalid htooSmall hvalid⟩

/-- **What a result means.**  Over every socket on which the drain comes to an end
(`Socket.recvNoblock_lt`), and from every state of it, a call returns exactly what has a cause: so
`kTimeout` is a timeout of an operation after the drain, `kInvalidResponse` is a datagram that
answers something else, and `kModbusException` is never returned. -/
theorem result_iff_cause (client : UdpClient) {σ : Type} (socket : UdpClient.Socket σ) (s : σ)
    (call : Call) (r : Except Exit Unit) :
    call.result (client.transport socket) s = r ↔ Cause client socket s call r := by
  constructor
  · rintro rfl
    obtain ⟨r, h⟩ := exists_cause client socket s call
    rwa [h.result]
  · exact Cause.result

end Call

end Modbus
