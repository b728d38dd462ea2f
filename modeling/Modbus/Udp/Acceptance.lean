import Modbus.Udp.Operations

/-!
# Which datagrams are accepted

A call receives into a buffer for one frame, and what does not fit is cut off.  What is left
of a longer datagram can be a frame.

* `acceptsExactly_onResponse`: of what is received, frames of the client's slave id are
  accepted, and nothing else.
* `acceptsExactly_iff`: so it is with what was sent, unless the two differ and what was
  received is a frame.
-/

namespace Modbus.UdpClient

/-- `d` is the frame of a PDU, with the client's slave id. -/
def IsFrameOf (client : UdpClient) (d pdu : Bytes) : Prop :=
  ∃ h : ¬ pdu.length > kMaxPduSize, d = RtuFrame.encode client.crc ⟨client.slaveId, pdu, h⟩

/-- What a call should make of the datagram `d`, when its buffer holds `out` before and
`out'` after. -/
structure AcceptsExactly (client : UdpClient) (d out : Bytes) (outcome : Outcome)
    (out' : Bytes) : Prop where
  success : ∀ (n : Nat) (pdu : Bytes), outcome = .returned (.ok n) ∧ out'.take n = pdu ↔
    client.IsFrameOf d pdu ∧ pdu.length = n ∧ n ≤ out.length
  rest : ∀ n, outcome = .returned (.ok n) → out'.drop n = out.drop n
  tooSmall : ∀ pdu, client.IsFrameOf d pdu → out.length < pdu.length →
    outcome = .returned (.error .kBufferTooSmall)
  invalid : (∀ pdu, ¬ client.IsFrameOf d pdu) → outcome = .returned (.error .kInvalidResponse)

variable {client : UdpClient} {d pdu out out' : Bytes} {outcome : Outcome}

/-! ### What is received -/

theorem IsFrameOf.unique {pdu' : Bytes} (h : client.IsFrameOf d pdu)
    (h' : client.IsFrameOf d pdu') : pdu = pdu' := by
  obtain ⟨hpdu, rfl⟩ := h
  obtain ⟨hpdu', heq⟩ := h'
  exact congrArg RtuFrame.pdu (RtuFrame.encode_injective client.crc heq)

theorem IsFrameOf.length_le (h : client.IsFrameOf d pdu) : d.length ≤ RtuFrame.kMaxFrameSize := by
  obtain ⟨hpdu, rfl⟩ := h
  rw [RtuFrame.length_encode]
  exact RtuFrame.getFrameSize_le _

theorem onResponse_of_le (h : client.IsFrameOf d pdu) (hroom : pdu.length ≤ out.length) :
    client.onResponse out d
      = .done (.returned (.ok pdu.length)) (pdu ++ out.drop pdu.length) := by
  obtain ⟨hpdu, rfl⟩ := h
  rw [client.onResponse_encode hpdu hroom, Span.copyTo, List.take_zero, List.nil_append,
    Nat.zero_add]

theorem onResponse_of_lt (h : client.IsFrameOf d pdu) (hroom : out.length < pdu.length) :
    client.onResponse out d = Phase.fail .kBufferTooSmall out := by
  obtain ⟨hpdu, rfl⟩ := h
  rw [onResponse, RtuFrame.deserialize_encode]
  dsimp only
  rw [if_neg (not_not.mpr rfl), if_pos hroom]

theorem onResponse_of_not_isFrameOf (h : ∀ pdu, ¬ client.IsFrameOf d pdu) :
    client.onResponse out d = Phase.fail .kInvalidResponse out := by
  rw [onResponse]
  cases hrun : (RtuFrame.deserialize client.crc).run d with
  | error e d' => rfl
  | ok responseAdu d' =>
    obtain ⟨rfl, _⟩ := RtuFrame.deserialize_eq_ok.mp hrun
    refine if_pos (fun hslave => h responseAdu.pdu ⟨responseAdu.size_le, ?_⟩)
    rw [← hslave]

/-- **Of what is received** exactly the frames are accepted. -/
theorem acceptsExactly_onResponse (h : client.onResponse out d = .done outcome out') :
    client.AcceptsExactly d out outcome out' := by
  by_cases hframe : ∃ pdu, client.IsFrameOf d pdu
  · obtain ⟨pdu, hpdu⟩ := hframe
    by_cases hroom : pdu.length ≤ out.length
    · rw [onResponse_of_le hpdu hroom] at h
      cases h
      refine ⟨fun n pdu' => ⟨?_, ?_⟩, fun n hn => ?_, fun pdu' hpdu' hlt => ?_, fun hno => ?_⟩
      · intro h
        obtain ⟨hn, rfl⟩ := h
        cases hn
        rw [List.take_left]
        exact ⟨hpdu, rfl, hroom⟩
      · intro h
        obtain ⟨hpdu', rfl, _⟩ := h
        obtain rfl := hpdu.unique hpdu'
        exact ⟨rfl, List.take_left⟩
      · cases hn
        exact List.drop_left
      · obtain rfl := hpdu.unique hpdu'
        omega
      · exact absurd hpdu (hno pdu)
    · rw [onResponse_of_lt hpdu (Nat.not_le.mp hroom)] at h
      cases h
      refine ⟨fun n pdu' => ⟨?_, ?_⟩, fun n hn => ?_, fun _ _ _ => rfl, fun hno => ?_⟩
      · intro h
        obtain ⟨hn, _⟩ := h
        cases hn
      · intro h
        obtain ⟨hpdu', rfl, hle⟩ := h
        obtain rfl := hpdu.unique hpdu'
        exact absurd hle hroom
      · cases hn
      · exact absurd hpdu (hno pdu)
  · have hno : ∀ pdu, ¬ client.IsFrameOf d pdu := fun pdu hpdu => hframe ⟨pdu, hpdu⟩
    rw [onResponse_of_not_isFrameOf hno] at h
    cases h
    refine ⟨fun n pdu => ⟨?_, ?_⟩, fun n hn => ?_, fun pdu hpdu => absurd hpdu (hno pdu),
      fun _ => rfl⟩
    · intro h
      obtain ⟨hn, _⟩ := h
      cases hn
    · intro h
      obtain ⟨hpdu, _⟩ := h
      exact absurd hpdu (hno pdu)
    · cases hn

/-! ### What is sent -/

/-- The frame of a PDU, and something behind it: the frame fills the buffer where it is
received. -/
def CutToFrame (client : UdpClient) (d : Bytes) : Prop :=
  RtuFrame.kMaxFrameSize < d.length ∧ ∃ pdu, client.IsFrameOf (d.take RtuFrame.kMaxFrameSize) pdu

/-- Otherwise cutting off what does not fit makes no frame. -/
theorem isFrameOf_take (h : ¬ client.CutToFrame d) :
    client.IsFrameOf (d.take RtuFrame.kMaxFrameSize) pdu ↔ client.IsFrameOf d pdu := by
  by_cases hlen : RtuFrame.kMaxFrameSize < d.length
  · constructor
    · intro hpdu
      exact absurd ⟨hlen, pdu, hpdu⟩ h
    · intro hpdu
      exact absurd hpdu.length_le (Nat.not_le.mpr hlen)
  · rw [List.take_of_length_le (Nat.not_lt.mp hlen)]

theorem acceptsExactly_take
    (h : client.onResponse out (d.take RtuFrame.kMaxFrameSize) = .done outcome out') :
    client.AcceptsExactly d out outcome out' ↔ ¬ client.CutToFrame d := by
  constructor
  · rintro hexact ⟨hlen, pdu, hpdu⟩
    have hinvalid := hexact.invalid
      (fun pdu' hpdu' => absurd hpdu'.length_le (Nat.not_le.mpr hlen))
    by_cases hroom : pdu.length ≤ out.length
    · rw [onResponse_of_le hpdu hroom] at h
      cases h
      cases hinvalid
    · rw [onResponse_of_lt hpdu (Nat.not_le.mp hroom)] at h
      cases h
      cases hinvalid
  · intro hcut
    have hreceived := acceptsExactly_onResponse h
    refine ⟨fun n pdu => ?_, hreceived.rest, fun pdu hpdu => ?_, fun hno => ?_⟩
    · rw [← isFrameOf_take hcut]
      exact hreceived.success n pdu
    · exact hreceived.tooSmall pdu ((isFrameOf_take hcut).mpr hpdu)
    · exact hreceived.invalid (fun pdu hpdu => hno pdu ((isFrameOf_take hcut).mp hpdu))

variable {σ : Type} {ops : SocketOps σ} {req : Bytes} {s : σ}

/-- The socket runs empty, the frame of `req` is sent, and the first datagram to arrive
after that is `d`, as much of it as fits. -/
def Answered (client : UdpClient) (ops : SocketOps σ) (req d : Bytes) (s : σ) : Prop :=
  ∃ (requestAdu : Bytes) (drained sent s' : σ), client.IsFrameOf requestAdu req ∧
    Drained ops s drained ∧ ops.sendAllTo requestAdu drained = (.ok requestAdu.length, sent) ∧
    ops.recvSome RtuFrame.kMaxFrameSize sent = (.ok (d.take RtuFrame.kMaxFrameSize), s')

theorem ends_of_answered (h : client.Answered ops req d s) :
    Ends client ops (start req out, s) outcome out' ↔
      client.onResponse out (d.take RtuFrame.kMaxFrameSize) = .done outcome out' := by
  obtain ⟨_, drained, sent, s', ⟨hreq, rfl⟩, hdrained, hsent, hreceived⟩ := h
  rw [ends_of_drained hdrained, client.onDrained_of_le hreq, ends_sendAllTo hsent, onSendAllTo,
    if_neg (not_not.mpr rfl), ends_recvSome hreceived, onRecvSome]
  obtain ⟨result, out'', hdone⟩ := client.onResponse_returns out (d.take RtuFrame.kMaxFrameSize)
  rw [hdone, ends_done, Phase.done.injEq]

/-- **Exactly the well-formed datagrams are accepted** if and only if the one that arrives is
not a frame with something behind it. -/
theorem acceptsExactly_iff (client : UdpClient) (ops : SocketOps σ) (req d out : Bytes) (s : σ)
    (h : client.Answered ops req d s) :
    ∃ outcome out', Ends client ops (start req out, s) outcome out' ∧
      (client.AcceptsExactly d out outcome out' ↔ ¬ client.CutToFrame d) := by
  obtain ⟨result, out', hdone⟩ := client.onResponse_returns out (d.take RtuFrame.kMaxFrameSize)
  exact ⟨_, out', (ends_of_answered h).mpr hdone, acceptsExactly_take hdone⟩

/-- The operations of a socket on which nothing waits, and where `d` arrives. -/
def answeringOps (d : Bytes) : SocketOps Unit where
  recvNoblock _ _ := (.ok none, ())
  sendAllTo requestAdu _ := (.ok requestAdu.length, ())
  recvSome size _ := (.ok (d.take size), ())

theorem answered_answeringOps (client : UdpClient) {req : Bytes} (h : ¬ req.length > kMaxPduSize)
    (d : Bytes) : client.Answered (answeringOps d) req d () :=
  ⟨_, (), (), (), ⟨h, rfl⟩, .empty rfl, rfl, rfl⟩

/-- A frame with one register in it. -/
theorem acceptsExactly_register : ∃ outcome out',
    Ends ⟨1, bitwiseCrc⟩ (answeringOps [0x01, 0x03, 2, 0, 7, 0xF9, 0x86])
        (start [0x03, 0, 0, 0, 1] [0, 0, 0, 0, 0], ()) outcome out' ∧
      AcceptsExactly ⟨1, bitwiseCrc⟩ [0x01, 0x03, 2, 0, 7, 0xF9, 0x86] [0, 0, 0, 0, 0]
        outcome out' := by
  obtain ⟨outcome, out', hends, hiff⟩ := acceptsExactly_iff ⟨1, bitwiseCrc⟩
    (answeringOps [0x01, 0x03, 2, 0, 7, 0xF9, 0x86]) [0x03, 0, 0, 0, 1]
    [0x01, 0x03, 2, 0, 7, 0xF9, 0x86] [0, 0, 0, 0, 0] ()
    (answered_answeringOps _ (by decide) _)
  exact ⟨outcome, out', hends, hiff.mpr (fun hcut => absurd hcut.1 (by decide))⟩

def longestFrame : RtuFrame :=
  ⟨1, Transport.emptyPdu, Nat.not_lt.mpr Transport.length_emptyPdu.le⟩

def frameAndOne : Bytes := RtuFrame.encode bitwiseCrc longestFrame ++ [0xEE]

theorem length_longestFrame :
    (RtuFrame.encode bitwiseCrc longestFrame).length = RtuFrame.kMaxFrameSize := by
  rw [RtuFrame.length_encode, RtuFrame.getFrameSize, longestFrame, Transport.length_emptyPdu]
  rfl

/-- The byte behind the longest frame is cut off, and the call succeeds. -/
theorem not_acceptsExactly_frameAndOne : frameAndOne.length = 257 ∧
    Answered ⟨1, bitwiseCrc⟩ (answeringOps frameAndOne) [0x03, 0, 0, 0, 1] frameAndOne () ∧
    Ends ⟨1, bitwiseCrc⟩ (answeringOps frameAndOne)
      (start [0x03, 0, 0, 0, 1] Transport.emptyPdu, ()) (.returned (.ok 253))
        Transport.emptyPdu ∧
    ¬ AcceptsExactly ⟨1, bitwiseCrc⟩ frameAndOne Transport.emptyPdu (.returned (.ok 253))
      Transport.emptyPdu := by
  have hlen : frameAndOne.length = 257 := by
    rw [frameAndOne, List.length_append, length_longestFrame]
    rfl
  have hanswered : Answered ⟨1, bitwiseCrc⟩ (answeringOps frameAndOne) [0x03, 0, 0, 0, 1]
      frameAndOne () := answered_answeringOps _ (by decide) _
  have hcut : IsFrameOf ⟨1, bitwiseCrc⟩ (frameAndOne.take RtuFrame.kMaxFrameSize)
      Transport.emptyPdu := by
    rw [frameAndOne, List.take_left' length_longestFrame]
    exact ⟨longestFrame.size_le, rfl⟩
  refine ⟨hlen, hanswered, (ends_of_answered hanswered).mpr ?_, fun h => ?_⟩
  · rw [onResponse_of_le hcut (Nat.le_refl _), List.drop_length, List.append_nil,
      Transport.length_emptyPdu]
    rfl
  · -- it would be a frame itself, and it is too long for one
    have hframe := ((h.success 253 _).mp ⟨rfl, rfl⟩).1
    exact absurd hframe.length_le (by rw [hlen]; decide)

end Modbus.UdpClient
