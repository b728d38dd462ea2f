import Modbus.Codewords
import Modbus.Remote.Pieces
import Modbus.Truncation
import Modbus.Udp.Causes

/-!
# Answers with zeros behind them

Behind a frame zeros go unnoticed by the checksum: the longer frame has a longer PDU, which starts
with the one that was sent.  And decoders do not look at what is behind a response.  So a
line that pads what it delivers is not noticed by a call that succeeds.

* `isFrameOf_padded`: a padded frame is a frame.
* `told_padded`: a call tells what it would have told without the padding.
-/

namespace Modbus

open Span Transport UdpClient ByteBits ReflectedCrc

variable {σ : Type} {client : UdpClient} {socket : UdpClient.Socket σ} {s s' : σ} {call : Call}

/-! ### What a call makes of a longer PDU -/

theorem Call.told_of_sends {req : Bytes} (h : call.Sends req) :
    ∃ (R : Type) (deserialize : Reader R) (k : R → Told), Streams .kBufferTooShort deserialize ∧
      ∀ {σ : Type} (t : Transport σ) (s : σ),
        call.told t s = (received t req s deserialize).map k := by
  cases call with
  | read op address quantity out =>
    obtain ⟨hq, request, hreq, rfl⟩ := h
    refine ⟨_, _, fun response : op.Response =>
      .read op ((OutBuffer.mk out []).copy response.values),
      Response.ReadMultiple.streams_deserialize _ _ _ quantity, fun t s => ?_⟩
    rw [told, run_executeRead (s := ⟨s, [], ⟨out, []⟩⟩) hq hreq]
    cases received t request.encode s _ <;> rfl
  | writeSingle kind address value =>
    obtain ⟨request, hreq, rfl⟩ := h
    refine ⟨_, _, fun _ : kind.Single => .written, SingleMessage.streams_deserialize _ _,
      fun t s => ?_⟩
    rw [told, run_executeWriteSingle hreq]
    cases received t request.encode s _ <;> rfl
  | writeMultiple kind address values =>
    obtain ⟨request, hreq, rfl⟩ := h
    refine ⟨_, _, fun _ : kind.MultipleResponse => .written, RangeMessage.streams_deserialize _ _,
      fun t s => ?_⟩
    rw [told, run_executeWriteMultiple hreq]
    cases received t request.encode s _ <;> rfl

/-- **What is behind a response makes no difference.** -/
theorem Call.told_of_longer {τ : Type} {t : Transport σ} {t' : Transport τ} {s' : τ}
    {req pdu extra : Bytes} {told : Told} (h : call.Sends req) (hreply : t.reply req s = some pdu)
    (hreply' : t'.reply req s' = some (pdu ++ extra)) (htold : call.told t s = .ok told) :
    call.told t' s' = .ok told := by
  obtain ⟨R, deserialize, k, hstreams, heq⟩ := told_of_sends h
  rw [heq] at htold ⊢
  cases hr : received t req s deserialize with
  | error e =>
    rw [hr] at htold
    cases htold
  | ok m =>
    rw [hr] at htold
    obtain ⟨pdu', hpdu', hdec⟩ := received_eq_ok.mp hr
    obtain rfl : pdu = pdu' := Option.some.inj (hreply.symm.trans hpdu')
    obtain ⟨rest, hrun⟩ := decode_eq_ok.mp hdec
    rw [received_eq_ok.mpr ⟨_, hreply', decode_eq_ok.mpr ⟨_, hstreams.ok hrun extra⟩⟩]
    exact htold

/-! ### Padding -/

/-- `pad` zeros behind a datagram that is received, as far as the buffer goes. -/
def UdpClient.Socket.padded (socket : UdpClient.Socket σ) (pad : Bytes → Nat) :
    UdpClient.Socket σ where
  recvNoblock := socket.recvNoblock
  sendAllTo := socket.sendAllTo
  recvSome size s :=
    match socket.recvSome size s with
    | (.ok d, s') => (.ok ((d ++ List.replicate (pad d) 0).take size), s')
    | (r, s') => (r, s')
  pending := socket.pending
  recvNoblock_lt := socket.recvNoblock_lt

theorem recvSome_padded {pad : Bytes → Nat} {size : Nat} {d : Bytes}
    (h : socket.recvSome size s = (.ok d, s')) : (socket.padded pad).recvSome size s
      = (.ok ((d ++ List.replicate (pad d) 0).take size), s') := by
  simp only [UdpClient.Socket.padded, h]

theorem drained_padded {pad : Bytes → Nat} (h : Drained socket.ops s s') :
    Drained (socket.padded pad).ops s s' := by
  induction h with
  | empty h => exact .empty h
  | datagram h rest ih => exact .datagram h ih

/-- **A padded frame is a frame**, and its PDU starts with the one that was there. -/
theorem isFrameOf_padded (hcrc : client.crc.IsReflected) {d pdu : Bytes}
    (h : client.IsFrameOf d pdu) (n : Nat) : ∃ extra,
      client.IsFrameOf ((d ++ List.replicate n 0).take RtuFrame.kMaxFrameSize) (pdu ++ extra) := by
  have hmax := h.length_le
  obtain ⟨hpdu, rfl⟩ := h
  have hlen := List.length_take_le RtuFrame.kMaxFrameSize
    (RtuFrame.encode client.crc ⟨client.slaveId, pdu, hpdu⟩ ++ List.replicate n 0)
  -- the frame itself is not cut
  rw [List.take_append, List.take_of_length_le hmax, List.take_replicate] at hlen ⊢
  have haccepted := RtuFrame.accepted_append_zeros hcrc
    (RtuFrame.accepted_iff_encode.mpr ⟨_, rfl⟩) hlen
  obtain ⟨extra, hsize, heq⟩ := RtuFrame.exists_encode_append haccepted
  exact ⟨extra, hsize, heq⟩

theorem took_padded {pad : Bytes → Nat} {req d : Bytes}
    (h : Took client socket.ops req s (.receives d) s') :
    Took client (socket.padded pad).ops req s
      (.receives ((d ++ List.replicate (pad d) 0).take RtuFrame.kMaxFrameSize)) s' := by
  cases h with
  | receives h hreq hsend hrecv =>
    exact .receives (drained_padded h) hreq hsend (recvSome_padded hrecv)

/-- **Padding is not noticed** by a call that succeeds, over any socket on which the drain comes to
an end (`Socket.recvNoblock_lt`). -/
theorem told_padded (client : UdpClient) (hcrc : client.crc.IsReflected) {σ : Type}
    (socket : UdpClient.Socket σ) (pad : Bytes → Nat) (s : σ) (call : Call) (told : Told)
    (h : call.told (client.transport socket) s = .ok told) :
    call.told (client.transport (socket.padded pad)) s = .ok told := by
  have hok : call.result (client.transport socket) s = .ok () := by
    rw [← Call.told_map, h]
    rfl
  obtain ⟨r, hcause⟩ := call.exists_cause client socket s
  obtain rfl : r = .ok () := hcause.result.symm.trans hok
  cases hcause with
  | @response d pdu htakes hframe hdec =>
    obtain ⟨req, s', hsends, htook⟩ := htakes
    obtain ⟨extra, hframe'⟩ := isFrameOf_padded hcrc hframe (pad d)
    exact Call.told_of_longer hsends (reply_of_took htook hframe)
      (reply_of_took (took_padded htook) hframe') h

/-- Two registers are read over a line that puts two zeros behind what it delivers. -/
theorem told_padded_read : (Call.read .readHoldingRegisters 0 2 [(7 : UInt16), (7 : UInt16)]).told
    ((⟨1, bitwiseCrc⟩ : UdpClient).transport ((lossFree bitwiseCrc).padded fun _ => 2))
      ⟨Memory.blank, []⟩
    = .ok (.read .readHoldingRegisters ⟨[(0 : UInt16), (0 : UInt16)], []⟩) := by
  have hvalid : (Call.read .readHoldingRegisters 0 2 [(7 : UInt16), (7 : UInt16)]).Valid := by
    decide
  obtain ⟨req, hsends⟩ := Call.exists_sends.mpr hvalid
  exact told_padded ⟨1, bitwiseCrc⟩ isReflected_bitwiseCrc (lossFree bitwiseCrc) _ _ _ _
    (told_lossFree _ hsends Memory.blank []).1

end Modbus
