import Modbus.Device
import Modbus.Udp.Client

/-!
# End to end

A `UdpClient` and an honest device with nothing lost in between.  Whatever is waiting on
the client's socket before a call is drained, the device gets the request and answers
it, and the answer is all there is to receive.

* `send_lossFree`: one exchange.
* `read_faithful`, `write_faithful`: an operation reads, or writes, the device's memory.
* `end_to_end`: the two together, with a read after a write.
-/

namespace Modbus

open Span Transport

namespace UdpClient

structure World where
  memory : Memory
  queue : List Bytes

/-- A socket whose datagrams reach the device, which answers at once, and whose answers
arrive in order. -/
def lossFree (crc : CrcType) : Socket World where
  recvNoblock size w :=
    match w.queue with
    | [] => (.ok none, w)
    | d :: queue => (.ok (some (d.take size)), { w with queue })
  sendAllTo requestAdu w :=
    match Device.onFrame crc w.memory requestAdu with
    | none => (.ok requestAdu.length, w)
    | some (memory, answer) => (.ok requestAdu.length, ⟨memory, w.queue ++ [answer]⟩)
  recvSome size w :=
    match w.queue with
    | [] => (.ioTimeout, w)
    | d :: queue => (.ok (d.take size), { w with queue })
  pending w := w.queue.length
  recvNoblock_lt size w d h := by
    match w with
    | ⟨memory, []⟩ => cases h
    | ⟨memory, _ :: queue⟩ => exact Nat.lt_succ_self _

variable (client : UdpClient)

def overLossFree : Transport World := client.transport (lossFree client.crc)

theorem runPhases_drain (req out : Bytes) (memory : Memory) (n : Nat) : ∀ queue : List Bytes,
    client.runPhases (lossFree client.crc) (queue.length + n) (.recvNoblock req out) ⟨memory, queue⟩
      = client.runPhases (lossFree client.crc) n (.recvNoblock req out) ⟨memory, []⟩ := by
  intro queue
  induction queue with
  | nil => rw [List.length_nil, Nat.zero_add]
  | cons d queue ih =>
    rw [List.length_cons, Nat.succ_add, ← ih]
    rfl

/-- **One exchange**: the client gets what the device answers. -/
theorem send_lossFree {req pdu : Bytes} {memory memory' : Memory}
    (h : Device.respond memory req = some (memory', pdu)) (hreq : ¬ req.length > kMaxPduSize)
    (hpdu : ¬ pdu.length > kMaxPduSize) (queue : List Bytes) :
    client.overLossFree.send req ⟨memory, queue⟩
      = ⟨.returned (.ok pdu.length), copyTo emptyPdu 0 pdu, ⟨memory', []⟩⟩ := by
  have hframe := Device.onFrame_encode client.crc client.slaveId hreq hpdu h
  have hrun : client.sendRawRequest (lossFree client.crc) req emptyPdu ⟨memory, queue⟩
      = (.done (.returned (.ok pdu.length)) (copyTo emptyPdu 0 pdu), ⟨memory', []⟩) := by
    show client.runPhases (lossFree client.crc) (queue.length + 3) (.recvNoblock req emptyPdu)
      ⟨memory, queue⟩ = _
    rw [runPhases_drain]
    -- three operations are left: the drain finds nothing, the request is sent, the answer comes
    have hdrained : client.next (lossFree client.crc) (.recvNoblock req emptyPdu) ⟨memory, []⟩
        = (.sendAllTo (RtuFrame.encode client.crc ⟨client.slaveId, req, hreq⟩) emptyPdu,
          ⟨memory, []⟩) :=
      congrArg (fun phase => (phase, (⟨memory, []⟩ : World))) (client.onDrained_of_le hreq emptyPdu)
    have hsent : client.next (lossFree client.crc)
        (.sendAllTo (RtuFrame.encode client.crc ⟨client.slaveId, req, hreq⟩) emptyPdu) ⟨memory, []⟩
        = (.recvSome emptyPdu,
          ⟨memory', [RtuFrame.encode client.crc ⟨client.slaveId, pdu, hpdu⟩]⟩) := by
      simp [next, lossFree, hframe, onSendAllTo]
    have hreceived : client.next (lossFree client.crc) (.recvSome emptyPdu)
        ⟨memory', [RtuFrame.encode client.crc ⟨client.slaveId, pdu, hpdu⟩]⟩
        = (.done (.returned (.ok pdu.length)) (copyTo emptyPdu 0 pdu), ⟨memory', []⟩) := by
      have hresp := client.onResponse_encode hpdu
        (by rw [length_emptyPdu]; omega : pdu.length ≤ emptyPdu.length)
      simp [next, lossFree, onRecvSome, RtuFrame.take_encode, hresp]
    rw [runPhases, hdrained, runPhases, hsent, runPhases, hreceived]
    rfl
  show ((client.sendRawRequest (lossFree client.crc) req emptyPdu ⟨memory, queue⟩).1.result
    (client.sendRawRequest (lossFree client.crc) req emptyPdu ⟨memory, queue⟩).2 emptyPdu) = _
  rw [hrun]
  rfl

theorem received_lossFree {R : Type} {req pdu : Bytes} {memory memory' : Memory}
    (h : Device.respond memory req = some (memory', pdu)) (hreq : req.length ≤ kMaxPduSize)
    (hpdu : pdu.length ≤ kMaxPduSize) (queue : List Bytes) {deserialize : Reader R} {m : R}
    (hdec : deserialize.run pdu = .ok m []) :
    received client.overLossFree req ⟨memory, queue⟩ deserialize = .ok m := by
  have hsend := client.send_lossFree h (Nat.not_lt.mpr hreq) (Nat.not_lt.mpr hpdu) queue
  refine received_eq_ok.mpr ⟨pdu, ?_, decode_eq_ok.mpr ⟨[], hdec⟩⟩
  rw [reply, hsend]
  exact congrArg some List.take_left

/-! ### Reads -/

/-- **A read** gets the cells that were asked for, into its buffer from the start on, and
changes nothing else. -/
theorem read_faithful {op : ReadOp} {address quantity : UInt16} {request : op.Request}
    (hreq : RangeMessage.create op.functionCode op.maxQuantity address quantity = .ok request)
    {cells : List op.T} (hsize : quantity.toNat ≤ cells.length) (memory : Memory)
    (queue : List Bytes) : ∃ s',
      (executeRead client.overLossFree op address quantity).run
          ⟨⟨memory, queue⟩, [], ⟨cells, []⟩⟩ = .ok () s' ∧
        s'.transport.memory = memory ∧
        s'.out = ⟨memory.read op address quantity ++ cells.drop quantity.toNat, []⟩ := by
  obtain ⟨haddress, hquantity⟩ := RangeMessage.create_eq_ok.mp hreq
  obtain ⟨hrespond, hlen⟩ := Device.respond_read memory request
  have hmax := op.payloadSize_le
  have hdec := (Device.readResponse memory request).deserialize_encode (by omega)
    (memory.named_read op _ _) []
  have hq : (Device.readResponse memory request).getQuantity = quantity := by
    refine UInt16.toNat_inj.mp ?_
    rw [Response.ReadMultiple.toNat_getQuantity, hquantity]
    exact memory.length_read op _ _
  have hvalues : (Device.readResponse memory request).values = memory.read op address quantity := by
    rw [haddress, hquantity]
    rfl
  rw [hq, List.append_nil] at hdec
  have hreceived := client.received_lossFree hrespond (by simp [kMaxPduSize]) hlen queue
    hdec
  have hsend := client.send_lossFree hrespond (by simp [kMaxPduSize])
    (Nat.not_lt.mpr hlen) queue
  rw [run_executeRead (s := ⟨(⟨memory, queue⟩ : World), [], ⟨cells, []⟩⟩) hsize hreq,
    hreceived]
  refine ⟨_, rfl, congrArg (fun r => r.state.memory) hsend, ?_⟩
  show (OutBuffer.mk cells []).copy (Device.readResponse memory request).values = _
  rw [hvalues, OutBuffer.copy_of_le (by rw [memory.length_read]; exact hsize), memory.length_read]

/-! ### Writes -/

inductive WriteOp (kind : WriteKind)
  | single (value : kind.T)
  | multiple (values : List kind.T)

namespace WriteOp

variable {kind : WriteKind}

def values : WriteOp kind → List kind.T
  | single value => [value]
  | multiple values => values

def Accepted (address : UInt16) : WriteOp kind → Prop
  | single value => ∃ request, SingleMessage.create kind kind.singleCode address value = .ok request
  | multiple values => ∃ request,
      Request.WriteMultiple.create kind kind.multipleCode kind.maxQuantity address values
        = .ok request

def execute {σ : Type} (t : Transport σ) (address : UInt16) : WriteOp kind → ClientM σ Unit Unit
  | single value => executeWriteSingle t kind address value
  | multiple values => executeWriteMultiple t kind address values

end WriteOp

/-- **A write** has its values written, and nothing else. -/
theorem write_faithful {kind : WriteKind} {address : UInt16} {op : WriteOp kind}
    (h : op.Accepted address) (memory : Memory) (queue : List Bytes) :
    address.toNat + op.values.length ≤ 0x10000 ∧ ∃ hvalues s',
      (op.execute client.overLossFree address).run ⟨⟨memory, queue⟩, [], ()⟩ = .ok () s' ∧
        s'.transport = ⟨memory.write kind address op.values hvalues, []⟩ := by
  cases op with
  | single value =>
    obtain ⟨request, hreq⟩ := h
    obtain ⟨rfl, rfl⟩ := SingleMessage.create_eq_ok.mp hreq
    have hrespond := Device.respond_writeSingle memory request
    have hlen : request.encode.length ≤ kMaxPduSize := by simp [kMaxPduSize]
    have hdec : (SingleMessage.deserialize kind kind.singleCode).run request.encode
        = .ok request [] := SingleMessage.deserialize_eq_ok.mpr (List.append_nil _).symm
    have hreceived := client.received_lossFree hrespond hlen hlen queue hdec
    have hsend := client.send_lossFree hrespond (Nat.not_lt.mpr hlen)
      (Nat.not_lt.mpr hlen) queue
    refine ⟨request.address.toNat_lt, List.forall_mem_singleton.mpr request.value_ok, ?_⟩
    rw [WriteOp.execute, run_executeWriteSingle hreq, hreceived]
    exact ⟨_, rfl, congrArg SendResult.state hsend⟩
  | multiple values =>
    obtain ⟨request, hreq⟩ := h
    obtain ⟨rfl, rfl⟩ := Request.WriteMultiple.create_eq_ok.mp hreq
    have hrespond := Device.respond_writeMultiple memory request
    have hlen := (writes_multipleRequest request).2
    have hlen' : (Device.confirmation request).encode.length ≤ kMaxPduSize := by simp [kMaxPduSize]
    have hdec : (RangeMessage.deserialize kind.multipleCode kind.maxQuantity).run
        (Device.confirmation request).encode = .ok (Device.confirmation request) [] :=
      RangeMessage.deserialize_eq_ok.mpr (List.append_nil _).symm
    have hreceived := client.received_lossFree hrespond hlen hlen' queue hdec
    have hsend := client.send_lossFree hrespond (Nat.not_lt.mpr hlen)
      (Nat.not_lt.mpr hlen') queue
    refine ⟨?_, request.values_ok, ?_⟩
    · have := request.address_ok
      rw [Bool.not_eq_true, wouldAddressOverflow_eq_false] at this
      have hq := request.toNat_getQuantity
      rw [Request.WriteMultiple.getQuantity] at hq
      rwa [hq] at this
    · rw [WriteOp.execute, run_executeWriteMultiple hreq, hreceived]
      exact ⟨_, rfl, congrArg SendResult.state hsend⟩

/-! ### Reads and writes together -/

/-- A buffer after a read: the cells that were asked for, from its start on, and for the
rest what it held. -/
def Holds (memory : Memory) (op : ReadOp) (address quantity : UInt16) (cells : List op.T)
    (out : OutBuffer op.T) : Prop :=
  out.overrun = [] ∧ ∀ i : Nat,
    (i < quantity.toNat → out.cells[i]? = some (memory.table op (address + UInt16.ofNat i))) ∧
    (quantity.toNat ≤ i → out.cells[i]? = cells[i]?)

theorem holds_read (memory : Memory) (op : ReadOp) (address quantity : UInt16)
    (cells : List op.T) : Holds memory op address quantity cells
      ⟨memory.read op address quantity ++ cells.drop quantity.toNat, []⟩ := by
  refine ⟨rfl, fun i => ⟨fun hi => ?_, fun hi => ?_⟩⟩
  · rw [List.getElem?_append_left (by rwa [memory.length_read]), Memory.read, List.getElem?_map,
      List.getElem?_range hi]
    rfl
  · rw [List.getElem?_append_right (by rwa [memory.length_read]), memory.length_read,
      List.getElem?_drop, Nat.add_sub_cancel' hi]

def ReadAccepted (op : ReadOp) (address quantity : UInt16) : Prop :=
  ∃ request : op.Request,
    RangeMessage.create op.functionCode op.maxQuantity address quantity = .ok request

/-- **End-to-end fidelity.**  Over a loss-free line to an honest device, whatever its
memory holds and whatever waits on the socket: a read that is accepted succeeds and gets
the device's cells; a write that is accepted succeeds and changes exactly its cells; and a
read after a write gets the written values where the two overlap, and what was there
before elsewhere. -/
theorem end_to_end (client : UdpClient) (memory : Memory) (queue : List Bytes) :
    (∀ (op : ReadOp) (address quantity : UInt16) (cells : List op.T),
      ReadAccepted op address quantity → quantity.toNat ≤ cells.length →
      ∃ s', (executeRead client.overLossFree op address quantity).run
          ⟨⟨memory, queue⟩, [], ⟨cells, []⟩⟩ = .ok () s' ∧
        s'.transport.memory = memory ∧ Holds memory op address quantity cells s'.out) ∧
    (∀ (kind : WriteKind) (address : UInt16) (op : WriteOp kind), op.Accepted address →
      ∃ s', (op.execute client.overLossFree address).run ⟨⟨memory, queue⟩, [], ()⟩ = .ok () s' ∧
        Memory.WrittenOnly memory s'.transport.memory kind address op.values) ∧
    (∀ (kind : WriteKind) (address : UInt16) (op : WriteOp kind) (address' quantity' : UInt16)
      (cells : List kind.readOp.T), op.Accepted address →
      ReadAccepted kind.readOp address' quantity' → quantity'.toNat ≤ cells.length →
      ∃ s' s'', (op.execute client.overLossFree address).run ⟨⟨memory, queue⟩, [], ()⟩ = .ok () s' ∧
        (executeRead client.overLossFree kind.readOp address' quantity').run
          ⟨s'.transport, [], ⟨cells, []⟩⟩ = .ok () s'' ∧
        ∀ i, i < quantity'.toNat →
          (∀ (j : Nat) (hj : j < op.values.length), address'.toNat + i = address.toNat + j →
            s''.out.cells[i]? = some (kind.toRead (op.values.get ⟨j, hj⟩))) ∧
          ((∀ j, j < op.values.length → address'.toNat + i ≠ address.toNat + j) →
            s''.out.cells[i]? = some (memory.table kind.readOp (address' + UInt16.ofNat i)))) := by
  refine ⟨fun op address quantity cells hacc hsize => ?_, fun kind address op hacc => ?_,
    fun kind address op address' quantity' cells hacc hacc' hsize => ?_⟩
  · obtain ⟨request, hreq⟩ := hacc
    obtain ⟨s', hrun, hmem, hout⟩ := client.read_faithful hreq hsize memory queue
    exact ⟨s', hrun, hmem, hout ▸ holds_read memory op address quantity cells⟩
  · obtain ⟨hover, hvalues, s', hrun, hs'⟩ := client.write_faithful hacc memory queue
    exact ⟨s', hrun, hs' ▸ memory.writtenOnly_write hvalues hover⟩
  · obtain ⟨hover, hvalues, s', hrun, hs'⟩ := client.write_faithful hacc memory queue
    obtain ⟨request, hreq⟩ := hacc'
    obtain ⟨s'', hrun'', _, hout⟩ := client.read_faithful hreq hsize
      (memory.write kind address op.values hvalues) []
    refine ⟨s', s'', hrun, hs' ▸ hrun'', fun i hi => ?_⟩
    obtain ⟨hwritten, hother⟩ := memory.writtenOnly_write hvalues hover
    have hrange : address'.toNat + i < 0x10000 := by
      obtain ⟨rfl, rfl⟩ := RangeMessage.create_eq_ok.mp hreq
      have := request.address_ok
      rw [Bool.not_eq_true, wouldAddressOverflow_eq_false] at this
      omega
    have hnat := Memory.toNat_add_ofNat hrange
    have hcell := ((holds_read (memory.write kind address op.values hvalues) kind.readOp address'
      quantity' cells).2 i).1 hi
    rw [hout, hcell]
    refine ⟨fun j hj hij => ?_, fun hnone => ?_⟩
    · have hsame : address' + UInt16.ofNat i = address + UInt16.ofNat j :=
        UInt16.toNat_inj.mp (by rw [hnat, Memory.toNat_add_ofNat (by omega), hij])
      rw [hsame, hwritten j hj]
    · rw [hother]
      rintro _ ⟨hle, hlt⟩
      exact hnone (address'.toNat + i - address.toNat) (by omega) (by omega)

end UdpClient

end Modbus
