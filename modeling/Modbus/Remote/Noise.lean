import Modbus.ErrorDetection
import Modbus.Remote.Operations
import Modbus.Udp.Client

/-!
# A noisy line

Calls of one client, one after another, while the line to an honest device loses, damages and
delays what it carries.  Damage is any change of bits that the polynomial of the checksum does
not divide, so every burst of up to sixteen bits, and every change of two bits or of an odd
number of them, is damage.

* `Fate.perform`: what can become of an operation on a memory.
* `told_noisy`: what becomes of a call over the line.
* `run_noisy`: in every run the calls tell, and do, what the operations do.
-/

namespace Modbus

open Span Transport ByteBits ReflectedCrc

/-! ### Damage -/

/-- A change of some bits, which leaves something in the register of the checksum. -/
structure Noise where
  apply : Bytes → Bytes
  length_apply : ∀ f, (apply f).length = f.length
  noticed : ∀ f, f ≠ [] → run 0xA001#16 0#16 (RtuFrame.errorBits f (apply f)) ≠ 0#16

/-- **A damaged frame is no frame.** -/
theorem Noise.deserialize_apply (noise : Noise) {crc : CrcType} (hcrc : crc.IsReflected)
    (frame : RtuFrame) : (RtuFrame.deserialize crc).run (noise.apply (RtuFrame.encode crc frame))
      = .error .kInvalidCrc (noise.apply (RtuFrame.encode crc frame)) :=
  RtuFrame.deserialize_of_errorBits hcrc (RtuFrame.serializesTo_iff.mpr rfl)
    (noise.length_apply _) (noise.noticed _ (List.cons_ne_nil _ _))

theorem run_flipFirst (f : Bytes) (hf : f ≠ []) :
    run 0xA001#16 0#16 (RtuFrame.errorBits f (f.modifyHead (· ^^^ 1))) ≠ 0#16 := by
  obtain ⟨b, rest, rfl⟩ := List.exists_cons_of_ne_nil hf
  have hlen : ((b ^^^ 1) :: rest).length = (b :: rest).length := rfl
  refine run_burst_ne_zero msb_polynomial (s := 0) (fun k hk => ⟨Nat.zero_le k, ?_⟩) ?_
  · -- behind the first byte nothing is changed
    by_contra hge
    obtain ⟨j, rfl⟩ : ∃ j, k = 8 + j := ⟨k - 8, by omega⟩
    have hmem := (RtuFrame.getD_errorBits hlen _).mp hk
    rw [RtuFrame.diffBits, Finset.mem_filter, bitAt_cons_add, bitAt_cons_add] at hmem
    exact hmem.2 rfl
  · have hfirst : (RtuFrame.errorBits (b :: rest) ((b ^^^ 1) :: rest)).getD 0 false = true := by
      rw [RtuFrame.getD_errorBits hlen, RtuFrame.diffBits, Finset.mem_filter, Finset.mem_range,
        bitAt_cons_of_lt _ _ (by omega), bitAt_cons_of_lt _ _ (by omega), UInt8.toNat_xor,
        Nat.testBit_xor]
      simp
    have hpos : 0 < (RtuFrame.errorBits (b :: rest) ((b ^^^ 1) :: rest)).length := by
      rw [RtuFrame.length_errorBits hlen, List.length_cons]
      omega
    rw [List.getD_eq_getElem _ _ hpos] at hfirst
    exact hfirst ▸ List.getElem_mem hpos

def Noise.flipFirst : Noise where
  apply f := f.modifyHead (· ^^^ 1)
  length_apply _ := List.length_modifyHead
  noticed := run_flipFirst

/-! ### The line -/

/-- What becomes of an exchange. -/
inductive Fate
  | arrives
  /-- `SendAllTo` throws. -/
  | sendFails (timeout : Bool)
  | requestLost
  | requestDamaged (noise : Noise)
  | answerLost
  | answerDamaged (noise : Noise)
  /-- The answer comes when the client has given up. -/
  | answerLate

/-- The device's memory, the datagrams on the client's socket and those that are late, and what
becomes of the exchanges to come. -/
structure Line where
  memory : Memory
  queue : List Bytes
  late : List Bytes
  fates : List Fate

namespace Line

def ask (crc : CrcType) (line : Line) (adu : Bytes) (carry : Line → Bytes → Line) : Line :=
  match Device.onFrame crc line.memory adu with
  | none => line
  | some (memory, answer) => carry { line with memory } answer

def send (crc : CrcType) (line : Line) (adu : Bytes) : Fate → IoResult Nat × Line
  | .arrives => (.ok adu.length, line.ask crc adu fun line answer =>
      { line with queue := line.queue ++ [answer] })
  | .sendFails timeout => (if timeout then .ioTimeout else .ioException, line)
  | .requestLost => (.ok adu.length, line)
  | .requestDamaged noise => (.ok adu.length, line.ask crc (noise.apply adu) fun line answer =>
      { line with queue := line.queue ++ [answer] })
  | .answerLost => (.ok adu.length, line.ask crc adu fun line _ => line)
  | .answerDamaged noise => (.ok adu.length, line.ask crc adu fun line answer =>
      { line with queue := line.queue ++ [noise.apply answer] })
  | .answerLate => (.ok adu.length, line.ask crc adu fun line answer =>
      { line with late := line.late ++ [answer] })

end Line

/-- The socket at the client's end.  When there is nothing to receive, what is late comes after
the timeout. -/
def noisy (crc : CrcType) : UdpClient.Socket Line where
  recvNoblock size line :=
    match line.queue with
    | [] => (.ok none, line)
    | d :: queue => (.ok (some (d.take size)), { line with queue })
  sendAllTo adu line :=
    { line with fates := line.fates.tail }.send crc adu (line.fates.headD .arrives)
  recvSome size line :=
    match line.queue with
    | [] => (.ioTimeout, { line with queue := line.late, late := [] })
    | d :: queue => (.ok (d.take size), { line with queue })
  pending line := line.queue.length
  recvNoblock_lt size line d h := by
    match line with
    | ⟨memory, [], late, fates⟩ => cases h
    | ⟨memory, _ :: queue, late, fates⟩ => exact Nat.lt_succ_self _

def UdpClient.overNoisy (client : UdpClient) : Transport Line :=
  client.transport (noisy client.crc)

/-! ### What the line does to operations -/

namespace Fate

def reaches : Fate → Bool
  | arrives => true
  | sendFails _ => false
  | requestLost => false
  | requestDamaged _ => false
  | answerLost => true
  | answerDamaged _ => true
  | answerLate => true

def error : Fate → Option ClientError
  | arrives => none
  | sendFails timeout => some (if timeout then .kTimeout else .kTransportError)
  | requestLost => some .kTimeout
  | requestDamaged _ => some .kTimeout
  | answerLost => some .kTimeout
  | answerDamaged _ => some .kInvalidResponse
  | answerLate => some .kTimeout

def perform (fate : Fate) (call : Call) (m : Memory) : Memory × Except Exit Told :=
  (if fate.reaches then (call.perform m).1 else m,
    match fate.error with
    | none => .ok (call.perform m).2
    | some e => .error (.error e))

def leaves (answer : Bytes) : Fate → List Bytes
  | answerLate => [answer]
  | _ => []

end Fate

/-! ### One call -/

namespace UdpClient

open Phase

variable {client : UdpClient}

theorem sendRawRequest_noisy {req : Bytes} (h : ¬ req.length > kMaxPduSize) (out : Bytes)
    (m : Memory) (fates : List Fate) : ∀ queue : List Bytes,
    client.sendRawRequest (noisy client.crc) req out ⟨m, queue, [], fates⟩
      = client.runPhases (noisy client.crc) 2
          (.sendAllTo (RtuFrame.encode client.crc ⟨client.slaveId, req, h⟩) out)
          ⟨m, [], [], fates⟩ := by
  intro queue
  induction queue with
  | nil =>
    show client.runPhases (noisy client.crc) 2 (client.onDrained req out) ⟨m, [], [], fates⟩ = _
    rw [client.onDrained_of_le h]
  | cons d queue ih => exact ih

theorem runPhases_sent {fates : List Fate} {fate : Fate} (hfate : fates.headD .arrives = fate)
    (adu out : Bytes) (m : Memory) :
    client.runPhases (noisy client.crc) 2 (.sendAllTo adu out) ⟨m, [], [], fates⟩
      = client.next (noisy client.crc)
          (onSendAllTo adu out (Line.send client.crc ⟨m, [], [], fates.tail⟩ adu fate).1)
          (Line.send client.crc ⟨m, [], [], fates.tail⟩ adu fate).2 := by
  rw [← hfate]
  rfl

/-- **One exchange** over the line, when the device answers `pdu`. -/
theorem sendRawRequest_fate (hcrc : client.crc.IsReflected) {req pdu : Bytes} {m m' : Memory}
    (hrespond : Device.respond m req = some (m', pdu)) (hreq : ¬ req.length > kMaxPduSize)
    (hpdu : ¬ pdu.length > kMaxPduSize) (queue : List Bytes) (fates : List Fate) :
    client.sendRawRequest (noisy client.crc) req emptyPdu ⟨m, queue, [], fates⟩
      = (match (fates.headD .arrives).error with
          | none => .done (.returned (.ok pdu.length)) (copyTo emptyPdu 0 pdu)
          | some e => fail e emptyPdu,
        ⟨if (fates.headD .arrives).reaches then m' else m,
          (fates.headD .arrives).leaves (RtuFrame.encode client.crc ⟨client.slaveId, pdu, hpdu⟩),
          [], fates.tail⟩) := by
  have hframe := Device.onFrame_encode client.crc client.slaveId hreq hpdu hrespond
  have hroom : pdu.length ≤ emptyPdu.length := by
    rw [length_emptyPdu]
    omega
  have hsent : ∀ adu : Bytes, onSendAllTo adu emptyPdu (.ok adu.length) = .recvSome emptyPdu :=
    fun adu => if_neg (not_not.mpr rfl)
  rw [sendRawRequest_noisy hreq]
  cases hfate : fates.headD .arrives with
  | arrives =>
    rw [runPhases_sent hfate]
    simp only [hsent, Line.send, Line.ask, hframe, next, noisy, onRecvSome, List.nil_append,
      RtuFrame.take_encode, client.onResponse_encode hpdu hroom]
    rfl
  | sendFails timeout =>
    rw [runPhases_sent hfate]
    cases timeout <;> rfl
  | requestLost =>
    rw [runPhases_sent hfate]
    simp only [hsent, Line.send]
    rfl
  | requestDamaged noise =>
    have hdamaged := noise.deserialize_apply hcrc ⟨client.slaveId, req, hreq⟩
    rw [runPhases_sent hfate]
    simp only [hsent, Line.send, Line.ask, Device.onFrame, hdamaged]
    rfl
  | answerLost =>
    rw [runPhases_sent hfate]
    simp only [hsent, Line.send, Line.ask, hframe]
    rfl
  | answerDamaged noise =>
    have hdamaged := noise.deserialize_apply hcrc ⟨client.slaveId, pdu, hpdu⟩
    have htake : ∀ frame : RtuFrame, (noise.apply (RtuFrame.encode client.crc frame)).take
        RtuFrame.kMaxFrameSize = noise.apply (RtuFrame.encode client.crc frame) := fun frame =>
      List.take_of_length_le ((noise.length_apply _).trans_le
        ((RtuFrame.length_encode frame).trans_le frame.getFrameSize_le))
    rw [runPhases_sent hfate]
    simp only [hsent, Line.send, Line.ask, hframe, next, noisy, onRecvSome, List.nil_append, htake,
      onResponse, hdamaged]
    rfl
  | answerLate =>
    rw [runPhases_sent hfate]
    simp only [hsent, Line.send, Line.ask, hframe]
    rfl

theorem send_noisy (hcrc : client.crc.IsReflected) {req pdu : Bytes} {m m' : Memory}
    (hrespond : Device.respond m req = some (m', pdu)) (hreq : ¬ req.length > kMaxPduSize)
    (hpdu : ¬ pdu.length > kMaxPduSize) (queue : List Bytes) (fates : List Fate) :
    (∃ queue', (client.overNoisy.send req ⟨m, queue, [], fates⟩).state
      = ⟨if (fates.headD .arrives).reaches then m' else m, queue', [], fates.tail⟩) ∧
    match (fates.headD .arrives).error with
    | none => client.overNoisy.reply req ⟨m, queue, [], fates⟩ = some pdu
    | some e =>
      (client.overNoisy.send req ⟨m, queue, [], fates⟩).outcome = .returned (.error e) := by
  have hcall := sendRawRequest_fate hcrc hrespond hreq hpdu queue fates
  have hsend : client.overNoisy.send req ⟨m, queue, [], fates⟩
      = (client.sendRawRequest (noisy client.crc) req emptyPdu ⟨m, queue, [], fates⟩).1.result
        (client.sendRawRequest (noisy client.crc) req emptyPdu ⟨m, queue, [], fates⟩).2
        emptyPdu := rfl
  rw [hcall] at hsend
  cases herror : (fates.headD .arrives).error with
  | none =>
    rw [herror] at hsend
    refine ⟨⟨_, congrArg SendResult.state hsend⟩, ?_⟩
    show client.overNoisy.reply req ⟨m, queue, [], fates⟩ = some pdu
    rw [reply, hsend]
    exact congrArg some List.take_left
  | some e =>
    rw [herror] at hsend
    exact ⟨⟨_, congrArg SendResult.state hsend⟩, congrArg SendResult.outcome hsend⟩

/-- **One call** over the line tells, and does, what the operation does. -/
theorem told_noisy (hcrc : client.crc.IsReflected) {call : Call} {req : Bytes}
    (h : call.Sends req) (m : Memory) (queue : List Bytes) (fates : List Fate) :
    call.told client.overNoisy ⟨m, queue, [], fates⟩
        = ((fates.headD .arrives).perform call m).2 ∧
      ∃ queue', call.transportState client.overNoisy ⟨m, queue, [], fates⟩
        = ⟨((fates.headD .arrives).perform call m).1, queue', [], fates.tail⟩ := by
  obtain ⟨pdu, hrespond, hpdu, htold⟩ := Call.exists_respond h m
  have hreq := Call.length_le_of_sends h
  obtain ⟨⟨queue', hstate⟩, hout⟩ :=
    send_noisy hcrc hrespond (Nat.not_lt.mpr hreq) (Nat.not_lt.mpr hpdu) queue fates
  refine ⟨?_, queue', by rw [Call.transportState_of_sends h, hstate]; rfl⟩
  unfold Fate.perform
  cases herror : (fates.headD .arrives).error with
  | none =>
    rw [herror] at hout
    exact htold _ _ hout
  | some e =>
    rw [herror] at hout
    exact Call.told_eq_error.mpr (Call.result_of_transport_error h hout)

end UdpClient

/-! ### Every run -/

/-- Calls on the memory itself: each exchange has its fate, and a call that is not valid has no
exchange. -/
def Memory.runAll : List Call → Memory → List Fate → List (Except Exit Told) × Memory
  | [], m, _ => ([], m)
  | call :: calls, m, fates =>
    if call.Valid then
      let r := (fates.headD .arrives).perform call m
      (r.2 :: (runAll calls r.1 fates.tail).1, (runAll calls r.1 fates.tail).2)
    else
      (.error (.error call.refusal) :: (runAll calls m fates).1, (runAll calls m fates).2)

theorem runAll_overNoisy (client : UdpClient) (hcrc : client.crc.IsReflected) (calls : List Call)
    (m : Memory) (queue : List Bytes) (fates : List Fate) : ∃ queue' fates',
      Call.runAll client.overNoisy calls ⟨m, queue, [], fates⟩
        = ((Memory.runAll calls m fates).1, ⟨(Memory.runAll calls m fates).2, queue', [], fates'⟩)
    := by
  induction calls generalizing m queue fates with
  | nil => exact ⟨queue, fates, rfl⟩
  | cons call calls ih =>
    rw [Call.runAll, Memory.runAll]
    by_cases hvalid : call.Valid
    · obtain ⟨req, hsends⟩ := Call.exists_sends.mpr hvalid
      obtain ⟨htold, queue', hstate⟩ := UdpClient.told_noisy hcrc hsends m queue fates
      obtain ⟨queue'', fates', hrun⟩ :=
        ih ((fates.headD .arrives).perform call m).1 queue' fates.tail
      rw [if_pos hvalid, htold, hstate, hrun]
      exact ⟨queue'', fates', rfl⟩
    · have hrefused : ∀ req, ¬ call.Sends req := fun req hsends =>
        hvalid (Call.exists_sends.mp ⟨req, hsends⟩)
      obtain ⟨queue', fates', hrun⟩ := ih m queue fates
      rw [if_neg hvalid, Call.transportState_of_refused hrefused,
        Call.told_eq_error.mpr (Call.result_of_refused hrefused), hrun]
      exact ⟨queue', fates', rfl⟩

/-- **Every run over a noisy line is a run on the memory.**  Whatever the memory holds, whatever
waits on the socket and whatever becomes of the exchanges: the calls tell their callers, and do to
the memory, what the operations do that reach it. -/
theorem run_noisy (client : UdpClient) (hcrc : client.crc.IsReflected) (calls : List Call)
    (m : Memory) (queue : List Bytes) (fates : List Fate) :
    (Call.runAll client.overNoisy calls ⟨m, queue, [], fates⟩).1 = (Memory.runAll calls m fates).1 ∧
      (Call.runAll client.overNoisy calls ⟨m, queue, [], fates⟩).2.memory
        = (Memory.runAll calls m fates).2 := by
  obtain ⟨queue', fates', hrun⟩ := runAll_overNoisy client hcrc calls m queue fates
  rw [hrun]
  exact ⟨rfl, rfl⟩

/-- A register is written, but the answer is lost; what is written next is damaged on its way; and
the register is read. -/
theorem run_noisy_lost : (Call.runAll (UdpClient.overNoisy ⟨1, bitwiseCrc⟩)
      [.writeSingle .register 7 42, .writeSingle .register 7 43,
        .read .readHoldingRegisters 7 1 [(0 : UInt16)]]
      ⟨.blank, [], [], [.answerLost, .requestDamaged .flipFirst]⟩).1
    = [.error (.error .kTimeout), .error (.error .kTimeout),
        .ok (.read .readHoldingRegisters ⟨[(42 : UInt16)], []⟩)] :=
  (run_noisy ⟨1, bitwiseCrc⟩ isReflected_bitwiseCrc _ .blank [] _).1.trans rfl

end Modbus
