import Modbus.Client.Base
import Modbus.RtuFrame

/-!
# An honest device

The other end of the line, for end-to-end statements: a memory of four tables, and a
device that decodes a request with the request's own `Deserialize`, reads or writes its
memory, and answers with the matching response.  It is written with the message classes
of the repository, which has no device of its own.

* `respond_read`, `respond_writeSingle`, `respond_writeMultiple`: what the device makes
  of a well-formed request.
-/

namespace Modbus

open Span Transport

/-! ### Memory -/

/-- The four tables of a device.  Coils and inputs are on or off. -/
structure Memory where
  coils : UInt16 → Coil
  discreteInputs : UInt16 → DiscreteInput
  holdingRegisters : UInt16 → UInt16
  inputRegisters : UInt16 → UInt16
  coils_named : ∀ a, (coils a).Named
  discreteInputs_named : ∀ a, (discreteInputs a).Named

/-- A table with `values` written from `address` on. -/
def overwrite {T : Type} (table : UInt16 → T) (address : UInt16) (values : List T) : UInt16 → T :=
  fun a =>
    if address.toNat ≤ a.toNat then values.getD (a.toNat - address.toNat) (table a)
    else table a

theorem overwrite_of_mem {T : Type} {table : UInt16 → T} {address a : UInt16} {values : List T}
    (h : address.toNat ≤ a.toNat) (h' : a.toNat - address.toNat < values.length) :
    overwrite table address values a = values[a.toNat - address.toNat] := by
  rw [overwrite, if_pos h, List.getD_eq_getElem _ _ h']

theorem overwrite_of_not_mem {T : Type} {table : UInt16 → T} {address a : UInt16} {values : List T}
    (h : ¬ (address.toNat ≤ a.toNat ∧ a.toNat < address.toNat + values.length)) :
    overwrite table address values a = table a := by
  unfold overwrite
  split
  · rw [List.getD_eq_default _ _ (by omega)]
  · rfl

theorem overwrite_induction {T : Type} {p : T → Prop} {table : UInt16 → T} {values : List T}
    (htable : ∀ a, p (table a)) (hvalues : ∀ val ∈ values, p val) (address a : UInt16) :
    p (overwrite table address values a) := by
  by_cases h : address.toNat ≤ a.toNat ∧ a.toNat < address.toNat + values.length
  · rw [overwrite_of_mem h.1 (by omega)]
    exact hvalues _ (List.getElem_mem _)
  · rw [overwrite_of_not_mem h]
    exact htable a

namespace Memory

def table (m : Memory) : (op : ReadOp) → UInt16 → op.T
  | .readCoils => m.coils
  | .readDiscreteInputs => m.discreteInputs
  | .readHoldingRegisters => m.holdingRegisters
  | .readInputRegisters => m.inputRegisters

theorem named_table (m : Memory) (op : ReadOp) (a : UInt16) : op.kind.Named (m.table op a) := by
  cases op with
  | readCoils => exact m.coils_named a
  | readDiscreteInputs => exact m.discreteInputs_named a
  | readHoldingRegisters | readInputRegisters => trivial

def read (m : Memory) (op : ReadOp) (address quantity : UInt16) : List op.T :=
  (List.range quantity.toNat).map (fun i => m.table op (address + UInt16.ofNat i))

def write (m : Memory) : (kind : WriteKind) → (address : UInt16) → (values : List kind.T) →
    (∀ val ∈ values, kind.Accepts val) → Memory
  | .coil, address, values, h =>
    { m with
      coils := overwrite m.coils address values
      coils_named := overwrite_induction m.coils_named h address }
  | .register, address, values, _ =>
    { m with holdingRegisters := overwrite m.holdingRegisters address values }

@[simp] theorem length_read (m : Memory) (op : ReadOp) (address quantity : UInt16) :
    (m.read op address quantity).length = quantity.toNat := by simp [read]

theorem named_read (m : Memory) (op : ReadOp) (address quantity : UInt16) :
    ∀ val ∈ m.read op address quantity, op.kind.Named val := by
  intro val hval
  obtain ⟨i, _, rfl⟩ := List.mem_map.mp hval
  exact m.named_table op _

end Memory

/-! ### What a write changes -/

/-- The read that sees what is written. -/
def WriteKind.readOp : WriteKind → ReadOp
  | .coil => .readCoils
  | .register => .readHoldingRegisters

/-- A written value, as it is read. -/
def WriteKind.toRead : (kind : WriteKind) → kind.T → kind.readOp.T
  | .coil, value => value
  | .register, value => value

namespace Memory

/-- `m'` is `m` with `values` in the cells from `address` on, and no other cell changed. -/
def WrittenOnly (m m' : Memory) (kind : WriteKind) (address : UInt16) (values : List kind.T) :
    Prop :=
  (∀ (i : Nat) (hi : i < values.length),
    m'.table kind.readOp (address + UInt16.ofNat i) = kind.toRead (values.get ⟨i, hi⟩)) ∧
  (∀ (op : ReadOp) (a : UInt16), (op = kind.readOp →
      ¬ (address.toNat ≤ a.toNat ∧ a.toNat < address.toNat + values.length)) →
    m'.table op a = m.table op a)

theorem toNat_add_ofNat {address : UInt16} {i : Nat} (h : address.toNat + i < 0x10000) :
    (address + UInt16.ofNat i).toNat = address.toNat + i := by
  rw [UInt16.toNat_add, UInt16.toNat_ofNat', Nat.mod_eq_of_lt (by omega : i < 2 ^ 16),
    Nat.mod_eq_of_lt h]

theorem overwrite_add {T : Type} {table : UInt16 → T} {address : UInt16} {values : List T}
    (hover : address.toNat + values.length ≤ 0x10000) (i : Nat) (hi : i < values.length) :
    overwrite table address values (address + UInt16.ofNat i) = values.get ⟨i, hi⟩ := by
  have hnat := toNat_add_ofNat (by omega : address.toNat + i < 0x10000)
  rw [overwrite_of_mem (by omega) (by omega)]
  simp only [hnat, Nat.add_sub_cancel_left, List.get_eq_getElem]

theorem writtenOnly_write (m : Memory) {kind : WriteKind} {address : UInt16}
    {values : List kind.T} (h : ∀ val ∈ values, kind.Accepts val)
    (hover : address.toNat + values.length ≤ 0x10000) :
    WrittenOnly m (m.write kind address values h) kind address values := by
  cases kind with
  | coil =>
    refine ⟨fun i hi => overwrite_add hover i hi, fun op a ha => ?_⟩
    cases op with
    | readCoils => exact overwrite_of_not_mem (ha rfl)
    | _ => rfl
  | register =>
    refine ⟨fun i hi => overwrite_add hover i hi, fun op a ha => ?_⟩
    cases op with
    | readHoldingRegisters => exact overwrite_of_not_mem (ha rfl)
    | _ => rfl

end Memory

/-! ### The device -/

def serialized (serialize : Writer) : Option Bytes :=
  match serialize.run (OutSpan.of emptyPdu) with
  | .ok _ out => some out.written
  | .error _ _ => none

theorem serialized_eq {serialize : Writer} {pdu : Bytes} (h : Writes serialize pdu)
    (hlen : pdu.length ≤ kMaxPduSize) : serialized serialize = some pdu := by
  have hrun : serialize.run (OutSpan.of emptyPdu) = .ok () ⟨pdu, emptyPdu.drop pdu.length⟩ :=
    h [] emptyPdu (by rwa [length_emptyPdu])
  rw [serialized, hrun]

namespace Device

def answer (memory : Memory) (serialize : Writer) : Option (Memory × Bytes) :=
  (serialized serialize).map (fun pdu => (memory, pdu))

def onRead (memory : Memory) (op : ReadOp) (requestPdu : Bytes) : Option (Memory × Bytes) :=
  match (RangeMessage.deserialize op.functionCode op.maxQuantity).run requestPdu with
  | .error _ _ => none
  | .ok request _ =>
    match Response.ReadMultiple.create op.kind op.functionCode op.maxQuantity
        (memory.read op request.address request.quantity) with
    | .error _ => none
    | .ok response => answer memory response.serialize

def onWriteSingle (memory : Memory) (kind : WriteKind) (requestPdu : Bytes) :
    Option (Memory × Bytes) :=
  match (SingleMessage.deserialize kind kind.singleCode).run requestPdu with
  | .error _ _ => none
  | .ok request _ =>
    match SingleMessage.create kind kind.singleCode request.address request.value with
    | .error _ => none
    | .ok response => answer (memory.write kind request.address [request.value]
        (List.forall_mem_singleton.mpr request.value_ok)) response.serialize

def onWriteMultiple (memory : Memory) (kind : WriteKind) (requestPdu : Bytes) :
    Option (Memory × Bytes) :=
  match (Request.WriteMultiple.deserialize kind kind.multipleCode kind.maxQuantity).run
      requestPdu with
  | .error _ _ => none
  | .ok request _ =>
    match RangeMessage.create kind.multipleCode kind.maxQuantity request.address
        request.getQuantity with
    | .error _ => none
    | .ok response => answer (memory.write kind request.address request.values
        request.values_ok) response.serialize

/-- The request is the one whose function code comes first. -/
def respond (memory : Memory) (requestPdu : Bytes) : Option (Memory × Bytes) :=
  match requestPdu with
  | [] => none
  | raw :: _ =>
    if FunctionCode.mk raw = .kReadCoils then onRead memory .readCoils requestPdu
    else if FunctionCode.mk raw = .kReadDiscreteInputs then
      onRead memory .readDiscreteInputs requestPdu
    else if FunctionCode.mk raw = .kReadHoldingRegisters then
      onRead memory .readHoldingRegisters requestPdu
    else if FunctionCode.mk raw = .kReadInputRegisters then
      onRead memory .readInputRegisters requestPdu
    else if FunctionCode.mk raw = .kWriteSingleCoil then onWriteSingle memory .coil requestPdu
    else if FunctionCode.mk raw = .kWriteSingleHoldingRegister then
      onWriteSingle memory .register requestPdu
    else if FunctionCode.mk raw = .kWriteMultipleCoils then onWriteMultiple memory .coil requestPdu
    else if FunctionCode.mk raw = .kWriteMultipleHoldingRegisters then
      onWriteMultiple memory .register requestPdu
    else none

/-- The response, in a frame of the same slave id as the request. -/
def onFrame (crc : CrcType) (memory : Memory) (requestAdu : Bytes) : Option (Memory × Bytes) :=
  match (RtuFrame.deserialize crc).run requestAdu with
  | .error _ _ => none
  | .ok requestFrame _ =>
    match respond memory requestFrame.pdu with
    | none => none
    | some (memory', responsePdu) =>
      match RtuFrame.create requestFrame.slaveId responsePdu with
      | .error _ => none
      | .ok responseFrame =>
        match (responseFrame.serialize crc).run RtuFrame.emptyFrame with
        | .error _ _ => none
        | .ok _ buffer => some (memory', buffer.take responseFrame.getFrameSize)

/-! ### What it answers -/

theorem respond_cons_read (memory : Memory) (op : ReadOp) (tail : Bytes) :
    respond memory (op.functionCode.raw :: tail)
      = onRead memory op (op.functionCode.raw :: tail) := by
  cases op <;> rfl

theorem respond_cons_writeSingle (memory : Memory) (kind : WriteKind) (tail : Bytes) :
    respond memory (kind.singleCode.raw :: tail)
      = onWriteSingle memory kind (kind.singleCode.raw :: tail) := by
  cases kind <;> rfl

theorem respond_cons_writeMultiple (memory : Memory) (kind : WriteKind) (tail : Bytes) :
    respond memory (kind.multipleCode.raw :: tail)
      = onWriteMultiple memory kind (kind.multipleCode.raw :: tail) := by
  cases kind <;> rfl

def readResponse (memory : Memory) {op : ReadOp} (request : op.Request) : op.Response where
  values := memory.read op request.address request.quantity
  quantity_ok := by
    rw [memory.length_read, ← quantity_iff]
    exact request.quantity_ok

/-- **A read is answered** with the cells that were asked for. -/
theorem respond_read (memory : Memory) {op : ReadOp} (request : op.Request) :
    respond memory request.encode = some (memory, (readResponse memory request).encode) ∧
      (readResponse memory request).encode.length ≤ kMaxPduSize := by
  have hmax := op.payloadSize_le
  have hfit : op.kind.payloadSize op.maxQuantity.toNat ≤ 255 := by omega
  have hlen : (readResponse memory request).encode.length ≤ kMaxPduSize := by
    have := op.kind.payloadSize_mono (readResponse memory request).length_le
    rw [Response.ReadMultiple.length_encode hfit, Response.ReadMultiple.getEncodedSize,
      Response.ReadMultiple.toNat_getByteCount hfit, kMaxPduSize]
    omega
  have hrun : (RangeMessage.deserialize op.functionCode op.maxQuantity).run request.encode
      = .ok request [] :=
    RangeMessage.deserialize_eq_ok.mpr (List.append_nil _).symm
  have hcreate : Response.ReadMultiple.create op.kind op.functionCode op.maxQuantity
      (memory.read op request.address request.quantity) = .ok (readResponse memory request) :=
    Response.ReadMultiple.create_eq_ok.mpr rfl
  have hser := serialized_eq ((readResponse memory request).writes_serialize hfit) hlen
  refine ⟨(respond_cons_read memory op _).trans ?_, hlen⟩
  show onRead memory op request.encode = _
  simp only [onRead, hrun, hcreate, answer, hser, Option.map_some]

/-- **A single write is confirmed** and takes effect. -/
theorem respond_writeSingle (memory : Memory) {kind : WriteKind} (request : kind.Single) :
    respond memory request.encode = some (memory.write kind request.address [request.value]
      (List.forall_mem_singleton.mpr request.value_ok), request.encode) := by
  have hrun : (SingleMessage.deserialize kind kind.singleCode).run request.encode
      = .ok request [] :=
    SingleMessage.deserialize_eq_ok.mpr (List.append_nil _).symm
  have hcreate : SingleMessage.create kind kind.singleCode request.address request.value
      = .ok request := SingleMessage.create_eq_ok.mpr ⟨rfl, rfl⟩
  have hser := serialized_eq request.writes_serialize (by simp [kMaxPduSize])
  refine (respond_cons_writeSingle memory kind _).trans ?_
  show onWriteSingle memory kind request.encode = _
  simp only [onWriteSingle, hrun, hcreate, answer, hser, Option.map_some]

def confirmation {kind : WriteKind} (request : kind.MultipleRequest) : kind.MultipleResponse :=
  ⟨request.address, request.getQuantity, request.not_quantity, request.address_ok⟩

/-- **A multiple write is confirmed** and takes effect. -/
theorem respond_writeMultiple (memory : Memory) {kind : WriteKind}
    (request : kind.MultipleRequest) :
    respond memory request.encode = some (memory.write kind request.address request.values
      request.values_ok, (confirmation request).encode) := by
  have hrun : (Request.WriteMultiple.deserialize kind kind.multipleCode kind.maxQuantity).run
      request.encode = .ok request [] := by
    have := request.deserialize_encode []
    rwa [List.append_nil] at this
  have hcreate : RangeMessage.create kind.multipleCode kind.maxQuantity request.address
      request.getQuantity = .ok (confirmation request) :=
    RangeMessage.create_eq_ok.mpr ⟨rfl, rfl⟩
  have hser := serialized_eq (confirmation request).writes_serialize (by simp [kMaxPduSize])
  refine (respond_cons_writeMultiple memory kind _).trans ?_
  show onWriteMultiple memory kind request.encode = _
  simp only [onWriteMultiple, hrun, hcreate, answer, hser, Option.map_some]

/-- **A frame is answered** as its PDU is, in a frame of the same slave id. -/
theorem onFrame_encode (crc : CrcType) {memory memory' : Memory} (slaveId : UInt8)
    {req pdu : Bytes} (hreq : ¬ req.length > kMaxPduSize) (hpdu : ¬ pdu.length > kMaxPduSize)
    (h : respond memory req = some (memory', pdu)) :
    onFrame crc memory (RtuFrame.encode crc ⟨slaveId, req, hreq⟩)
      = some (memory', RtuFrame.encode crc ⟨slaveId, pdu, hpdu⟩) := by
  have hcreate : RtuFrame.create slaveId pdu = .ok ⟨slaveId, pdu, hpdu⟩ := dif_neg hpdu
  obtain ⟨rest, buffer, hser, htake⟩ := RtuFrame.run_serialize_emptyFrame crc ⟨slaveId, pdu, hpdu⟩
  simp only [onFrame, RtuFrame.deserialize_encode, h, hcreate, hser, htake]

end Device

end Modbus
