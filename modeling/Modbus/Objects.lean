import Modbus.Library.Cells
import Modbus.Messages
import Modbus.RtuFrame

/-!
# Objects

A message with values keeps them in `std::array<T, MaxQty> values_`, of which the constructor fills
in `quantity_` elements and leaves the others indeterminate; a frame keeps its PDU in an array of
bytes.  Here the arrays are there, with the indices that the source uses, and a message is what
an object stands for.  `Create` returns its object by the implicit move constructor, which copies
the whole array, with the elements that nothing was assigned to.

* `Stored.Stores.writeValues`, `Stored.Stores.writePayload`: the loops of `Serialize`.
* `objects_stay_in_bounds`: no operation on an object indexes past an array, or uses an element
  that nothing was assigned to, apart from that move.
-/

namespace Modbus

open Span Cells

/-! ### `values_` -/

/-- `quantity_`, and the array behind it. -/
structure Stored (T : Type) where
  quantity : UInt16
  cells : List (Option T)

abbrev ObjectWriter := EStateM (Fault ParseError) (OutSpan UInt8) Unit

namespace Stored

variable {T : Type}

/-- The private constructors: `std::copy(values.begin(), values.end(), values_.begin())`. -/
def construct (maxQty : UInt16) (values : List T) : Except (Fault ParseError) (Stored T) := do
  let cells ← copyIn (List.replicate maxQty.toNat none) 0 values
  return ⟨UInt16.ofNat values.length, cells⟩

/-- The implicit move constructor. -/
def move (o : Stored T) : Except (Fault ParseError) (Stored T) := do
  let cells ← copyCells o.cells
  return ⟨o.quantity, cells⟩

/-- Nothing was assigned to the element at `i`. -/
def Unassigned (o : Stored T) (i : Nat) : Prop := o.cells[i]? = some none

/-- `std::span<const T>{values_.data(), quantity_}`, element by element. -/
def getValues (o : Stored T) : Except (Fault ParseError) (List T) :=
  readAll o.cells o.quantity.toNat

/-- One pass of the outer loop over coils: the byte at `byteIdx`. -/
def coilByte (o : Stored Coil) (byteIdx : Nat) : Except (Fault ParseError) UInt8 :=
  (List.range 8).foldlM (fun byteVal bitIdx => do
    let coilIdx := byteIdx * 8 + bitIdx
    if coilIdx < o.quantity.toNat then
      let val ← read o.cells coilIdx
      if val = .kOn then return byteVal ||| UInt8.ofNat (1 <<< bitIdx) else return byteVal
    else return byteVal) 0

/-- The values of a request, after the header. -/
def writeValues : (kind : WriteKind) → Stored kind.T → UInt8 → ObjectWriter
  | .coil, o, byteCount => (List.range byteCount.toNat).forM fun byteIdx => do
    let byteVal ← lift (o.coilByte byteIdx)
    within (ignore (writeBe byteVal))
  | .register, o, _ => (List.range o.quantity.toNat).forM fun i => do
    let value ← lift (read o.cells i)
    within (ignore (writeBe value))

/-- `for (; i < quantity_; ++i)` with `n` passes to go, and the last `if`. -/
def writeBits (isSet : T → Bool) (o : Stored T) : Nat → Nat → UInt8 → Nat → ObjectWriter
  | _, 0, currentByte, bitIndex =>
    if bitIndex > 0 then within (ignore (writeBe currentByte)) else pure ()
  | i, n + 1, currentByte, bitIndex => do
    let val ← lift (read o.cells i)
    let currentByte :=
      if isSet val then currentByte ||| UInt8.ofNat (1 <<< bitIndex) else currentByte
    if bitIndex + 1 = 8 then
      within (ignore (writeBe currentByte))
      writeBits isSet o (i + 1) n 0 0
    else writeBits isSet o (i + 1) n currentByte (bitIndex + 1)

/-- The values of a response, after the header. -/
def writePayload : (kind : ReadKind) → Stored kind.T → ObjectWriter
  | .coil, o => o.writeBits (fun val => decide (val = .kOn)) 0 o.quantity.toNat 0 0
  | .discreteInput, o => o.writeBits (fun val => decide (val = .kOn)) 0 o.quantity.toNat 0 0
  | .register, o => (List.range o.quantity.toNat).forM fun i => do
    let value ← lift (read o.cells i)
    within (ignore (writeBe value))

structure Stores (o : Stored T) (values : List T) : Prop where
  quantity : o.quantity.toNat = values.length
  filled : Filled o.cells values

variable {o : Stored T} {values : List T} {maxQty : UInt16}

theorem move_eq (o : Stored T) : o.move = .ok o := by
  rw [move, copyCells_eq]
  rfl

/-- **The constructor stores what it is given**, if it is not too much, and leaves the other
elements as they are. -/
theorem construct_of_le (h : values.length ≤ maxQty.toNat) :
    ∃ o : Stored T, construct maxQty values = .ok o ∧ o.Stores values ∧
      ∀ i, o.Unassigned i ↔ values.length ≤ i ∧ i < maxQty.toNat := by
  have hmax := maxQty.toNat_lt
  have hcopy := copyIn_of_le ParseError (List.replicate maxQty.toNat none) values 0
    (by rw [List.length_replicate]; omega)
  refine ⟨_, by rw [construct, hcopy]; rfl, ⟨?_, ?_⟩, fun i => ?_⟩
  · rw [UInt16.toNat_ofNat']
    exact Nat.mod_eq_of_lt (by omega)
  · exact List.prefix_append _ _
  · rw [Unassigned, List.take_zero, List.nil_append, List.drop_replicate, Nat.zero_add,
      getElem?_filled_eq_none, Nat.add_sub_cancel' h]

theorem Stores.getValues (h : o.Stores values) : o.getValues = .ok values := by
  rw [Stored.getValues, h.quantity, h.filled.readAll (Nat.le_refl _), List.take_length]

theorem Stores.read (h : o.Stores values) {i : Nat} (hi : i < values.length) :
    (Cells.read o.cells i : Except (Fault ParseError) T) = .ok values[i] := h.filled.read hi

/-! The loops. -/

theorem Stores.coilByte {o : Stored Coil} {values : List Coil} (h : o.Stores values)
    (byteIdx : Nat) : o.coilByte byteIdx = .ok (Modbus.coilByte values byteIdx) := by
  unfold Stored.coilByte Modbus.coilByte
  show _ = (pure (List.foldl _ _ _) : Except (Fault ParseError) UInt8)
  rw [← List.foldlM_pure]
  congr 1
  funext byteVal bitIdx
  dsimp only
  by_cases hlt : byteIdx * 8 + bitIdx < values.length
  · rw [if_pos (h.quantity ▸ hlt), h.read hlt, List.getElem?_eq_getElem hlt]
    by_cases hon : values[byteIdx * 8 + bitIdx] = .kOn
    · rw [if_pos ⟨hlt, congrArg some hon⟩]
      exact if_pos hon
    · rw [if_neg fun hand => hon (Option.some.inj hand.2)]
      exact if_neg hon
  · rw [if_neg (h.quantity ▸ hlt), if_neg fun hand => hlt hand.1]

theorem Stores.forM_range' (h : o.Stores values) (f : T → Writer) {i n : Nat}
    (hn : i + n = values.length) :
    ((List.range' i n).forM fun i => do
      let value ← lift (Cells.read o.cells i)
      within (f value)) = within ((values.drop i).forM f) := by
  induction n generalizing i with
  | zero =>
    rw [List.drop_eq_nil_of_le (by omega)]
    rfl
  | succ n ih =>
    have hlt : i < values.length := by omega
    rw [List.drop_eq_getElem_cons hlt, List.range'_succ]
    show (lift (Cells.read o.cells i) >>= fun value => within (f value)) >>= (fun _ =>
      (List.range' (i + 1) n).forM _) = within (f values[i] >>= fun _ => _)
    rw [h.read hlt, lift_ok_bind, within_bind, ih (by omega)]

theorem Stores.forM (h : o.Stores values) (f : T → Writer) :
    ((List.range o.quantity.toNat).forM fun i => do
      let value ← lift (Cells.read o.cells i)
      within (f value)) = within (values.forM f) := by
  rw [List.range_eq_range', h.forM_range' f (by rw [h.quantity, Nat.zero_add]), List.drop_zero]

theorem Stores.writeValues {kind : WriteKind} {o : Stored kind.T} {values : List kind.T}
    (h : o.Stores values) (byteCount : UInt8) :
    o.writeValues kind byteCount = within (Modbus.writeValues kind values byteCount) := by
  cases kind with
  | coil =>
    rw [Stored.writeValues, Modbus.writeValues, writeValuesWith, within_forM]
    congr 1
    funext byteIdx
    rw [h.coilByte]
    rfl
  | register => exact h.forM fun value => ignore (writeBe value)

/-- **The loop over bits**, from index `i` on. -/
theorem Stores.writeBits (h : o.Stores values) (isSet : T → Bool) {i n : Nat}
    (hn : i + n = values.length) (currentByte : UInt8) (bitIndex : Nat) :
    o.writeBits isSet i n currentByte bitIndex
      = within (Modbus.writeBits isSet (values.drop i) currentByte bitIndex) := by
  induction n generalizing i currentByte bitIndex with
  | zero =>
    rw [List.drop_eq_nil_of_le (by omega), Stored.writeBits, Modbus.writeBits, writeBitsWith]
    split <;> rfl
  | succ n ih =>
    have hlt : i < values.length := by omega
    rw [Stored.writeBits, h.read hlt, List.drop_eq_getElem_cons hlt, Modbus.writeBits,
      writeBitsWith, lift_ok_bind]
    dsimp only
    by_cases hlast : bitIndex + 1 = 8
    · rw [if_pos hlast, if_pos hlast, within_bind, ih (by omega)]
      rfl
    · rw [if_neg hlast, if_neg hlast, ih (by omega)]
      rfl

theorem Stores.writePayload {kind : ReadKind} {o : Stored kind.T} {values : List kind.T}
    (h : o.Stores values) : o.writePayload kind = within (Modbus.writePayload kind values) := by
  have hn : 0 + o.quantity.toNat = values.length := by rw [h.quantity, Nat.zero_add]
  cases kind with
  | coil => exact h.writeBits _ hn 0 0
  | discreteInput => exact h.writeBits _ hn 0 0
  | register => exact h.forM fun value => ignore (writeBe value)

end Stored

/-! ### The two templates -/

namespace Request.WriteMultiple

structure Object (kind : WriteKind) where
  address : UInt16
  stored : Stored kind.T

namespace Object

variable {kind : WriteKind} {code : FunctionCode} {maxQty : UInt16}

def create (kind : WriteKind) (maxQty : UInt16) (address : UInt16) (values : List kind.T) :
    Except (Fault ParseError) (Object kind) := do
  if values.length < kMinQuantity.toNat ∨ values.length > maxQty.toNat then
    throw (.fails .kInvalidQuantity)
  if wouldAddressOverflow address (UInt16.ofNat values.length) then
    throw (.fails .kAddressOverflow)
  if ¬ ∀ val ∈ values, kind.Accepts val then throw (.fails .kInvalidValue)
  let stored ← Stored.construct maxQty values
  let moved ← stored.move
  return ⟨address, moved⟩

def getByteCount (o : Object kind) : UInt8 := calcByteCount kind o.stored.quantity.toNat

def getEncodedSize (o : Object kind) : Nat := 6 + o.getByteCount.toNat

def serialize (code : FunctionCode) (o : Object kind) : ObjectWriter := do
  within (requireRoom o.getEncodedSize .kBufferTooShort)
  within (ignore (writeBe code.raw))
  within (ignore (writeBe o.address))
  within (ignore (writeBe o.stored.quantity))
  within (ignore (writeBe o.getByteCount))
  o.stored.writeValues kind o.getByteCount

/-- **An object does what its message does.** -/
theorem serialize_eq {o : Object kind} {m : WriteMultiple kind code maxQty}
    (haddress : o.address = m.address) (hstored : o.stored.Stores m.values) :
    o.serialize code = within m.serialize := by
  have hquantity : o.stored.quantity = m.getQuantity :=
    UInt16.toNat_inj.mp (hstored.quantity.trans m.toNat_getQuantity.symm)
  have hcount : o.getByteCount = m.getByteCount := by
    rw [getByteCount, hquantity]
    rfl
  have hsize : o.getEncodedSize = m.getEncodedSize := by
    rw [getEncodedSize, hcount]
    rfl
  simp only [serialize, WriteMultiple.serialize, within_bind, hstored.writeValues, hcount, hsize,
    haddress, hquantity]

/-- **The two `Create`s agree**, and the objects store the values. -/
theorem create_agrees (kind : WriteKind) (code : FunctionCode) (maxQty address : UInt16)
    (values : List kind.T) :
    match WriteMultiple.create kind code maxQty address values with
    | .ok m => ∃ o, create kind maxQty address values = .ok o ∧
        Stored.construct maxQty values = .ok o.stored ∧ o.address = m.address ∧
        o.stored.Stores m.values ∧
        ∀ i, o.stored.Unassigned i ↔ m.values.length ≤ i ∧ i < maxQty.toNat
    | .error e => create kind maxQty address values = .error (.fails e) := by
  unfold create WriteMultiple.create
  by_cases hq : values.length < kMinQuantity.toNat ∨ values.length > maxQty.toNat
  · rw [dif_pos hq, if_pos hq]
    rfl
  rw [dif_neg hq, if_neg hq]
  by_cases ha : wouldAddressOverflow address (UInt16.ofNat values.length)
  · rw [dif_pos ha, if_pos ha]
    rfl
  rw [dif_neg ha, if_neg ha]
  by_cases hv : ∀ val ∈ values, kind.Accepts val
  · rw [dif_pos hv, if_neg (not_not.mpr hv)]
    obtain ⟨stored, hstored, hvalues⟩ :=
      Stored.construct_of_le (Nat.not_lt.mp fun h => hq (.inr h))
    exact ⟨⟨address, stored⟩, by rw [hstored, ok_bind, stored.move_eq]; rfl, hstored, rfl, hvalues⟩
  · rw [dif_neg hv, if_pos hv]
    rfl

end Object

end Request.WriteMultiple

namespace Response.ReadMultiple

/-- The object of a response is its values. -/
def createStored (kind : ReadKind) (maxQty : UInt16) (values : List kind.T) :
    Except (Fault ParseError) (Stored kind.T) := do
  if values.length < kMinQuantity.toNat ∨ values.length > maxQty.toNat then
    throw (.fails .kInvalidQuantity)
  let stored ← Stored.construct maxQty values
  stored.move

variable {kind : ReadKind} {code : FunctionCode} {maxQty : UInt16}

def storedByteCount (o : Stored kind.T) : UInt8 :=
  match kind with
  | .coil => UInt8.ofNat (bitsToBytes o.quantity.toNat)
  | .discreteInput => UInt8.ofNat (bitsToBytes o.quantity.toNat)
  | .register => UInt8.ofNat (o.quantity.toNat * 2)

def serializeStored (code : FunctionCode) (o : Stored kind.T) : ObjectWriter := do
  within (requireRoom (2 + (storedByteCount o).toNat) .kBufferTooShort)
  within (ignore (writeBe code.raw))
  within (ignore (writeBe (storedByteCount o)))
  o.writePayload kind

/-- **An object does what its message does.** -/
theorem serializeStored_eq {o : Stored kind.T} {m : ReadMultiple kind code maxQty}
    (h : o.Stores m.values) : serializeStored code o = within m.serialize := by
  have hquantity : o.quantity = m.getQuantity :=
    UInt16.toNat_inj.mp (h.quantity.trans m.toNat_getQuantity.symm)
  have hcount : storedByteCount o = m.getByteCount := by
    cases kind <;> rw [storedByteCount, getByteCount, hquantity]
  simp only [serializeStored, ReadMultiple.serialize, within_bind, h.writePayload, hcount,
    getEncodedSize]

/-- **The two `Create`s agree**, and the objects store the values. -/
theorem createStored_agrees (kind : ReadKind) (code : FunctionCode) (maxQty : UInt16)
    (values : List kind.T) :
    match create kind code maxQty values with
    | .ok m => ∃ o, createStored kind maxQty values = .ok o ∧
        Stored.construct maxQty values = .ok o ∧ o.Stores m.values ∧
        ∀ i, o.Unassigned i ↔ m.values.length ≤ i ∧ i < maxQty.toNat
    | .error e => createStored kind maxQty values = .error (.fails e) := by
  unfold createStored create
  by_cases hq : values.length < kMinQuantity.toNat ∨ values.length > maxQty.toNat
  · rw [dif_pos hq, if_pos hq]
    rfl
  · rw [dif_neg hq, if_neg hq]
    obtain ⟨stored, hstored, hvalues⟩ :=
      Stored.construct_of_le (Nat.not_lt.mp fun h => hq (.inr h))
    exact ⟨stored, by rw [hstored, ok_bind, stored.move_eq], hstored, hvalues⟩

end Response.ReadMultiple

/-! ### Frames -/

namespace RtuFrame

structure Object where
  slaveId : UInt8
  pduSize : UInt8
  pdu : List (Option UInt8)

/-- `buffer.subspan(offset, count)` -/
def subspan (buffer : Bytes) (offset count : Nat) : Except (Fault RtuError) Bytes :=
  if offset + count ≤ buffer.length then .ok ((buffer.drop offset).take count)
  else .error (.outOfBounds (offset + count))

namespace Object

/-- The private constructor: `pdu_` is initialized to zeros. -/
def construct (slaveId : UInt8) (pdu : Bytes) : Except (Fault RtuError) Object := do
  let cells ← copyIn (List.replicate kMaxPduSize (some 0)) 0 pdu
  return ⟨slaveId, UInt8.ofNat pdu.length, cells⟩

/-- The implicit move constructor. -/
def move (o : Object) : Except (Fault RtuError) Object := do
  let cells ← copyCells o.pdu
  return ⟨o.slaveId, o.pduSize, cells⟩

def create (slaveId : UInt8) (pdu : Bytes) : Except (Fault RtuError) Object := do
  if pdu.length > kMaxPduSize then throw (.fails .kPduTooLarge)
  let frame ← construct slaveId pdu
  frame.move

/-- The object, and what is left of the buffer. -/
def deserialize (crc : CrcType) (buffer : Bytes) : Except (Fault RtuError) (Object × Bytes) := do
  if buffer.length < kMinFrameSize then throw (.fails .kBufferTooShort)
  let pduSize := buffer.length - kMinFrameSize
  if pduSize > kMaxPduSize then throw (.fails .kPduTooLarge)
  let slaveId ← read (buffer.map some) 0
  let crcLo ← read (buffer.map some) (1 + pduSize)
  let crcHi ← read (buffer.map some) (1 + pduSize + 1)
  let receivedCrc := crcHi.toUInt16 <<< 8 ||| crcLo.toUInt16
  let checked ← subspan buffer 0 (buffer.length - 2)
  if calcCrc crc checked ≠ receivedCrc then throw (.fails .kInvalidCrc)
  let pduSpan ← subspan buffer 1 pduSize
  let frame ← create slaveId pduSpan
  let rest ← subspan buffer buffer.length 0
  -- `return frame_res` may move the frame once more
  let frame ← frame.move
  return (frame, rest)

variable (crc : CrcType) (o : Object)

def getPdu : Except (Fault RtuError) Bytes := readAll o.pdu o.pduSize.toNat

def getFrameSize : Nat := o.pduSize.toNat + kMinFrameSize

/-- The buffer may have no values yet. -/
def serialize (outBuffer : List (Option UInt8)) :
    Except (Fault RtuError) (List (Option UInt8)) := do
  if outBuffer.length < o.getFrameSize then throw (.fails .kBufferTooShort)
  let outBuffer ← store outBuffer 0 o.slaveId
  let pdu ← readAll o.pdu o.pduSize.toNat
  let outBuffer ← copyIn outBuffer 1 pdu
  let state := crc.processByte crc.init o.slaveId
  let state := if o.pduSize.toNat > 0 then crc.processBytes state pdu else state
  let checksum : UInt16 := ⟨crc.checksum state⟩
  let outBuffer ← store outBuffer (1 + o.pduSize.toNat) (checksum &&& 0xFF).toUInt8
  store outBuffer (1 + o.pduSize.toNat + 1) ((checksum >>> 8) &&& 0xFF).toUInt8

structure Represents (frame : RtuFrame) : Prop where
  slaveId : o.slaveId = frame.slaveId
  pduSize : o.pduSize.toNat = frame.pdu.length
  filled : Filled o.pdu frame.pdu
  assigned : none ∉ o.pdu

variable {crc o} {frame : RtuFrame}

theorem move_eq (o : Object) : o.move = .ok o := by
  rw [move, copyCells_eq]
  rfl

theorem create_eq (slaveId : UInt8) (pdu : Bytes) (h : ¬ pdu.length > kMaxPduSize) :
    ∃ o, create slaveId pdu = .ok o ∧ o.Represents ⟨slaveId, pdu, h⟩ := by
  have hmax : kMaxPduSize = 253 := rfl
  have hcopy := copyIn_of_le RtuError (List.replicate kMaxPduSize (some 0)) pdu 0
    (by rw [List.length_replicate]; omega)
  refine ⟨_, by rw [create, if_neg h, construct, hcopy, ok_bind]; exact move_eq _, rfl, ?_, ?_, ?_⟩
  · show (UInt8.ofNat pdu.length).toNat = pdu.length
    rw [UInt8.toNat_ofNat']
    exact Nat.mod_eq_of_lt (by omega)
  · exact List.prefix_append _ _
  · simp

theorem Represents.getPdu (h : o.Represents frame) : o.getPdu = .ok frame.pdu := by
  rw [Object.getPdu, h.pduSize, h.filled.readAll (Nat.le_refl _), List.take_length]

/-- **The assignments of `Serialize`** put the frame in front. -/
theorem Represents.serialize (h : o.Represents frame) {cells : List (Option UInt8)}
    (hroom : frame.getFrameSize ≤ cells.length) : o.serialize crc cells
      = .ok ((encode crc frame).map some ++ cells.drop frame.getFrameSize) := by
  have hsize : o.getFrameSize = frame.getFrameSize := by rw [getFrameSize, h.pduSize]; rfl
  have hpdu := h.getPdu
  rw [Object.getPdu, h.pduSize] at hpdu
  have hcopy := copyIn_of_le RtuError cells (encode crc frame) 0
    (by rw [length_encode]; omega)
  rw [length_encode, List.take_zero, List.nil_append, Nat.zero_add] at hcopy
  rw [← hcopy, encode, copyIn, Object.serialize, hsize, if_neg (Nat.not_lt.mpr hroom), h.slaveId,
    h.pduSize, hpdu]
  refine congrArg (store cells 0 frame.slaveId >>= ·) (funext fun cells => ?_)
  rw [copyIn_append_pair, ok_bind]
  simp only [checksum_eq, and_ff_toUInt8, Nat.zero_add]
  rfl

theorem serialize_of_lt (h : o.Represents frame) {cells : List (Option UInt8)}
    (hshort : cells.length < frame.getFrameSize) :
    o.serialize crc cells = .error (.fails .kBufferTooShort) := by
  have hsize : o.getFrameSize = frame.getFrameSize := by rw [getFrameSize, h.pduSize]; rfl
  rw [Object.serialize, hsize, if_pos hshort]
  rfl

/-- **The indices of `Deserialize`** are those of a slave id, a PDU and two checksum bytes. -/
theorem deserialize_parts (slaveId lo hi : UInt8) (pdu : Bytes) :
    deserialize crc (slaveId :: (pdu ++ [lo, hi]))
      = if pdu.length > kMaxPduSize then .error (.fails .kPduTooLarge)
        else if checksum crc slaveId pdu = hi.toUInt16 <<< 8 ||| lo.toUInt16 then
          create slaveId pdu >>= fun o => o.move >>= fun o => .ok (o, [])
        else .error (.fails .kInvalidCrc) := by
  have hlen : (slaveId :: (pdu ++ [lo, hi])).length = pdu.length + kMinFrameSize := by
    simp [kMinFrameSize]
  have hread : ∀ (i : Nat) (b : UInt8), (slaveId :: (pdu ++ [lo, hi]))[i]? = some b →
      (read ((slaveId :: (pdu ++ [lo, hi])).map some) i : Except (Fault RtuError) UInt8)
        = .ok b := by
    intro i b h
    rw [Cells.read, List.getElem?_map, h]
    rfl
  have hslave := hread 0 slaveId rfl
  have hlo := hread (1 + pdu.length) lo (by rw [Nat.add_comm]; simp)
  have hhi := hread (1 + pdu.length + 1) hi (by rw [Nat.add_comm 1]; simp)
  have hchecked : subspan (slaveId :: (pdu ++ [lo, hi])) 0 (pdu.length + kMinFrameSize - 2)
      = .ok (slaveId :: pdu) := by
    rw [subspan, if_pos (by rw [hlen]; omega), kMinFrameSize, List.drop_zero,
      show pdu.length + 3 - 2 = pdu.length + 1 by omega, List.take_succ_cons, List.take_left' rfl]
  have hpdu : subspan (slaveId :: (pdu ++ [lo, hi])) 1 pdu.length = .ok pdu := by
    rw [subspan, if_pos (by rw [hlen, kMinFrameSize]; omega), List.drop_one, List.tail_cons,
      List.take_left' rfl]
  have hrest : subspan (slaveId :: (pdu ++ [lo, hi])) (pdu.length + kMinFrameSize) 0
      = .ok [] := by
    rw [subspan, if_pos (by rw [hlen, Nat.add_zero]), List.take_zero]
  have hmin : ¬ pdu.length + kMinFrameSize < kMinFrameSize := by omega
  rw [deserialize]
  dsimp only
  rw [hlen, Nat.add_sub_cancel, if_neg hmin, hslave, hlo, hhi, hchecked, hpdu, hrest]
  simp only [ok_bind]
  have hcalc : calcCrc crc (slaveId :: pdu) = checksum crc slaveId pdu := rfl
  rw [hcalc]
  by_cases hsize : pdu.length > kMaxPduSize
  · rw [if_pos hsize, if_pos hsize]
    rfl
  · rw [if_neg hsize, if_neg hsize]
    by_cases hsum : checksum crc slaveId pdu = hi.toUInt16 <<< 8 ||| lo.toUInt16
    · rw [if_pos hsum, if_neg (not_not.mpr hsum)]
      rfl
    · rw [if_neg hsum, if_pos hsum]
      rfl

/-- **The two `Deserialize`s agree** on every buffer. -/
theorem deserialize_agrees (crc : CrcType) (b : Bytes) :
    match (RtuFrame.deserialize crc).run b with
    | .ok frame rest => ∃ o, deserialize crc b = .ok (o, rest) ∧ o.Represents frame
    | .error e _ => deserialize crc b = .error (.fails e) := by
  by_cases hlen : b.length < kMinFrameSize
  · rw [run_deserialize_of_lt hlen, deserialize, if_pos hlen]
    rfl
  obtain ⟨slaveId, pdu, lo, hi, rfl⟩ := exists_parts (Nat.not_lt.mp hlen)
  rw [run_deserialize, deserialize_parts]
  by_cases hsize : pdu.length > kMaxPduSize
  · rw [dif_pos hsize, if_pos hsize]
  rw [dif_neg hsize, if_neg hsize]
  by_cases hsum : checksum crc slaveId pdu = hi.toUInt16 <<< 8 ||| lo.toUInt16
  · rw [if_pos hsum, if_pos hsum]
    obtain ⟨o, ho, hframe⟩ := create_eq slaveId pdu hsize
    exact ⟨o, by rw [ho, ok_bind, o.move_eq, ok_bind], hframe⟩
  · rw [if_neg hsum, if_neg hsum]

theorem create_agrees (slaveId : UInt8) (pdu : Bytes) :
    match RtuFrame.create slaveId pdu with
    | .ok frame => ∃ o, create slaveId pdu = .ok o ∧ o.Represents frame
    | .error e => create slaveId pdu = .error (.fails e) := by
  rw [RtuFrame.create]
  by_cases hsize : pdu.length > kMaxPduSize
  · rw [dif_pos hsize, create, if_pos hsize]
    rfl
  · rw [dif_neg hsize]
    exact create_eq slaveId pdu hsize

end Object

end RtuFrame

/-- **No operation on an object indexes past an array, or uses an element that nothing was
assigned to**, apart from the move: it copies the elements of a message from the quantity on, which
the constructor leaves unassigned, and they stay so.  What an object answers, moved or not, is what
its message answers, error for error. -/
theorem objects_stay_in_bounds (crc : CrcType) :
    (∀ (kind : WriteKind) (code : FunctionCode) (maxQty address : UInt16) (values : List kind.T),
      match Request.WriteMultiple.create kind code maxQty address values with
      | .ok m => ∃ o, Request.WriteMultiple.Object.create kind maxQty address values = .ok o ∧
          Stored.construct maxQty values = .ok o.stored ∧ o.stored.move = .ok o.stored ∧
          (∀ i, o.stored.Unassigned i ↔ m.values.length ≤ i ∧ i < maxQty.toNat) ∧
          o.stored.getValues = .ok m.values ∧ o.serialize code = within m.serialize
      | .error e =>
        Request.WriteMultiple.Object.create kind maxQty address values = .error (.fails e)) ∧
    (∀ (kind : ReadKind) (code : FunctionCode) (maxQty : UInt16) (values : List kind.T),
      match Response.ReadMultiple.create kind code maxQty values with
      | .ok m => ∃ o, Response.ReadMultiple.createStored kind maxQty values = .ok o ∧
          Stored.construct maxQty values = .ok o ∧ o.move = .ok o ∧
          (∀ i, o.Unassigned i ↔ m.values.length ≤ i ∧ i < maxQty.toNat) ∧
          o.getValues = .ok m.values ∧
          Response.ReadMultiple.serializeStored code o = within m.serialize
      | .error e => Response.ReadMultiple.createStored kind maxQty values = .error (.fails e)) ∧
    (∀ b : Bytes, match (RtuFrame.deserialize crc).run b with
      | .ok frame rest => ∃ o, RtuFrame.Object.deserialize crc b = .ok (o, rest) ∧
          none ∉ o.pdu ∧ o.slaveId = frame.slaveId ∧ o.getPdu = .ok frame.pdu
      | .error e _ => RtuFrame.Object.deserialize crc b = .error (.fails e)) ∧
    (∀ (slaveId : UInt8) (pdu : Bytes), match RtuFrame.create slaveId pdu with
      | .ok frame => ∃ o, RtuFrame.Object.create slaveId pdu = .ok o ∧
          none ∉ o.pdu ∧ o.move = .ok o ∧
          ∀ cells : List (Option UInt8), o.serialize crc cells
            = if cells.length < frame.getFrameSize then .error (.fails .kBufferTooShort)
              else .ok ((RtuFrame.encode crc frame).map some ++ cells.drop frame.getFrameSize)
      | .error e => RtuFrame.Object.create slaveId pdu = .error (.fails e)) := by
  refine ⟨fun kind code maxQty address values => ?_, fun kind code maxQty values => ?_,
    fun b => ?_, fun slaveId pdu => ?_⟩
  · have hagrees := Request.WriteMultiple.Object.create_agrees kind code maxQty address values
    revert hagrees
    cases Request.WriteMultiple.create kind code maxQty address values with
    | error e => exact id
    | ok m =>
      rintro ⟨o, ho, hconstruct, haddress, hstored, hunassigned⟩
      exact ⟨o, ho, hconstruct, o.stored.move_eq, hunassigned, hstored.getValues,
        Request.WriteMultiple.Object.serialize_eq haddress hstored⟩
  · have hagrees := Response.ReadMultiple.createStored_agrees kind code maxQty values
    revert hagrees
    cases Response.ReadMultiple.create kind code maxQty values with
    | error e => exact id
    | ok m =>
      rintro ⟨o, ho, hconstruct, hstored, hunassigned⟩
      exact ⟨o, ho, hconstruct, o.move_eq, hunassigned, hstored.getValues,
        Response.ReadMultiple.serializeStored_eq hstored⟩
  · have hagrees := RtuFrame.Object.deserialize_agrees crc b
    revert hagrees
    cases (RtuFrame.deserialize crc).run b with
    | error e b' => exact id
    | ok frame rest =>
      rintro ⟨o, ho, hframe⟩
      exact ⟨o, ho, hframe.assigned, hframe.slaveId, hframe.getPdu⟩
  · have hagrees := RtuFrame.Object.create_agrees slaveId pdu
    revert hagrees
    cases RtuFrame.create slaveId pdu with
    | error e => exact id
    | ok frame =>
      rintro ⟨o, ho, hframe⟩
      refine ⟨o, ho, hframe.assigned, o.move_eq, fun cells => ?_⟩
      by_cases hshort : cells.length < frame.getFrameSize
      · rw [if_pos hshort, RtuFrame.Object.serialize_of_lt hframe hshort]
      · rw [if_neg hshort, hframe.serialize (Nat.not_lt.mp hshort)]

end Modbus
