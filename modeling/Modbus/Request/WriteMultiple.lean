import Modbus.Message.Payload

/-!
# `request::impl::WriteMultiple`

An address and the values to write from there on.  Registers are two bytes each;
coils are packed eight to a byte, the first coil in the lowest bit.

* `readCoils_eq_ok`: the decoding loop over coils takes `⌈n / 8⌉` bytes and reads
  coil `i` off bit `i % 8` of byte `i / 8`.
* `writes_writeValuesWith`: the encoding loop fills in `ByteBits.pack`.
* `WriteMultiple.deserialize_eq_ok`, `WriteMultiple.writes_serialize`: the two for
  whole messages, as long as the byte count of `MaxQty` values fits in a byte.
-/

namespace Modbus

open Span ByteBits

/-- `CalcByteCount`, with its cast to eight bits. -/
def calcByteCount (kind : WriteKind) (quantity : Nat) : UInt8 :=
  match kind with
  | .coil => UInt8.ofNat ((quantity + 7) / 8)
  | .register => UInt8.ofNat (quantity * 2)

theorem calcByteCount_eq (kind : WriteKind) (n : Nat) :
    calcByteCount kind n = UInt8.ofNat (kind.payloadSize n) := by
  cases kind <;> rfl

/-! ### The decoding loop -/

/-- `for (i = …; i < quantity; ++i)`: `n` passes are left, the next one is pass `i`. -/
def readCoils : Nat → Nat → UInt8 → List Coil → Reader (List Coil)
  | 0, _, _, parsed => pure parsed
  | n + 1, i, currentByte, parsed => do
    let bitIdx := i % 8
    let currentByte ← if bitIdx = 0 then readBe UInt8 else pure currentByte
    let isOn := (currentByte.toNat >>> bitIdx) &&& 1 != 0
    readCoils n (i + 1) currentByte (parsed ++ [Coil.ofBool isOn])

theorem readCoils_succ_of_eq {n i : Nat} (hi : i % 8 = 0) (currentByte : UInt8)
    (parsed : List Coil) : readCoils (n + 1) i currentByte parsed = readBe UInt8 >>= fun c =>
      readCoils n (i + 1) c (parsed ++ [Coil.ofBool (c.toNat.testBit 0)]) := by
  rw [readCoils]
  simp only [hi, if_true, shift_and_one]

theorem readCoils_succ_of_ne {n i : Nat} (hi : i % 8 ≠ 0) (currentByte : UInt8)
    (parsed : List Coil) : readCoils (n + 1) i currentByte parsed =
      readCoils n (i + 1) currentByte
        (parsed ++ [Coil.ofBool (currentByte.toNat.testBit (i % 8))]) := by
  rw [readCoils]
  simp only [hi, if_false, shift_and_one, pure_bind]

theorem takes_readCoils (n i : Nat) (currentByte : UInt8) (parsed : List Coil) :
    Takes (readCoils n i currentByte parsed) := by
  induction n generalizing i currentByte parsed with
  | zero => exact Takes.pure parsed
  | succ n ih =>
    by_cases hi : i % 8 = 0
    · rw [readCoils_succ_of_eq hi]
      exact takes_readBe.bind (fun c => ih _ c _)
    · rw [readCoils_succ_of_ne hi]
      exact ih _ _ _

theorem streams_readCoils (n i : Nat) (currentByte : UInt8) (parsed : List Coil) :
    Streams .kBufferTooShort (readCoils n i currentByte parsed) := by
  induction n generalizing i currentByte parsed with
  | zero => exact Streams.pure parsed
  | succ n ih =>
    by_cases hi : i % 8 = 0
    · rw [readCoils_succ_of_eq hi]
      exact streams_readBe.bind (fun c => ih _ c _)
    · rw [readCoils_succ_of_ne hi]
      exact ih _ _ _

/-- Before pass `i` the bits still to come start in `currentByte` behind bit
`(i - 1) % 8`, and go on in the bytes that the rest of the loop takes. -/
theorem readCoils_eq_ok_aux {n i : Nat} {currentByte : UInt8} {parsed vs : List Coil}
    {b rest : Bytes} :
    (readCoils n i currentByte parsed).run b = .ok vs rest ↔
      ∃ payload, payload.length = (i + n + 7) / 8 - (i + 7) / 8 ∧ b = payload ++ rest ∧
        vs = parsed ++ (List.range n).map (fun j =>
          Coil.ofBool (bitAt (currentByte :: payload) ((i + 7) % 8 + 1 + j))) := by
  induction n generalizing i currentByte parsed b with
  | zero =>
    rw [readCoils, EStateM.run_pure]
    constructor
    · intro h
      cases h
      exact ⟨[], by simp, rfl, by simp⟩
    · intro h
      obtain ⟨payload, hp, rfl, rfl⟩ := h
      obtain rfl := List.eq_nil_of_length_eq_zero (by simpa using hp)
      simp
  | succ n ih =>
    by_cases hi : i % 8 = 0
    · -- the pass takes a byte, and its own bit is bit `0` of it
      have hbits : ∀ (c : UInt8) (payload : Bytes),
          (List.range (n + 1)).map (fun j =>
            Coil.ofBool (bitAt (currentByte :: c :: payload) ((i + 7) % 8 + 1 + j)))
          = [Coil.ofBool (c.toNat.testBit 0)] ++ (List.range n).map (fun j =>
            Coil.ofBool (bitAt (c :: payload) ((i + 1 + 7) % 8 + 1 + j))) := by
        intro c payload
        rw [show (i + 7) % 8 + 1 = 8 by omega, show (i + 1 + 7) % 8 + 1 = 1 by omega,
          List.range_succ_eq_map, List.map_cons, List.map_map, bitAt_cons_add,
          bitAt_cons_of_lt _ _ (by omega)]
        simp only [Function.comp_def, bitAt_cons_add, List.singleton_append,
          Nat.succ_eq_add_one, Nat.add_comm 1]
      rw [readCoils_succ_of_eq hi, run_bind_eq_ok]
      constructor
      · intro h'
        obtain ⟨c, b', hc, h⟩ := h'
        rw [readBe_eq_ok] at hc
        obtain ⟨payload, hp, rfl, rfl⟩ := ih.mp h
        exact ⟨c :: payload, by rw [List.length_cons]; omega, hc, by rw [hbits, List.append_assoc]⟩
      · intro h
        obtain ⟨payload, hp, rfl, rfl⟩ := h
        cases payload with
        | nil => rw [List.length_nil] at hp; omega
        | cons c payload =>
          rw [List.length_cons] at hp
          exact ⟨c, payload ++ rest, readBe_eq_ok.mpr rfl, ih.mpr ⟨payload, by omega, rfl, by
            rw [hbits, List.append_assoc]⟩⟩
    · -- the pass goes on in `currentByte`
      have hbits : ∀ payload : Bytes,
          (List.range (n + 1)).map (fun j =>
            Coil.ofBool (bitAt (currentByte :: payload) ((i + 7) % 8 + 1 + j)))
          = [Coil.ofBool (currentByte.toNat.testBit (i % 8))] ++ (List.range n).map (fun j =>
            Coil.ofBool (bitAt (currentByte :: payload) ((i + 1 + 7) % 8 + 1 + j))) := by
        intro payload
        rw [show (i + 7) % 8 + 1 = i % 8 by omega, show (i + 1 + 7) % 8 + 1 = i % 8 + 1 by omega,
          List.range_succ_eq_map, List.map_cons, List.map_map, Nat.add_zero,
          bitAt_cons_of_lt _ _ (by omega)]
        simp only [Function.comp_def, List.singleton_append, Nat.succ_eq_add_one, Nat.add_assoc,
          Nat.add_comm]
      have hlen : (i + (n + 1) + 7) / 8 - (i + 7) / 8 = (i + 1 + n + 7) / 8 - (i + 1 + 7) / 8 := by
        omega
      rw [readCoils_succ_of_ne hi, ih, hlen]
      constructor
      · intro h
        obtain ⟨payload, hp, rfl, rfl⟩ := h
        exact ⟨payload, hp, rfl, by rw [hbits, List.append_assoc]⟩
      · intro h
        obtain ⟨payload, hp, rfl, rfl⟩ := h
        exact ⟨payload, hp, rfl, by rw [hbits, List.append_assoc]⟩

/-- **The loop over `n` coils** takes `⌈n / 8⌉` bytes; coil `i` is bit `i % 8` of
byte `i / 8`. -/
theorem readCoils_eq_ok {n : Nat} {vs : List Coil} {b rest : Bytes} :
    (readCoils n 0 0 []).run b = .ok vs rest ↔
      ∃ payload, b = payload ++ rest ∧ IsBits Coil.ofBool n payload vs := by
  rw [readCoils_eq_ok_aux]
  simp only [IsBits, bitsToBytes, unpack, List.nil_append, List.map_map]
  constructor
  · intro h
    obtain ⟨payload, hp, rfl, rfl⟩ := h
    refine ⟨payload, rfl, by simpa using hp, List.map_congr_left (fun j _ => ?_)⟩
    show Coil.ofBool (bitAt (0 :: payload) (8 + j)) = Coil.ofBool (bitAt payload j)
    rw [bitAt_cons_add]
  · intro h
    obtain ⟨payload, rfl, hp, rfl⟩ := h
    refine ⟨payload, by simpa using hp, rfl, List.map_congr_left (fun j _ => ?_)⟩
    show Coil.ofBool (bitAt payload j) = Coil.ofBool (bitAt (0 :: payload) (8 + j))
    rw [bitAt_cons_add]

def readValues : (kind : WriteKind) → Nat → Reader (List kind.T)
  | .coil, quantity => readCoils quantity 0 0 []
  | .register, quantity => readLoop UInt16 quantity []

theorem takes_readValues (kind : WriteKind) (n : Nat) : Takes (readValues kind n) := by
  cases kind with
  | coil => exact takes_readCoils n 0 0 []
  | register => exact takes_readLoop n []

theorem streams_readValues (kind : WriteKind) (n : Nat) :
    Streams .kBufferTooShort (readValues kind n) := by
  cases kind with
  | coil => exact streams_readCoils n 0 0 []
  | register => exact streams_readLoop n []

theorem readValues_eq_ok {kind : WriteKind} {n : Nat} {vs : List kind.T} {b rest : Bytes} :
    (readValues kind n).run b = .ok vs rest ↔
      ∃ payload, b = payload ++ rest ∧ kind.Decodes n payload vs := by
  cases kind with
  | coil => exact readCoils_eq_ok
  | register =>
    rw [readValues, readLoop_eq_ok]
    constructor
    · intro h
      obtain ⟨ws, rfl, hw, rfl⟩ := h
      exact ⟨_, rfl, hw, rfl⟩
    · intro h
      obtain ⟨_, rfl, hw, rfl⟩ := h
      exact ⟨vs, rfl, hw, rfl⟩

/-! ### The encoding loop -/

/-- One pass of the outer loop: the byte at `byteIdx`. -/
def coilByte (values : List Coil) (byteIdx : Nat) : UInt8 :=
  (List.range 8).foldl (fun byteVal bitIdx =>
    let coilIdx := byteIdx * 8 + bitIdx
    if coilIdx < values.length ∧ values[coilIdx]? = some .kOn then
      byteVal ||| UInt8.ofNat (1 <<< bitIdx)
    else byteVal) 0

/-- The values of a message, after the header, with `handle` done with the result of each
`WriteBe`. -/
def writeValuesWith (handle : Writer → Writer) :
    (kind : WriteKind) → List kind.T → UInt8 → Writer
  | .coil, values, byteCount =>
    (List.range byteCount.toNat).forM (fun byteIdx => handle (writeBe (coilByte values byteIdx)))
  | .register, values, _ => values.forM (fun value => handle (writeBe value))

/-- The source ignores the results. -/
def writeValues (kind : WriteKind) (values : List kind.T) (byteCount : UInt8) : Writer :=
  writeValuesWith ignore kind values byteCount

theorem coilByte_eq (values : List Coil) (j : Nat) : coilByte values j
    = byteOf (fun k => (values.map (fun val => decide (val = .kOn))).getD (8 * j + k) false) := by
  rw [coilByte, byteOf, setBits]
  congr 1
  funext b k
  rw [Nat.mul_comm j 8, List.getD_eq_getElem?_getD, List.getElem?_map]
  by_cases h : 8 * j + k < values.length
  · simp [h]
  · simp [h]

/-- **The loop over values** fills in their bytes, as long as their count fits in
the cast of `CalcByteCount`. -/
theorem writes_writeValuesWith {handle : Writer → Writer} (hhandle : Harmless handle)
    {kind : WriteKind} {values : List kind.T} (h : kind.payloadSize values.length ≤ 255) :
    Writes (writeValuesWith handle kind values (calcByteCount kind values.length))
      (kind.encodeValues values) := by
  cases kind with
  | coil =>
    have hcount : (calcByteCount .coil values.length).toNat = (values.length + 7) / 8 := by
      rw [calcByteCount, UInt8.toNat_ofNat']
      exact Nat.mod_eq_of_lt (by have : (values.length + 7) / 8 ≤ 255 := h; omega)
    have hpack : WriteKind.coil.encodeValues values
        = (List.range ((values.length + 7) / 8)).flatMap
            (fun j => toBytes (coilByte values j)) := by
      rw [WriteKind.encodeValues, pack, List.length_map, List.map_eq_flatMap]
      simp only [coilByte_eq]
      rfl
    rw [writeValuesWith, hcount, hpack]
    exact Writes.forM (fun j _ => hhandle (writes_writeBe _))
  | register => exact Writes.forM (fun v _ => hhandle (writes_writeBe v))

/-! ### The class -/

namespace Request

/-- The values alone.  `WriteMultiple.Object` has the array that they are in, and the move of the
object out of `Create`. -/
structure WriteMultiple (kind : WriteKind) (code : FunctionCode) (maxQty : UInt16) where
  address : UInt16
  values : List kind.T
  quantity_ok : ¬ (values.length < kMinQuantity.toNat ∨ values.length > maxQty.toNat)
  address_ok : ¬ wouldAddressOverflow address (UInt16.ofNat values.length)
  values_ok : ∀ val ∈ values, kind.Accepts val

namespace WriteMultiple

variable (kind : WriteKind) (code : FunctionCode) (maxQty : UInt16)

def create (address : UInt16) (values : List kind.T) :
    Except ParseError (WriteMultiple kind code maxQty) :=
  if hq : values.length < kMinQuantity.toNat ∨ values.length > maxQty.toNat then
    .error .kInvalidQuantity
  else if ha : wouldAddressOverflow address (UInt16.ofNat values.length) then
    .error .kAddressOverflow
  else if hv : ∀ val ∈ values, kind.Accepts val then .ok ⟨address, values, hq, ha, hv⟩
  else .error .kInvalidValue

def deserialize : Reader (WriteMultiple kind code maxQty) := do
  let functionCode ← readBe UInt8
  failIf (FunctionCode.mk functionCode ≠ code) .kInvalidFunctionCode
  let address ← readBe UInt16
  let quantity ← readBe UInt16
  failIf (quantity < kMinQuantity ∨ quantity > maxQty) .kInvalidQuantity
  failIf (wouldAddressOverflow address quantity) .kAddressOverflow
  let byteCount ← readBe UInt8
  failIf (byteCount ≠ calcByteCount kind quantity.toNat) .kInvalidQuantity
  let parsedValues ← readValues kind quantity.toNat
  lift (create kind code maxQty address parsedValues)

variable {kind code maxQty}

def getQuantity (m : WriteMultiple kind code maxQty) : UInt16 := UInt16.ofNat m.values.length

def getByteCount (m : WriteMultiple kind code maxQty) : UInt8 :=
  calcByteCount kind m.getQuantity.toNat

def getEncodedSize (m : WriteMultiple kind code maxQty) : Nat := 6 + m.getByteCount.toNat

def serialize (m : WriteMultiple kind code maxQty) : Writer := do
  requireRoom m.getEncodedSize .kBufferTooShort
  ignore (writeBe code.raw)
  ignore (writeBe m.address)
  ignore (writeBe m.getQuantity)
  ignore (writeBe m.getByteCount)
  writeValues kind m.values m.getByteCount

/-- `Serialize` behind its check, with `handle` done with the result of each `WriteBe`. -/
def writeFields (handle : Writer → Writer) (m : WriteMultiple kind code maxQty) : Writer := do
  handle (writeBe code.raw)
  handle (writeBe m.address)
  handle (writeBe m.getQuantity)
  handle (writeBe m.getByteCount)
  writeValuesWith handle kind m.values m.getByteCount

theorem serialize_eq (m : WriteMultiple kind code maxQty) : m.serialize
    = requireRoom m.getEncodedSize .kBufferTooShort >>= fun _ => m.writeFields ignore := rfl

theorem length_le (m : WriteMultiple kind code maxQty) : m.values.length ≤ maxQty.toNat := by
  have := m.quantity_ok
  omega

@[simp] theorem toNat_getQuantity (m : WriteMultiple kind code maxQty) :
    m.getQuantity.toNat = m.values.length := by
  have hmax := maxQty.toNat_lt
  have hlen := m.length_le
  rw [getQuantity, UInt16.toNat_ofNat']
  exact Nat.mod_eq_of_lt (by omega)

def header (m : WriteMultiple kind code maxQty) : Bytes :=
  toBytes code.raw ++ (toBytes m.address ++ (toBytes m.getQuantity ++ toBytes m.getByteCount))

def encode (m : WriteMultiple kind code maxQty) : Bytes := m.header ++ kind.encodeValues m.values

@[simp] theorem length_header (m : WriteMultiple kind code maxQty) : m.header.length = 6 := rfl

/-- **`Create` accepts exactly the fields of a message.** -/
theorem create_eq_ok {address : UInt16} {values : List kind.T}
    {m : WriteMultiple kind code maxQty} :
    create kind code maxQty address values = .ok m ↔ address = m.address ∧ values = m.values := by
  unfold create
  constructor
  · intro h
    split at h
    · cases h
    · split at h
      · cases h
      · split at h
        · cases h
          exact ⟨rfl, rfl⟩
        · cases h
  · intro h
    obtain ⟨rfl, rfl⟩ := h
    rw [dif_neg m.quantity_ok, dif_neg m.address_ok, dif_pos m.values_ok]

theorem create_isOk {address : UInt16} {values : List kind.T} :
    (∃ m, create kind code maxQty address values = .ok m) ↔ 1 ≤ values.length ∧
      values.length ≤ maxQty.toNat ∧ address.toNat + values.length ≤ 0x10000 ∧
        ∀ val ∈ values, kind.Accepts val := by
  have hone : kMinQuantity.toNat = 1 := rfl
  have hover : values.length ≤ maxQty.toNat →
      (wouldAddressOverflow address (UInt16.ofNat values.length) = false ↔
        address.toNat + values.length ≤ 0x10000) := by
    intro hmax
    have := maxQty.toNat_lt
    rw [wouldAddressOverflow_eq_false, UInt16.toNat_ofNat', Nat.mod_eq_of_lt (by omega)]
  constructor
  · intro h
    obtain ⟨m, hm⟩ := h
    obtain ⟨rfl, rfl⟩ := create_eq_ok.mp hm
    have hq := m.quantity_ok
    have ha := m.address_ok
    rw [Bool.not_eq_true, hover m.length_le] at ha
    exact ⟨by omega, m.length_le, ha, m.values_ok⟩
  · intro h
    obtain ⟨hmin, hmax, ha, hv⟩ := h
    refine ⟨⟨address, values, by omega, ?_, hv⟩, create_eq_ok.mpr ⟨rfl, rfl⟩⟩
    rw [Bool.not_eq_true, hover hmax]
    exact ha

theorem not_quantity (m : WriteMultiple kind code maxQty) :
    ¬ (m.getQuantity < kMinQuantity ∨ m.getQuantity > maxQty) := by
  rw [gt_iff_lt, UInt16.lt_iff_toNat_lt, UInt16.lt_iff_toNat_lt, toNat_getQuantity]
  exact m.quantity_ok

/-- **A message is accepted exactly where its header stands before a payload of
its values.** -/
theorem deserialize_eq_ok {b rest : Bytes} {m : WriteMultiple kind code maxQty} :
    (deserialize kind code maxQty).run b = .ok m rest ↔
      ∃ payload, b = m.header ++ (payload ++ rest) ∧
        kind.Decodes m.values.length payload m.values := by
  simp only [deserialize, run_bind_eq_ok, readBe_eq_ok, run_failIf_eq_ok, run_lift_eq_ok,
    create_eq_ok, readValues_eq_ok]
  constructor
  · intro h
    obtain ⟨c, _, rfl, _, _, ⟨hc, rfl⟩, a, _, rfl, q, _, rfl, _, _, ⟨_, rfl⟩, _, _, ⟨_, rfl⟩, n, _,
      rfl, _, _, ⟨hn, rfl⟩, vs, _, ⟨payload, rfl, hvs⟩, ⟨rfl, rfl⟩, rfl⟩ := h
    obtain rfl : FunctionCode.mk c = code := not_not.mp hc
    obtain rfl : n = calcByteCount kind q.toNat := not_not.mp hn
    have hq : m.getQuantity = q := UInt16.toNat_inj.mp (by rw [toNat_getQuantity, hvs.length_eq])
    refine ⟨payload, ?_, by rwa [hvs.length_eq]⟩
    rw [header, getByteCount, hq]
    simp only [List.append_assoc]
  · intro h
    obtain ⟨payload, rfl, hvs⟩ := h
    refine ⟨code.raw, _, by simp only [header, List.append_assoc], (), _, ⟨by simp, rfl⟩,
      m.address, _, rfl, m.getQuantity, _, rfl, (), _, ⟨m.not_quantity, rfl⟩, (), _,
      ⟨m.address_ok, rfl⟩, m.getByteCount, _, rfl, (), _, ⟨by simp [getByteCount], rfl⟩,
      m.values, _, ⟨payload, rfl, ?_⟩, ⟨rfl, rfl⟩, rfl⟩
    rwa [toNat_getQuantity]

/-! ### Encoding, when `MaxQty` values fit -/

section

variable (hfit : kind.payloadSize maxQty.toNat ≤ 255)
include hfit

theorem payloadSize_le (m : WriteMultiple kind code maxQty) :
    kind.payloadSize m.values.length ≤ 255 :=
  (kind.payloadSize_mono m.length_le).trans hfit

theorem toNat_getByteCount (m : WriteMultiple kind code maxQty) :
    m.getByteCount.toNat = kind.payloadSize m.values.length := by
  have := m.payloadSize_le hfit
  rw [getByteCount, toNat_getQuantity, calcByteCount_eq, UInt8.toNat_ofNat']
  exact Nat.mod_eq_of_lt (by omega)

theorem length_encode (m : WriteMultiple kind code maxQty) :
    m.encode.length = m.getEncodedSize := by
  rw [encode, List.length_append, length_header, WriteKind.length_encodeValues, getEncodedSize,
    m.toNat_getByteCount hfit]

theorem writes_writeFields {handle : Writer → Writer} (h : Harmless handle)
    (m : WriteMultiple kind code maxQty) : Writes (m.writeFields handle) m.encode := by
  have hvalues : Writes (writeValuesWith handle kind m.values m.getByteCount)
      (kind.encodeValues m.values) := by
    rw [getByteCount, toNat_getQuantity]
    exact writes_writeValuesWith h (m.payloadSize_le hfit)
  rw [encode, header, List.append_assoc, List.append_assoc, List.append_assoc]
  exact (h (writes_writeBe _)).then ((h (writes_writeBe _)).then
    ((h (writes_writeBe _)).then ((h (writes_writeBe _)).then hvalues)))

theorem writes_serialize (m : WriteMultiple kind code maxQty) : Writes m.serialize m.encode := by
  rw [serialize_eq]
  exact (m.writes_writeFields hfit harmless_ignore).requireRoom (m.length_encode hfit).ge _

end

/-- **A message is read back from its encoding**, whatever comes after. -/
theorem deserialize_encode (m : WriteMultiple kind code maxQty) (rest : Bytes) :
    (deserialize kind code maxQty).run (m.encode ++ rest) = .ok m rest := by
  rw [deserialize_eq_ok]
  exact ⟨_, by rw [encode, List.append_assoc], WriteKind.decodes_encodeValues m.values_ok⟩

end WriteMultiple

end Request

end Modbus
