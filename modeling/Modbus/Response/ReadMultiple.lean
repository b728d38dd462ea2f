import Modbus.Message.Payload

/-!
# `response::impl::ReadMultiple`

The values that a device has read.  Bits and registers are decoded by different
code: how many bits there are is the caller's `expected_quantity`, checked against
the byte count; how many registers there are is the byte count's business alone,
and nothing compares it with `expected_quantity`.

* `readBits_eq_ok`: the two nested loops over bits.
* `ReadMultiple.deserialize_eq_ok`: what is accepted, and with which values.
* `writes_writeBitsWith`: the encoding loop, which gathers a byte bit by bit and
  writes it when it is full.
-/

namespace Modbus

open Span ByteBits

variable {T : Type}

/-! ### The decoding loops -/

/-- `for (bit = 0; bit < 8 && bits_read < expected_quantity; ++bit, ++bits_read)`.
`parsed` holds what is in `parsed_values` up to `bits_read`. -/
def readBitsOfByte (ofBool : Bool → T) (expectedQuantity : Nat) (currentByte : UInt8)
    (parsed : List T) : List T :=
  (List.range 8).foldl (fun parsed bit =>
    if parsed.length < expectedQuantity then
      parsed ++ [ofBool (currentByte.toNat &&& (1 <<< bit) != 0)]
    else parsed) parsed

/-- `for (i = 0; i < byte_count; ++i)`, with `n` passes left. -/
def readBits (ofBool : Bool → T) (expectedQuantity : Nat) : Nat → List T → Reader (List T)
  | 0, parsed => pure parsed
  | n + 1, parsed => do
    let currentByte ← readBe UInt8
    readBits ofBool expectedQuantity n (readBitsOfByte ofBool expectedQuantity currentByte parsed)

theorem foldl_readBits (ofBool : Bool → T) (expected : Nat) (c : UInt8) (parsed : List T)
    (k : Nat) :
    (List.range k).foldl (fun parsed bit =>
      if parsed.length < expected then parsed ++ [ofBool (c.toNat &&& (1 <<< bit) != 0)]
      else parsed) parsed
    = parsed ++ (List.range (min k (expected - parsed.length))).map
        (fun j => ofBool (c.toNat.testBit j)) := by
  induction k with
  | zero => simp
  | succ k ih =>
    rw [List.range_succ, List.foldl_append, ih, List.foldl_cons, List.foldl_nil, and_shift]
    by_cases h : k < expected - parsed.length
    · rw [if_pos (by simp only [List.length_append, List.length_map, List.length_range]; omega),
        show min k (expected - parsed.length) = k by omega,
        show min (k + 1) (expected - parsed.length) = k + 1 by omega, List.range_succ,
        List.map_append, List.append_assoc, List.map_singleton]
    · rw [if_neg (by simp only [List.length_append, List.length_map, List.length_range]; omega),
        show min k (expected - parsed.length) = min (k + 1) (expected - parsed.length) by omega]

theorem readBitsOfByte_eq (ofBool : Bool → T) (expected : Nat) (c : UInt8) (parsed : List T) :
    readBitsOfByte ofBool expected c parsed
      = parsed ++ (List.range (min 8 (expected - parsed.length))).map
          (fun j => ofBool (c.toNat.testBit j)) :=
  foldl_readBits ofBool expected c parsed 8

/-- **The loops over bits** take `n` bytes and read on from bit `0` of the first of
them, until there are `expected` values. -/
theorem readBits_eq_ok {ofBool : Bool → T} {expected n : Nat} {parsed vs : List T}
    {b rest : Bytes} :
    (readBits ofBool expected n parsed).run b = .ok vs rest ↔
      ∃ payload, payload.length = n ∧ b = payload ++ rest ∧
        vs = parsed ++ (unpack (min (8 * n) (expected - parsed.length)) payload).map ofBool := by
  induction n generalizing parsed b with
  | zero =>
    rw [readBits, EStateM.run_pure]
    constructor
    · intro h
      cases h
      exact ⟨[], rfl, rfl, by simp [unpack]⟩
    · intro h
      obtain ⟨payload, hp, rfl, rfl⟩ := h
      obtain rfl := List.eq_nil_of_length_eq_zero hp
      simp [unpack]
  | succ n ih =>
    -- eight more bits when that many are missing, else all that are missing
    have hbits : ∀ (c : UInt8) (payload : Bytes),
        readBitsOfByte ofBool expected c parsed
          ++ (unpack (min (8 * n) (expected - (readBitsOfByte ofBool expected c parsed).length))
                payload).map ofBool
        = parsed ++ (unpack (min (8 * (n + 1)) (expected - parsed.length))
            (c :: payload)).map ofBool := by
      intro c payload
      have hbyte : min 8 (min (8 * (n + 1)) (expected - parsed.length))
          = min 8 (expected - parsed.length) := by omega
      have hrest : min (8 * n) (expected - (parsed.length + min 8 (expected - parsed.length)))
          = min (8 * (n + 1)) (expected - parsed.length) - 8 := by omega
      rw [readBitsOfByte_eq, List.length_append, List.length_map, List.length_range, hrest,
        unpack_cons, hbyte, List.map_append, List.map_map, List.append_assoc]
      rfl
    rw [readBits, run_bind_eq_ok]
    constructor
    · intro h'
      obtain ⟨c, b', hc, h⟩ := h'
      rw [readBe_eq_ok] at hc
      obtain ⟨payload, hp, rfl, rfl⟩ := ih.mp h
      exact ⟨c :: payload, by rw [List.length_cons, hp], hc, hbits c payload⟩
    · intro h
      obtain ⟨payload, hp, rfl, rfl⟩ := h
      cases payload with
      | nil => cases hp
      | cons c payload =>
        rw [List.length_cons, Nat.add_right_cancel_iff] at hp
        exact ⟨c, payload ++ rest, readBe_eq_ok.mpr rfl,
          ih.mpr ⟨payload, hp, rfl, (hbits c payload).symm⟩⟩

theorem takes_readBits (ofBool : Bool → T) (expected n : Nat) (parsed : List T) :
    Takes (readBits ofBool expected n parsed) := by
  induction n generalizing parsed with
  | zero => exact Takes.pure parsed
  | succ n ih => exact takes_readBe.bind (fun _ => ih _)

theorem streams_readBits (ofBool : Bool → T) (expected n : Nat) (parsed : List T) :
    Streams .kBufferTooShort (readBits ofBool expected n parsed) := by
  induction n generalizing parsed with
  | zero => exact Streams.pure parsed
  | succ n ih => exact streams_readBe.bind (fun _ => ih _)

/-! ### The payload of a response -/

def readBitsPayload (ofBool : Bool → T) (maxQty expectedQuantity : UInt16) (byteCount : UInt8) :
    Reader (List T) := do
  failIf (expectedQuantity < kMinQuantity ∨ expectedQuantity > maxQty) .kInvalidQuantity
  failIf (byteCount.toNat ≠ bitsToBytes expectedQuantity.toNat) .kInvalidValue
  readBits ofBool expectedQuantity.toNat byteCount.toNat []

/-- `expected_quantity` is not looked at. -/
def readRegistersPayload (maxQty : UInt16) (byteCount : UInt8) : Reader (List UInt16) := do
  failIf (byteCount.toNat % 2 ≠ 0) .kInvalidValue
  let registerCount := UInt16.ofNat (byteCount.toNat / 2)
  failIf (registerCount < kMinQuantity ∨ registerCount > maxQty) .kInvalidQuantity
  readLoop UInt16 registerCount.toNat []

def readPayload : (kind : ReadKind) → UInt16 → UInt16 → UInt8 → Reader (List kind.T)
  | .coil, maxQty, expectedQuantity, byteCount =>
    readBitsPayload Coil.ofBool maxQty expectedQuantity byteCount
  | .discreteInput, maxQty, expectedQuantity, byteCount =>
    readBitsPayload DiscreteInput.ofBool maxQty expectedQuantity byteCount
  | .register, maxQty, _, byteCount => readRegistersPayload maxQty byteCount

theorem takes_readPayload (kind : ReadKind) (maxQty expected : UInt16) (byteCount : UInt8) :
    Takes (readPayload kind maxQty expected byteCount) := by
  have hbits : ∀ {T : Type} (ofBool : Bool → T),
      Takes (readBitsPayload ofBool maxQty expected byteCount) := fun ofBool =>
    (Takes.failIf _ _).bind (fun _ => (Takes.failIf _ _).bind (fun _ => takes_readBits _ _ _ _))
  cases kind with
  | coil => exact hbits Coil.ofBool
  | discreteInput => exact hbits DiscreteInput.ofBool
  | register =>
    exact (Takes.failIf _ _).bind (fun _ => (Takes.failIf _ _).bind (fun _ => takes_readLoop _ _))

theorem streams_readPayload (kind : ReadKind) (maxQty expected : UInt16) (byteCount : UInt8) :
    Streams .kBufferTooShort (readPayload kind maxQty expected byteCount) := by
  have hbits : ∀ {T : Type} (ofBool : Bool → T),
      Streams .kBufferTooShort (readBitsPayload ofBool maxQty expected byteCount) := fun ofBool =>
    (Streams.failIf _ _).bind (fun _ => (Streams.failIf _ _).bind
      (fun _ => streams_readBits _ _ _ _))
  cases kind with
  | coil => exact hbits Coil.ofBool
  | discreteInput => exact hbits DiscreteInput.ofBool
  | register =>
    exact (Streams.failIf _ _).bind (fun _ => (Streams.failIf _ _).bind
      (fun _ => streams_readLoop _ _))

/-- What the decoder asks of the number `n` of values: that many were expected,
unless they are registers. -/
def ReadKind.AsExpected : ReadKind → UInt16 → Nat → Prop
  | .coil, expectedQuantity, n => n = expectedQuantity.toNat
  | .discreteInput, expectedQuantity, n => n = expectedQuantity.toNat
  | .register, _, _ => True

theorem readBitsPayload_eq_ok {ofBool : Bool → T} {maxQty expected : UInt16} {byteCount : UInt8}
    {vs : List T} {b rest : Bytes} :
    (readBitsPayload ofBool maxQty expected byteCount).run b = .ok vs rest ↔
      ∃ payload, b = payload ++ rest ∧ payload.length = byteCount.toNat ∧
        ¬ (vs.length < kMinQuantity.toNat ∨ vs.length > maxQty.toNat) ∧
        vs.length = expected.toNat ∧ IsBits ofBool vs.length payload vs := by
  simp only [readBitsPayload, run_bind_eq_ok, run_failIf_eq_ok, readBits_eq_ok, quantity_iff,
    List.length_nil, List.nil_append, Nat.sub_zero, not_not]
  constructor
  · intro h
    obtain ⟨_, _, ⟨hq, rfl⟩, _, _, ⟨hn, rfl⟩, payload, hp, rfl, hvs⟩ := h
    rw [hn, show min (8 * bitsToBytes expected.toNat) expected.toNat = expected.toNat by
      rw [bitsToBytes]; omega] at hvs
    have hlen : vs.length = expected.toNat := by rw [hvs, List.length_map, length_unpack]
    rw [hlen]
    exact ⟨payload, rfl, hp, hq, rfl, hp.trans hn, hvs⟩
  · intro h
    obtain ⟨payload, rfl, hp, hq, hlen, hvs⟩ := h
    rw [hlen] at hvs hq
    have hn : byteCount.toNat = bitsToBytes expected.toNat := hp.symm.trans hvs.1
    refine ⟨(), _, ⟨hq, rfl⟩, (), _, ⟨hn, rfl⟩, payload, hp, rfl, ?_⟩
    rw [hn, show min (8 * bitsToBytes expected.toNat) expected.toNat = expected.toNat by
      rw [bitsToBytes]; omega]
    exact hvs.2

theorem readRegistersPayload_eq_ok {maxQty : UInt16} {byteCount : UInt8} {vs : List UInt16}
    {b rest : Bytes} :
    (readRegistersPayload maxQty byteCount).run b = .ok vs rest ↔
      ∃ payload, b = payload ++ rest ∧ payload.length = byteCount.toNat ∧
        ¬ (vs.length < kMinQuantity.toNat ∨ vs.length > maxQty.toNat) ∧
        IsRegisters vs.length payload vs := by
  have hbyte := byteCount.toNat_lt
  have hcount : (UInt16.ofNat (byteCount.toNat / 2)).toNat = byteCount.toNat / 2 := by
    rw [UInt16.toNat_ofNat']
    exact Nat.mod_eq_of_lt (by omega)
  simp only [readRegistersPayload, run_bind_eq_ok, run_failIf_eq_ok, readLoop_eq_ok, quantity_iff,
    hcount, List.nil_append, not_not]
  constructor
  · intro h
    obtain ⟨_, _, ⟨heven, rfl⟩, _, _, ⟨hq, rfl⟩, _, rfl, hlen, rfl⟩ := h
    rw [← hlen] at hq
    exact ⟨_, rfl, by rw [length_flatMap_toBytes]; omega, hq, rfl, rfl⟩
  · intro h
    obtain ⟨_, rfl, hp, hq, _, rfl⟩ := h
    rw [length_flatMap_toBytes] at hp
    have hlen : byteCount.toNat / 2 = vs.length := by omega
    rw [hlen]
    exact ⟨(), _, ⟨by omega, rfl⟩, (), _, ⟨hq, rfl⟩, vs, rfl, rfl, rfl⟩

theorem readPayload_eq_ok {kind : ReadKind} {maxQty expected : UInt16} {byteCount : UInt8}
    {vs : List kind.T} {b rest : Bytes} :
    (readPayload kind maxQty expected byteCount).run b = .ok vs rest ↔
      ∃ payload, b = payload ++ rest ∧ payload.length = byteCount.toNat ∧
        ¬ (vs.length < kMinQuantity.toNat ∨ vs.length > maxQty.toNat) ∧
        kind.AsExpected expected vs.length ∧ kind.Decodes vs.length payload vs := by
  cases kind with
  | coil => exact readBitsPayload_eq_ok
  | discreteInput => exact readBitsPayload_eq_ok
  | register => simp only [ReadKind.AsExpected, true_and]; exact readRegistersPayload_eq_ok

/-! ### The encoding loop -/

/-- `for (i = 0; i < quantity_; ++i)` and the last `if`: `currentByte` gathers bits
below `bitIndex`.  `handle` is done with the result of each `WriteBe`. -/
def writeBitsWith (handle : Writer → Writer) (isSet : T → Bool) : List T → UInt8 → Nat → Writer
  | [], currentByte, bitIndex => if bitIndex > 0 then handle (writeBe currentByte) else pure ()
  | val :: values, currentByte, bitIndex =>
    let currentByte :=
      if isSet val then currentByte ||| UInt8.ofNat (1 <<< bitIndex) else currentByte
    if bitIndex + 1 = 8 then do
      handle (writeBe currentByte)
      writeBitsWith handle isSet values 0 0
    else writeBitsWith handle isSet values currentByte (bitIndex + 1)

/-- The source ignores the results. -/
def writeBits (isSet : T → Bool) (values : List T) (currentByte : UInt8) (bitIndex : Nat) :
    Writer :=
  writeBitsWith ignore isSet values currentByte bitIndex

theorem testBit_setBit (c : UInt8) (j : Nat) (isSet : Bool) {k : Nat} (hk : k < 8) :
    (if isSet then c ||| UInt8.ofNat (1 <<< j) else c).toNat.testBit k
      = (c.toNat.testBit k || (decide (j = k) && isSet)) := by
  cases isSet with
  | true => rw [if_pos rfl, testBit_or_shift c j hk, Bool.and_true]
  | false => simp

/-- **The loop over bits** fills in their bytes: `pre` are the bits gathered in
`currentByte`. -/
theorem writes_writeBitsWith {handle : Writer → Writer} (hhandle : Harmless handle)
    {isSet : T → Bool} {values : List T} {pre : List Bool} {currentByte : UInt8}
    (hpre : pre.length < 8)
    (hcur : ∀ k, k < 8 → currentByte.toNat.testBit k = pre.getD k false) :
    Writes (writeBitsWith handle isSet values currentByte pre.length)
      (pack (pre ++ values.map isSet)) := by
  induction values generalizing pre currentByte with
  | nil =>
    rw [writeBitsWith, List.map_nil, List.append_nil]
    by_cases h : pre.length > 0
    · rw [if_pos h, pack_eq_cons h hcur, List.drop_eq_nil_of_le (by omega)]
      exact hhandle (writes_writeBe _)
    · rw [if_neg h, List.eq_nil_of_length_eq_zero (by omega : pre.length = 0)]
      exact Writes.pure
  | cons val values ih =>
    have hlen : (pre ++ [isSet val]).length = pre.length + 1 := by simp
    have hcur' : ∀ k, k < 8 →
        (if isSet val then currentByte ||| UInt8.ofNat (1 <<< pre.length)
          else currentByte : UInt8).toNat.testBit k = (pre ++ [isSet val]).getD k false := by
      intro k hk
      rw [testBit_setBit _ _ _ hk, hcur k hk]
      rcases Nat.lt_trichotomy k pre.length with h | h | h
      · rw [List.getD_append _ _ _ _ h, decide_eq_false (by omega), Bool.false_and, Bool.or_false]
      · rw [List.getD_append_right _ _ _ _ h.ge, List.getD_eq_default _ _ h.ge, h]
        simp
      · rw [List.getD_eq_default _ _ h.le, List.getD_eq_default _ _ (by omega),
          decide_eq_false (by omega), Bool.false_and, Bool.or_false]
    rw [writeBitsWith, List.map_cons, List.append_cons]
    by_cases h : pre.length + 1 = 8
    · have hdrop : (pre ++ [isSet val] ++ values.map isSet).drop 8 = [] ++ values.map isSet := by
        rw [List.drop_left' (by omega), List.nil_append]
      rw [if_pos h, pack_eq_cons (by rw [List.length_append]; omega) (fun k hk => ?_), hdrop]
      · exact (hhandle (writes_writeBe _)).then (ih (by simp) (fun k _ => by simp))
      · exact (hcur' k hk).trans (List.getD_append _ _ _ _ (by omega)).symm
    · rw [if_neg h, ← hlen]
      exact ih (by omega) hcur'

/-- The values of a response, after the header, with `handle` done with the result of each
`WriteBe`. -/
def writePayloadWith (handle : Writer → Writer) : (kind : ReadKind) → List kind.T → Writer
  | .coil, values => writeBitsWith handle (fun val => decide (val = .kOn)) values 0 0
  | .discreteInput, values => writeBitsWith handle (fun val => decide (val = .kOn)) values 0 0
  | .register, values => values.forM (fun value => handle (writeBe value))

/-- The source ignores the results. -/
def writePayload (kind : ReadKind) (values : List kind.T) : Writer :=
  writePayloadWith ignore kind values

theorem writes_writePayloadWith {handle : Writer → Writer} (hhandle : Harmless handle)
    {kind : ReadKind} (values : List kind.T) :
    Writes (writePayloadWith handle kind values) (kind.encodeValues values) := by
  have hbits : ∀ {T : Type} (isSet : T → Bool) (values : List T),
      Writes (writeBitsWith handle isSet values 0 0) (pack (values.map isSet)) := by
    intro T isSet values
    have hpre : ([] : List Bool).length < 8 := by decide
    exact writes_writeBitsWith hhandle hpre (fun k _ => by simp)
  cases kind with
  | coil => exact hbits _ values
  | discreteInput => exact hbits _ values
  | register => exact Writes.forM (fun v _ => hhandle (writes_writeBe v))

/-! ### The class -/

namespace Response

/-- The values alone.  `Stored` has the array that they are in, and `createStored` the move of the
object out of `Create`. -/
structure ReadMultiple (kind : ReadKind) (code : FunctionCode) (maxQty : UInt16) where
  values : List kind.T
  quantity_ok : ¬ (values.length < kMinQuantity.toNat ∨ values.length > maxQty.toNat)

namespace ReadMultiple

variable (kind : ReadKind) (code : FunctionCode) (maxQty : UInt16)

def create (values : List kind.T) : Except ParseError (ReadMultiple kind code maxQty) :=
  if hq : values.length < kMinQuantity.toNat ∨ values.length > maxQty.toNat then
    .error .kInvalidQuantity
  else .ok ⟨values, hq⟩

def deserialize (expectedQuantity : UInt16) : Reader (ReadMultiple kind code maxQty) := do
  let functionCode ← readBe UInt8
  failIf (FunctionCode.mk functionCode ≠ code) .kInvalidFunctionCode
  let byteCount ← readBe UInt8
  let parsedValues ← readPayload kind maxQty expectedQuantity byteCount
  lift (create kind code maxQty parsedValues)

variable {kind code maxQty}

def getQuantity (m : ReadMultiple kind code maxQty) : UInt16 := UInt16.ofNat m.values.length

def getByteCount (m : ReadMultiple kind code maxQty) : UInt8 :=
  match kind with
  | .coil => UInt8.ofNat (bitsToBytes m.getQuantity.toNat)
  | .discreteInput => UInt8.ofNat (bitsToBytes m.getQuantity.toNat)
  | .register => UInt8.ofNat (m.getQuantity.toNat * 2)

def getEncodedSize (m : ReadMultiple kind code maxQty) : Nat := 2 + m.getByteCount.toNat

def serialize (m : ReadMultiple kind code maxQty) : Writer := do
  requireRoom m.getEncodedSize .kBufferTooShort
  ignore (writeBe code.raw)
  ignore (writeBe m.getByteCount)
  writePayload kind m.values

/-- `Serialize` behind its check, with `handle` done with the result of each `WriteBe`. -/
def writeFields (handle : Writer → Writer) (m : ReadMultiple kind code maxQty) : Writer := do
  handle (writeBe code.raw)
  handle (writeBe m.getByteCount)
  writePayloadWith handle kind m.values

theorem serialize_eq (m : ReadMultiple kind code maxQty) : m.serialize
    = requireRoom m.getEncodedSize .kBufferTooShort >>= fun _ => m.writeFields ignore := rfl

def encode (m : ReadMultiple kind code maxQty) : Bytes :=
  toBytes code.raw ++ (toBytes m.getByteCount ++ kind.encodeValues m.values)

/-- **`Create` accepts exactly the values of a message.** -/
theorem create_eq_ok {values : List kind.T} {m : ReadMultiple kind code maxQty} :
    create kind code maxQty values = .ok m ↔ values = m.values := by
  unfold create
  constructor
  · intro h
    split at h
    · cases h
    · cases h
      rfl
  · rintro rfl
    rw [dif_neg m.quantity_ok]

theorem writes_writeFields {handle : Writer → Writer} (h : Harmless handle)
    (m : ReadMultiple kind code maxQty) : Writes (m.writeFields handle) m.encode :=
  (h (writes_writeBe _)).then ((h (writes_writeBe _)).then (writes_writePayloadWith h m.values))

/-- **A message is accepted exactly where its function code and a byte count stand
before that many bytes of its values.** -/
theorem deserialize_eq_ok {expected : UInt16} {b rest : Bytes} {m : ReadMultiple kind code maxQty} :
    (deserialize kind code maxQty expected).run b = .ok m rest ↔
      ∃ (byteCount : UInt8) (payload : Bytes),
        b = toBytes code.raw ++ (toBytes byteCount ++ (payload ++ rest)) ∧
        payload.length = byteCount.toNat ∧ kind.AsExpected expected m.values.length ∧
        kind.Decodes m.values.length payload m.values := by
  simp only [deserialize, run_bind_eq_ok, readBe_eq_ok, run_failIf_eq_ok, run_lift_eq_ok,
    create_eq_ok, readPayload_eq_ok]
  constructor
  · intro h
    obtain ⟨c, _, rfl, _, _, ⟨hc, rfl⟩, n, _, rfl, vs, _, hpayload, rfl, rfl⟩ := h
    obtain ⟨payload, rfl, hp, _, hexp, hvs⟩ := hpayload
    obtain rfl : FunctionCode.mk c = code := not_not.mp hc
    exact ⟨n, payload, rfl, hp, hexp, hvs⟩
  · intro h
    obtain ⟨n, payload, rfl, hp, hexp, hvs⟩ := h
    exact ⟨code.raw, _, rfl, (), _, ⟨by simp, rfl⟩, n, _, rfl, m.values, _,
      ⟨payload, rfl, hp, m.quantity_ok, hexp, hvs⟩, rfl, rfl⟩

/-! ### Registers -/

/-- A response with registers in it: the function code, an even byte count in range, and
at least that many bytes. -/
def IsRegisterResponse (code : FunctionCode) (maxQty : UInt16) (pdu : Bytes)
    (byteCount : UInt8) : Prop :=
  ∃ payload, pdu = code.raw :: byteCount :: payload ∧ byteCount.toNat % 2 = 0 ∧
    2 ≤ byteCount.toNat ∧ byteCount.toNat ≤ 2 * maxQty.toNat ∧ byteCount.toNat ≤ payload.length

/-- **A register response is decoded**, whatever `expected_quantity` is. -/
theorem deserialize_registers {code : FunctionCode} {maxQty : UInt16} {pdu : Bytes}
    {byteCount : UInt8} (h : IsRegisterResponse code maxQty pdu byteCount) (expected : UInt16) :
    ∃ m rest, (deserialize .register code maxQty expected).run pdu = .ok m rest ∧
      m.values.length * 2 = byteCount.toNat := by
  obtain ⟨payload, rfl, heven, hmin, hmax, hlen⟩ := h
  obtain ⟨values, hcount, hvalues⟩ := exists_isRegisters (byteCount.toNat / 2)
    (payload.take byteCount.toNat) (by rw [List.length_take]; omega)
  have hone : kMinQuantity.toNat = 1 := rfl
  refine ⟨⟨values, by omega⟩, payload.drop byteCount.toNat, deserialize_eq_ok.mpr
    ⟨byteCount, payload.take byteCount.toNat, ?_, by rw [List.length_take]; omega, trivial,
      rfl, hvalues⟩, by show values.length * 2 = _; omega⟩
  rw [List.take_append_drop]
  rfl

theorem length_registers {code : FunctionCode} {maxQty expected : UInt16} {pdu rest : Bytes}
    {m : ReadMultiple .register code maxQty}
    (h : (deserialize .register code maxQty expected).run pdu = .ok m rest) :
    ∃ byteCount, IsRegisterResponse code maxQty pdu byteCount ∧
      m.values.length * 2 = byteCount.toNat := by
  obtain ⟨byteCount, payload, rfl, hp, _, hvalues⟩ := deserialize_eq_ok.mp h
  have hq := m.quantity_ok
  have hone : kMinQuantity.toNat = 1 := rfl
  have hlen : payload.length = m.values.length * 2 := hvalues.length_payload
  refine ⟨byteCount, ⟨payload ++ rest, rfl, by omega, by omega, by omega, ?_⟩, by omega⟩
  rw [List.length_append]
  omega

/-! ### Encoding, when `MaxQty` values fit -/

theorem length_le (m : ReadMultiple kind code maxQty) : m.values.length ≤ maxQty.toNat := by
  have := m.quantity_ok
  omega

@[simp] theorem toNat_getQuantity (m : ReadMultiple kind code maxQty) :
    m.getQuantity.toNat = m.values.length := by
  have hmax := maxQty.toNat_lt
  have hlen := m.length_le
  rw [getQuantity, UInt16.toNat_ofNat']
  exact Nat.mod_eq_of_lt (by omega)

theorem getByteCount_eq (m : ReadMultiple kind code maxQty) :
    m.getByteCount = UInt8.ofNat (kind.payloadSize m.values.length) := by
  cases kind <;> simp only [getByteCount, toNat_getQuantity, ReadKind.payloadSize]

section

variable (hfit : kind.payloadSize maxQty.toNat ≤ 255)
include hfit

theorem toNat_getByteCount (m : ReadMultiple kind code maxQty) :
    m.getByteCount.toNat = kind.payloadSize m.values.length := by
  have := (kind.payloadSize_mono m.length_le).trans hfit
  rw [getByteCount_eq, UInt8.toNat_ofNat']
  exact Nat.mod_eq_of_lt (by omega)

theorem length_encode (m : ReadMultiple kind code maxQty) :
    m.encode.length = m.getEncodedSize := by
  rw [encode, List.length_append, List.length_append, ReadKind.length_encodeValues,
    BigEndian.length_toBytes, BigEndian.length_toBytes, getEncodedSize, m.toNat_getByteCount hfit,
    size_uint8]
  omega

theorem writes_serialize (m : ReadMultiple kind code maxQty) : Writes m.serialize m.encode := by
  rw [serialize_eq]
  exact (m.writes_writeFields harmless_ignore).requireRoom (m.length_encode hfit).ge _

/-- **Named values are read back from their encoding**, by a caller who expects
that many. -/
theorem deserialize_encode (m : ReadMultiple kind code maxQty)
    (hnamed : ∀ val ∈ m.values, kind.Named val) (rest : Bytes) :
    (deserialize kind code maxQty m.getQuantity).run (m.encode ++ rest) = .ok m rest := by
  rw [deserialize_eq_ok]
  refine ⟨m.getByteCount, _, by rw [encode, List.append_assoc, List.append_assoc], ?_, ?_,
    ReadKind.decodes_encodeValues hnamed⟩
  · rw [ReadKind.length_encodeValues, m.toNat_getByteCount hfit]
  · cases kind <;> simp [ReadKind.AsExpected]

end

end ReadMultiple

end Response

end Modbus
