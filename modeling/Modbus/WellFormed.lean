import Modbus.Canonical

/-!
# Well-formed messages

Which bytes are a message, told without a decoder: the function code, fields in range, and
as many bytes of values as the byte count says.

* `Codec.Recognizes`: a decoder accepts what starts with such bytes, takes these, and
  nothing else.  All templates do.
-/

namespace Modbus

open Span

/-- The decoder accepts what starts with a word of `L`, and takes the word. -/
structure Codec.Recognizes {M : Type} (c : Codec M) (L : Bytes → Prop) : Prop where
  accepts : ∀ w, L w → ∃ m, c.encodedSize m = w.length ∧
    ∀ rest, c.deserialize.run (w ++ rest) = .ok m rest
  sound : ∀ b m rest, c.deserialize.run b = .ok m rest →
    ∃ w, b = w ++ rest ∧ L w ∧ c.encodedSize m = w.length

/-- There is a word of `L` at the front of `b`. -/
def StartsWith (L : Bytes → Prop) (b : Bytes) : Prop := ∃ w rest, b = w ++ rest ∧ L w

/-- A decoder succeeds exactly on what starts with a word. -/
theorem Codec.Recognizes.exists_run {M : Type} {c : Codec M} {L : Bytes → Prop}
    (h : c.Recognizes L) {b : Bytes} :
    (∃ m rest, c.deserialize.run b = .ok m rest) ↔ StartsWith L b := by
  constructor
  · intro h'
    obtain ⟨m, rest, hrun⟩ := h'
    obtain ⟨w, hb, hw, _⟩ := h.sound b m rest hrun
    exact ⟨w, rest, hb, hw⟩
  · intro h'
    obtain ⟨w, rest, rfl, hw⟩ := h'
    obtain ⟨m, _, hrun⟩ := h.accepts w hw
    exact ⟨m, rest, hrun rest⟩

/-! ### Messages of a fixed size -/

/-- A function code, an address and a quantity in range. -/
def RangeMessage.WellFormed (code : FunctionCode) (maxQty : UInt16) (w : Bytes) : Prop :=
  ∃ address quantity : UInt16, w = code.raw :: (toBytes address ++ toBytes quantity) ∧
    1 ≤ quantity.toNat ∧ quantity.toNat ≤ maxQty.toNat ∧
      address.toNat + quantity.toNat ≤ 0x10000

/-- A function code, an address and a value, which for a coil is one of two. -/
def SingleMessage.WellFormed (kind : WriteKind) (code : FunctionCode) (w : Bytes) : Prop :=
  ∃ address rawValue : UInt16, w = code.raw :: (toBytes address ++ toBytes rawValue) ∧
    (kind = .coil → rawValue = kCoilOnRawValue ∨ rawValue = kCoilOffRawValue)

theorem RangeMessage.wellFormed_iff {code : FunctionCode} {maxQty : UInt16} {w : Bytes} :
    WellFormed code maxQty w ↔ ∃ m : RangeMessage code maxQty, w = m.encode := by
  constructor
  · intro h
    obtain ⟨address, quantity, rfl, hfields⟩ := h
    obtain ⟨m, hm⟩ := (@create_isOk code maxQty address quantity).mpr hfields
    obtain ⟨rfl, rfl⟩ := create_eq_ok.mp hm
    exact ⟨m, rfl⟩
  · intro h
    obtain ⟨m, rfl⟩ := h
    exact ⟨m.address, m.quantity, rfl, create_isOk.mp ⟨m, create_eq_ok.mpr ⟨rfl, rfl⟩⟩⟩

theorem SingleMessage.wellFormed_iff {kind : WriteKind} {code : FunctionCode} {w : Bytes} :
    WellFormed kind code w ↔ ∃ m : SingleMessage kind code, w = m.encode := by
  constructor
  · intro h
    obtain ⟨address, rawValue, rfl, hraw⟩ := h
    obtain ⟨value, hvalue⟩ := WriteKind.ofRaw_isOk.mpr hraw
    obtain ⟨hv, rfl⟩ := WriteKind.ofRaw_eq_ok.mp hvalue
    exact ⟨⟨address, value, hv⟩, rfl⟩
  · intro h
    obtain ⟨m, rfl⟩ := h
    exact ⟨m.address, kind.toRaw m.value, rfl,
      WriteKind.ofRaw_isOk.mp ⟨m.value, WriteKind.ofRaw_eq_ok.mpr ⟨m.value_ok, rfl⟩⟩⟩

theorem RangeMessage.recognizes (code : FunctionCode) (maxQty : UInt16) :
    (codec code maxQty).Recognizes (WellFormed code maxQty) where
  accepts w hw := by
    obtain ⟨m, rfl⟩ := wellFormed_iff.mp hw
    exact ⟨m, rfl, fun rest => deserialize_eq_ok.mpr rfl⟩
  sound b m rest h := ⟨m.encode, deserialize_eq_ok.mp h, wellFormed_iff.mpr ⟨m, rfl⟩, rfl⟩

theorem SingleMessage.recognizes (kind : WriteKind) (code : FunctionCode) :
    (codec kind code).Recognizes (WellFormed kind code) where
  accepts w hw := by
    obtain ⟨m, rfl⟩ := wellFormed_iff.mp hw
    exact ⟨m, rfl, fun rest => deserialize_eq_ok.mpr rfl⟩
  sound b m rest h := ⟨m.encode, deserialize_eq_ok.mp h, wellFormed_iff.mpr ⟨m, rfl⟩, rfl⟩

/-! ### Messages with values -/

/-- A function code, an address, a quantity in range, and that many values. -/
def Request.WriteMultiple.WellFormed (kind : WriteKind) (code : FunctionCode) (maxQty : UInt16)
    (w : Bytes) : Prop :=
  ∃ (address quantity : UInt16) (byteCount : UInt8) (payload : Bytes),
    w = code.raw :: (toBytes address ++ (toBytes quantity ++ byteCount :: payload)) ∧
      1 ≤ quantity.toNat ∧ quantity.toNat ≤ maxQty.toNat ∧
      address.toNat + quantity.toNat ≤ 0x10000 ∧
      byteCount.toNat = kind.payloadSize quantity.toNat ∧ payload.length = byteCount.toNat

/-- The byte count of a response: bits are as many as expected, and registers as many as
it says. -/
def ReadKind.Expects (kind : ReadKind) (maxQty expectedQuantity : UInt16) (byteCount : UInt8) :
    Prop :=
  match kind with
  | .coil | .discreteInput => 1 ≤ expectedQuantity.toNat ∧
      expectedQuantity.toNat ≤ maxQty.toNat ∧
        byteCount.toNat = bitsToBytes expectedQuantity.toNat
  | .register => byteCount.toNat % 2 = 0 ∧ 2 ≤ byteCount.toNat ∧
      byteCount.toNat ≤ 2 * maxQty.toNat

/-- A function code, a byte count, and that many bytes. -/
def Response.ReadMultiple.WellFormed (kind : ReadKind) (code : FunctionCode)
    (maxQty expectedQuantity : UInt16) (w : Bytes) : Prop :=
  ∃ (byteCount : UInt8) (payload : Bytes), w = code.raw :: byteCount :: payload ∧
    kind.Expects maxQty expectedQuantity byteCount ∧ payload.length = byteCount.toNat

theorem Request.WriteMultiple.deserialize_of_decodes (kind : WriteKind) (code : FunctionCode)
    (maxQty : UInt16) (hfit : kind.payloadSize maxQty.toNat ≤ 255) {address quantity : UInt16}
    {byteCount : UInt8} {payload : Bytes} {values : List kind.T} (hmin : 1 ≤ quantity.toNat)
    (hmax : quantity.toNat ≤ maxQty.toNat) (ha : address.toNat + quantity.toNat ≤ 0x10000)
    (hcount : byteCount.toNat = kind.payloadSize quantity.toNat)
    (hvalues : kind.Decodes quantity.toNat payload values) :
    ∃ m : WriteMultiple kind code maxQty, m.values = values ∧ m.getByteCount = byteCount ∧
      ∀ rest, (deserialize kind code maxQty).run
        (code.raw :: (toBytes address ++ (toBytes quantity ++ byteCount :: payload)) ++ rest)
          = .ok m rest := by
  have hquantity := hvalues.length_eq
  obtain ⟨m, hm⟩ := (@create_isOk kind code maxQty address values).mpr
    ⟨by omega, by omega, by omega, hvalues.accepts⟩
  obtain ⟨rfl, rfl⟩ := create_eq_ok.mp hm
  obtain rfl : quantity = m.getQuantity :=
    UInt16.toNat_inj.mp (by rw [toNat_getQuantity, hquantity])
  obtain rfl : byteCount = m.getByteCount :=
    UInt8.toNat_inj.mp (by rw [hcount, m.toNat_getByteCount hfit, toNat_getQuantity])
  rw [toNat_getQuantity] at hvalues
  exact ⟨m, rfl, rfl, fun rest => deserialize_eq_ok.mpr ⟨payload, rfl, hvalues⟩⟩

theorem Request.WriteMultiple.recognizes {kind : WriteKind} (code : FunctionCode)
    {maxQty : UInt16} (hfit : kind.payloadSize maxQty.toNat ≤ 255) :
    (codec kind code maxQty).Recognizes (WellFormed kind code maxQty) where
  accepts w hw := by
    obtain ⟨address, quantity, byteCount, payload, rfl, hmin, hmax, ha, hcount, hlen⟩ := hw
    obtain ⟨values, hvalues⟩ := WriteKind.exists_decodes (hlen.trans hcount)
    obtain ⟨m, _, hbytes, hrun⟩ :=
      deserialize_of_decodes kind code maxQty hfit hmin hmax ha hcount hvalues
    refine ⟨m, ?_, hrun⟩
    show 6 + m.getByteCount.toNat = _
    rw [hbytes, ← hlen]
    simp only [List.length_cons, List.length_append, BigEndian.length_toBytes, size_uint16]
    omega
  sound b m rest h := by
    obtain ⟨payload, rfl, hdec⟩ := deserialize_eq_ok.mp h
    obtain ⟨hmin, hmax, ha, _⟩ := create_isOk.mp ⟨m, create_eq_ok.mpr ⟨rfl, rfl⟩⟩
    have hcount := m.toNat_getByteCount hfit
    have hlen := hdec.length_payload
    refine ⟨m.header ++ payload, (List.append_assoc _ _ _).symm,
      ⟨m.address, m.getQuantity, m.getByteCount, payload, rfl, ?_⟩, ?_⟩
    · rw [toNat_getQuantity]
      exact ⟨hmin, hmax, ha, hcount, by omega⟩
    · show 6 + m.getByteCount.toNat = _
      rw [List.length_append, length_header]
      omega

theorem ReadKind.expects_iff {kind : ReadKind} {maxQty expectedQuantity : UInt16}
    {byteCount : UInt8} : kind.Expects maxQty expectedQuantity byteCount ↔
      ∃ n, byteCount.toNat = kind.payloadSize n ∧ 1 ≤ n ∧ n ≤ maxQty.toNat ∧
        kind.AsExpected expectedQuantity n := by
  have hbits : (1 ≤ expectedQuantity.toNat ∧ expectedQuantity.toNat ≤ maxQty.toNat ∧
      byteCount.toNat = bitsToBytes expectedQuantity.toNat) ↔
        ∃ n, byteCount.toNat = bitsToBytes n ∧ 1 ≤ n ∧ n ≤ maxQty.toNat ∧
          n = expectedQuantity.toNat := by
    constructor
    · intro h
      obtain ⟨hmin, hmax, hcount⟩ := h
      exact ⟨_, hcount, hmin, hmax, rfl⟩
    · intro h
      obtain ⟨n, hcount, hmin, hmax, rfl⟩ := h
      exact ⟨hmin, hmax, hcount⟩
  cases kind with
  | coil => exact hbits
  | discreteInput => exact hbits
  | register =>
    constructor
    · intro h
      obtain ⟨heven, hmin, hmax⟩ := h
      exact ⟨byteCount.toNat / 2, by simp only [payloadSize]; omega, by omega, by omega, trivial⟩
    · intro h
      obtain ⟨n, hcount, hmin, hmax, _⟩ := h
      simp only [payloadSize] at hcount
      exact ⟨by omega, by omega, by omega⟩

theorem Response.ReadMultiple.deserialize_of_decodes (kind : ReadKind) (code : FunctionCode)
    (maxQty expectedQuantity : UInt16) {byteCount : UInt8} {payload : Bytes}
    {values : List kind.T} (hmin : 1 ≤ values.length) (hmax : values.length ≤ maxQty.toNat)
    (hexp : kind.AsExpected expectedQuantity values.length)
    (hlen : payload.length = byteCount.toNat)
    (hvalues : kind.Decodes values.length payload values) :
    ∃ m : ReadMultiple kind code maxQty, m.values = values ∧
      ∀ rest, (deserialize kind code maxQty expectedQuantity).run
        (code.raw :: byteCount :: payload ++ rest) = .ok m rest := by
  have hone : kMinQuantity.toNat = 1 := rfl
  exact ⟨⟨values, by omega⟩, rfl, fun rest => deserialize_eq_ok.mpr
    ⟨byteCount, payload, rfl, hlen, hexp, hvalues⟩⟩

theorem Response.ReadMultiple.recognizes {kind : ReadKind} (code : FunctionCode)
    {maxQty : UInt16} (hfit : kind.payloadSize maxQty.toNat ≤ 255) (expectedQuantity : UInt16) :
    (codec kind code maxQty expectedQuantity).Recognizes
      (WellFormed kind code maxQty expectedQuantity) where
  accepts w hw := by
    obtain ⟨byteCount, payload, rfl, hexpects, hlen⟩ := hw
    obtain ⟨n, hcount, hmin, hmax, hexp⟩ := ReadKind.expects_iff.mp hexpects
    obtain ⟨values, hvalues⟩ := ReadKind.exists_decodes (hlen.trans hcount)
    obtain rfl := hvalues.length_eq
    obtain ⟨m, rfl, hrun⟩ :=
      deserialize_of_decodes kind code maxQty _ hmin hmax hexp hlen hvalues
    refine ⟨m, ?_, hrun⟩
    show 2 + m.getByteCount.toNat = _
    rw [m.toNat_getByteCount hfit, List.length_cons, List.length_cons, hlen, hcount]
    exact Nat.add_comm _ _
  sound b m rest h := by
    obtain ⟨byteCount, payload, rfl, hlen, hexp, hdec⟩ := deserialize_eq_ok.mp h
    have hone : kMinQuantity.toNat = 1 := rfl
    have hq := m.quantity_ok
    have hcount := hdec.length_payload
    refine ⟨code.raw :: byteCount :: payload, rfl, ⟨byteCount, payload, rfl, ?_, hlen⟩, ?_⟩
    · exact ReadKind.expects_iff.mpr ⟨m.values.length, by omega, by omega, by omega, hexp⟩
    · show 2 + m.getByteCount.toNat = _
      rw [m.toNat_getByteCount hfit, List.length_cons, List.length_cons, hcount]
      omega

end Modbus
