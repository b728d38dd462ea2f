import Modbus.Utils

/-!
# Function code, address, quantity

`request::impl::ReadMultiple` and `response::impl::WriteMultiple` are the same
class twice: a function code, an address and a quantity, five bytes in all.
`RangeMessage` is that class.  Its constructor is private in the source and
`Create` the only way to a value, so the two checks of `Create` are fields here.
-/

namespace Modbus

open Span

/-- The default of `MinQty`; no instantiation gives another. -/
def kMinQuantity : UInt16 := 1

theorem quantity_iff {q maxQty : UInt16} :
    (q < kMinQuantity ∨ q > maxQty) ↔ (q.toNat < kMinQuantity.toNat ∨ q.toNat > maxQty.toNat) := by
  rw [gt_iff_lt, UInt16.lt_iff_toNat_lt, UInt16.lt_iff_toNat_lt]

structure RangeMessage (code : FunctionCode) (maxQty : UInt16) where
  address : UInt16
  quantity : UInt16
  quantity_ok : ¬ (quantity < kMinQuantity ∨ quantity > maxQty)
  address_ok : ¬ wouldAddressOverflow address quantity

namespace RangeMessage

def kEncodedSize : Nat := 5

variable (code : FunctionCode) (maxQty : UInt16)

def create (address quantity : UInt16) : Except ParseError (RangeMessage code maxQty) :=
  if hq : quantity < kMinQuantity ∨ quantity > maxQty then .error .kInvalidQuantity
  else if ha : wouldAddressOverflow address quantity then .error .kAddressOverflow
  else .ok ⟨address, quantity, hq, ha⟩

def deserialize : Reader (RangeMessage code maxQty) := do
  let functionCode ← readBe UInt8
  failIf (FunctionCode.mk functionCode ≠ code) .kInvalidFunctionCode
  let address ← readBe UInt16
  let quantity ← readBe UInt16
  lift (create code maxQty address quantity)

variable {code maxQty}

def serialize (m : RangeMessage code maxQty) : Writer := do
  requireRoom kEncodedSize .kBufferTooShort
  ignore (writeBe code.raw)
  ignore (writeBe m.address)
  ignore (writeBe m.quantity)

/-! ### The encoding -/

def encode (m : RangeMessage code maxQty) : Bytes :=
  toBytes code.raw ++ (toBytes m.address ++ toBytes m.quantity)

@[simp] theorem length_encode (m : RangeMessage code maxQty) : m.encode.length = 5 := rfl

/-- **`Create` accepts exactly the fields of a message.** -/
theorem create_eq_ok {address quantity : UInt16} {m : RangeMessage code maxQty} :
    create code maxQty address quantity = .ok m ↔ address = m.address ∧ quantity = m.quantity := by
  unfold create
  constructor
  · intro h
    split at h
    · cases h
    · split at h
      · cases h
      · cases h
        exact ⟨rfl, rfl⟩
  · intro h
    obtain ⟨rfl, rfl⟩ := h
    rw [dif_neg m.quantity_ok, dif_neg m.address_ok]

theorem create_isOk {address quantity : UInt16} :
    (∃ m, create code maxQty address quantity = .ok m) ↔ 1 ≤ quantity.toNat ∧
      quantity.toNat ≤ maxQty.toNat ∧ address.toNat + quantity.toNat ≤ 0x10000 := by
  have hone : kMinQuantity.toNat = 1 := rfl
  constructor
  · intro h
    obtain ⟨m, hm⟩ := h
    obtain ⟨rfl, rfl⟩ := create_eq_ok.mp hm
    have hq := m.quantity_ok
    have ha := m.address_ok
    rw [quantity_iff] at hq
    rw [Bool.not_eq_true, wouldAddressOverflow_eq_false] at ha
    omega
  · intro h
    obtain ⟨hmin, hmax, ha⟩ := h
    refine ⟨⟨address, quantity, ?_, ?_⟩, create_eq_ok.mpr ⟨rfl, rfl⟩⟩
    · rw [quantity_iff]
      omega
    · rw [Bool.not_eq_true, wouldAddressOverflow_eq_false]
      exact ha

/-- **A message is accepted exactly in its own encoding.** -/
theorem deserialize_eq_ok {b rest : Bytes} {m : RangeMessage code maxQty} :
    (deserialize code maxQty).run b = .ok m rest ↔ b = m.encode ++ rest := by
  simp only [deserialize, run_bind_eq_ok, readBe_eq_ok, run_failIf_eq_ok, run_lift_eq_ok,
    create_eq_ok]
  constructor
  · intro h
    obtain ⟨c, _, rfl, _, _, ⟨hc, rfl⟩, a, _, rfl, q, _, rfl, ⟨rfl, rfl⟩, rfl⟩ := h
    obtain rfl : FunctionCode.mk c = code := not_not.mp hc
    simp [encode]
  · rintro rfl
    exact ⟨code.raw, _, by rw [encode, List.append_assoc, List.append_assoc], (), _,
      ⟨by simp, rfl⟩, m.address, _, rfl, m.quantity, _, rfl, ⟨rfl, rfl⟩, rfl⟩

/-- `Serialize` behind its check, with `handle` done with the result of each `WriteBe`. -/
def writeFields (handle : Writer → Writer) (m : RangeMessage code maxQty) : Writer := do
  handle (writeBe code.raw)
  handle (writeBe m.address)
  handle (writeBe m.quantity)

theorem writes_writeFields {handle : Writer → Writer} (h : Harmless handle)
    (m : RangeMessage code maxQty) : Writes (m.writeFields handle) m.encode :=
  (h (writes_writeBe _)).then ((h (writes_writeBe _)).then (h (writes_writeBe _)))

theorem writes_serialize (m : RangeMessage code maxQty) : Writes m.serialize m.encode :=
  (m.writes_writeFields harmless_ignore).requireRoom (by simp [kEncodedSize]) _

end RangeMessage

end Modbus
