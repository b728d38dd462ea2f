import Modbus.Message.Range

/-!
# Function code, address, one value

`request::impl::WriteSingle` and `response::impl::WriteSingle` are the same class
twice.  `SingleMessage` is that class; the coil check of `Create` is its field.
Where the source branches with `if constexpr` on `T` being `Coil`, the branch is
in `WriteKind.Accepts`, `WriteKind.ofRaw` and `WriteKind.toRaw`.
-/

namespace Modbus

open Span

/-- What `Create` lets through: any register, and a coil that is `kOn` or `kOff`. -/
def WriteKind.Accepts : (kind : WriteKind) → kind.T → Prop
  | .coil, value => value.Named
  | .register, _ => True

instance : (kind : WriteKind) → (value : kind.T) → Decidable (kind.Accepts value)
  | .coil, value => inferInstanceAs (Decidable value.Named)
  | .register, _ => inferInstanceAs (Decidable True)

def WriteKind.ofRaw : (kind : WriteKind) → UInt16 → Except ParseError kind.T
  | .coil, rawValue => coilFromRaw rawValue
  | .register, rawValue => .ok rawValue

def WriteKind.toRaw : (kind : WriteKind) → kind.T → UInt16
  | .coil, value => coilToRaw value
  | .register, value => value

theorem WriteKind.ofRaw_eq_ok {kind : WriteKind} {rawValue : UInt16} {value : kind.T} :
    kind.ofRaw rawValue = .ok value ↔ kind.Accepts value ∧ rawValue = kind.toRaw value := by
  cases kind with
  | coil => exact coilFromRaw_eq_ok
  | register => simp [WriteKind.ofRaw, WriteKind.Accepts, WriteKind.toRaw]

theorem WriteKind.ofRaw_isOk {kind : WriteKind} {raw : UInt16} :
    (∃ value, kind.ofRaw raw = .ok value) ↔
      (kind = .coil → raw = kCoilOnRawValue ∨ raw = kCoilOffRawValue) := by
  cases kind with
  | coil =>
    constructor
    · rintro ⟨value, h⟩ _
      obtain ⟨rfl | rfl, rfl⟩ := coilFromRaw_eq_ok.mp h
      · exact Or.inl rfl
      · exact Or.inr rfl
    · intro h
      rcases h rfl with rfl | rfl
      · exact ⟨Coil.kOn, rfl⟩
      · exact ⟨Coil.kOff, rfl⟩
  | register => simp [WriteKind.ofRaw]

structure SingleMessage (kind : WriteKind) (code : FunctionCode) where
  address : UInt16
  value : kind.T
  value_ok : kind.Accepts value

namespace SingleMessage

def kEncodedSize : Nat := 5

variable (kind : WriteKind) (code : FunctionCode)

def create (address : UInt16) (value : kind.T) : Except ParseError (SingleMessage kind code) :=
  if hv : kind.Accepts value then .ok ⟨address, value, hv⟩ else .error .kInvalidValue

def deserialize : Reader (SingleMessage kind code) := do
  let functionCode ← readBe UInt8
  failIf (FunctionCode.mk functionCode ≠ code) .kInvalidFunctionCode
  let address ← readBe UInt16
  let rawValue ← readBe UInt16
  let value ← lift (kind.ofRaw rawValue)
  lift (create kind code address value)

variable {kind code}

def serialize (m : SingleMessage kind code) : Writer := do
  requireRoom kEncodedSize .kBufferTooShort
  ignore (writeBe code.raw)
  ignore (writeBe m.address)
  ignore (writeBe (kind.toRaw m.value))

/-! ### The encoding -/

def encode (m : SingleMessage kind code) : Bytes :=
  toBytes code.raw ++ (toBytes m.address ++ toBytes (kind.toRaw m.value))

@[simp] theorem length_encode (m : SingleMessage kind code) : m.encode.length = 5 := rfl

/-- **`Create` accepts exactly the fields of a message.** -/
theorem create_eq_ok {address : UInt16} {value : kind.T} {m : SingleMessage kind code} :
    create kind code address value = .ok m ↔ address = m.address ∧ value = m.value := by
  unfold create
  constructor
  · intro h
    split at h
    · cases h
      exact ⟨rfl, rfl⟩
    · cases h
  · intro h
    obtain ⟨rfl, rfl⟩ := h
    rw [dif_pos m.value_ok]

theorem create_isOk {address : UInt16} {value : kind.T} :
    (∃ m, create kind code address value = .ok m) ↔ kind.Accepts value := by
  constructor
  · intro h
    obtain ⟨m, hm⟩ := h
    obtain ⟨_, rfl⟩ := create_eq_ok.mp hm
    exact m.value_ok
  · intro hv
    exact ⟨⟨address, value, hv⟩, create_eq_ok.mpr ⟨rfl, rfl⟩⟩

/-- **A message is accepted exactly in its own encoding.** -/
theorem deserialize_eq_ok {b rest : Bytes} {m : SingleMessage kind code} :
    (deserialize kind code).run b = .ok m rest ↔ b = m.encode ++ rest := by
  simp only [deserialize, run_bind_eq_ok, readBe_eq_ok, run_failIf_eq_ok, run_lift_eq_ok,
    create_eq_ok, WriteKind.ofRaw_eq_ok]
  constructor
  · intro h
    obtain ⟨c, _, rfl, _, _, ⟨hc, rfl⟩, a, _, rfl, q, _, rfl, v, _, hv, ⟨rfl, rfl⟩, rfl⟩ := h
    obtain ⟨⟨_, rfl⟩, rfl⟩ := hv
    obtain rfl : FunctionCode.mk c = code := not_not.mp hc
    simp [encode]
  · rintro rfl
    exact ⟨code.raw, _, by rw [encode, List.append_assoc, List.append_assoc], (), _,
      ⟨by simp, rfl⟩, m.address, _, rfl, kind.toRaw m.value, _, rfl, m.value, _,
      ⟨⟨m.value_ok, rfl⟩, rfl⟩, ⟨rfl, rfl⟩, rfl⟩

/-- `Serialize` behind its check, with `handle` done with the result of each `WriteBe`. -/
def writeFields (handle : Writer → Writer) (m : SingleMessage kind code) : Writer := do
  handle (writeBe code.raw)
  handle (writeBe m.address)
  handle (writeBe (kind.toRaw m.value))

theorem writes_writeFields {handle : Writer → Writer} (h : Harmless handle)
    (m : SingleMessage kind code) : Writes (m.writeFields handle) m.encode :=
  (h (writes_writeBe _)).then ((h (writes_writeBe _)).then (h (writes_writeBe _)))

theorem writes_serialize (m : SingleMessage kind code) : Writes m.serialize m.encode :=
  (m.writes_writeFields harmless_ignore).requireRoom (by simp [kEncodedSize]) _

end SingleMessage

end Modbus
