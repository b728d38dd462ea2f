import Mathlib.Data.List.Basic

/-!
# Values of the protocol

The enumerations of the headers.  `Coil`, `DiscreteInput`, `FunctionCode` and
`ExceptionCode` are `enum class … : std::uint8_t`: a variable of such a type holds
any byte, the enumerators only name some of them, so each is a byte here.  The
error enumerations are never built from a number and are plain inductive types.

`WriteKind` and `ReadKind` are the element types `T` that the templates are
instantiated at: what is written is a coil or a register, what is read is also a
discrete input.
-/

namespace Modbus

abbrev Bytes := List UInt8

/-- `constants.hpp` -/
def kMaxPduSize : Nat := 253

inductive ParseError
  | kBufferTooShort
  | kExtraDataAtEnd
  | kInvalidFunctionCode
  | kInvalidExceptionCode
  | kInvalidQuantity
  | kAddressOverflow
  | kInvalidValue
deriving DecidableEq, Repr

/-! ### Coils and inputs -/

structure Coil where
  raw : UInt8
deriving DecidableEq, Repr

namespace Coil

def kOff : Coil := ⟨0⟩
def kOn : Coil := ⟨1⟩

/-- `is_on ? Coil::kOn : Coil::kOff` -/
def ofBool (isOn : Bool) : Coil := if isOn then kOn else kOff

def Named (c : Coil) : Prop := c = kOn ∨ c = kOff

instance (c : Coil) : Decidable c.Named := inferInstanceAs (Decidable (c = kOn ∨ c = kOff))

theorem ofBool_named (isOn : Bool) : (ofBool isOn).Named := by
  cases isOn with
  | true => exact Or.inl rfl
  | false => exact Or.inr rfl

theorem decide_ofBool_eq_kOn (isOn : Bool) : decide (ofBool isOn = kOn) = isOn := by
  cases isOn <;> rfl

theorem ofBool_decide_eq_kOn {c : Coil} (h : c.Named) : ofBool (decide (c = kOn)) = c := by
  rcases h with rfl | rfl <;> rfl

end Coil

def kCoilOnRawValue : UInt16 := 0xFF00
def kCoilOffRawValue : UInt16 := 0x0000

def coilFromRaw (raw : UInt16) : Except ParseError Coil :=
  if raw = kCoilOnRawValue then .ok .kOn
  else if raw = kCoilOffRawValue then .ok .kOff
  else .error .kInvalidValue

def coilToRaw (coil : Coil) : UInt16 :=
  if coil = .kOn then kCoilOnRawValue else kCoilOffRawValue

/-- **The two raw values and the two enumerators stand for each other.** -/
theorem coilFromRaw_eq_ok {raw : UInt16} {c : Coil} :
    coilFromRaw raw = .ok c ↔ c.Named ∧ raw = coilToRaw c := by
  unfold coilFromRaw
  split
  · rename_i h
    constructor
    · intro hc
      cases hc
      exact ⟨Or.inl rfl, h⟩
    · intro h'
      obtain ⟨rfl | rfl, hr⟩ := h'
      · rfl
      · exact absurd (h.symm.trans hr) (by decide)
  · split
    · rename_i h
      constructor
      · intro hc
        cases hc
        exact ⟨Or.inr rfl, h⟩
      · intro h'
        obtain ⟨rfl | rfl, hr⟩ := h'
        · exact absurd (h.symm.trans hr) (by decide)
        · rfl
    · rename_i h1 h0
      constructor
      · intro hc
        cases hc
      · intro h
        obtain ⟨rfl | rfl, hr⟩ := h
        · exact absurd hr h1
        · exact absurd hr h0

structure DiscreteInput where
  raw : UInt8
deriving DecidableEq, Repr

namespace DiscreteInput

def kOff : DiscreteInput := ⟨0⟩
def kOn : DiscreteInput := ⟨1⟩

/-- `is_set ? DiscreteInput::kOn : DiscreteInput::kOff` -/
def ofBool (isSet : Bool) : DiscreteInput := if isSet then kOn else kOff

def Named (d : DiscreteInput) : Prop := d = kOn ∨ d = kOff

theorem ofBool_named (isSet : Bool) : (ofBool isSet).Named := by
  cases isSet with
  | true => exact Or.inl rfl
  | false => exact Or.inr rfl

theorem decide_ofBool_eq_kOn (isSet : Bool) : decide (ofBool isSet = kOn) = isSet := by
  cases isSet <;> rfl

theorem ofBool_decide_eq_kOn {d : DiscreteInput} (h : d.Named) :
    ofBool (decide (d = kOn)) = d := by
  rcases h with rfl | rfl <;> rfl

end DiscreteInput

/-! ### Function codes -/

structure FunctionCode where
  raw : UInt8
deriving DecidableEq, Repr

namespace FunctionCode

def kReadCoils : FunctionCode := ⟨0x01⟩
def kReadDiscreteInputs : FunctionCode := ⟨0x02⟩
def kReadHoldingRegisters : FunctionCode := ⟨0x03⟩
def kReadInputRegisters : FunctionCode := ⟨0x04⟩
def kWriteSingleCoil : FunctionCode := ⟨0x05⟩
def kWriteSingleHoldingRegister : FunctionCode := ⟨0x06⟩
def kWriteMultipleCoils : FunctionCode := ⟨0x0F⟩
def kWriteMultipleHoldingRegisters : FunctionCode := ⟨0x10⟩

end FunctionCode

def kErrorFlag : UInt8 := 0x80
def kFunctionCodeMask : UInt8 := 0x7F

def toErrorFunctionCode (functionCode : UInt8) : UInt8 := functionCode ||| kErrorFlag

def isErrorFunctionCode (functionCode : UInt8) : Bool := functionCode &&& kErrorFlag != 0

def toNormalFunctionCode (errorFunctionCode : UInt8) : UInt8 :=
  errorFunctionCode &&& kFunctionCodeMask

theorem toErrorFunctionCode_toNormal : ∀ raw : BitVec 8,
    isErrorFunctionCode ⟨raw⟩ → toErrorFunctionCode (toNormalFunctionCode ⟨raw⟩) = ⟨raw⟩ := by
  decide

/-! ### Exception codes -/

structure ExceptionCode where
  raw : UInt8
deriving DecidableEq, Repr

namespace ExceptionCode

def kIllegalFunction : ExceptionCode := ⟨0x01⟩
def kIllegalDataAddress : ExceptionCode := ⟨0x02⟩
def kIllegalDataValue : ExceptionCode := ⟨0x03⟩
def kServerDeviceFailure : ExceptionCode := ⟨0x04⟩
def kAcknowledge : ExceptionCode := ⟨0x05⟩
def kServerDeviceBusy : ExceptionCode := ⟨0x06⟩
def kMemoryParityError : ExceptionCode := ⟨0x08⟩
def kGatewayPathUnavailable : ExceptionCode := ⟨0x0A⟩
def kGatewayTargetFailed : ExceptionCode := ⟨0x0B⟩

end ExceptionCode

def isValidExceptionCode (rawCode : UInt8) : Bool :=
  ExceptionCode.mk rawCode ∈ [ExceptionCode.kIllegalFunction, .kIllegalDataAddress,
    .kIllegalDataValue, .kServerDeviceFailure, .kAcknowledge, .kServerDeviceBusy,
    .kMemoryParityError, .kGatewayPathUnavailable, .kGatewayTargetFailed]

/-! ### Element types -/

/-- The element types of the write templates. -/
inductive WriteKind
  | coil
  | register
deriving DecidableEq, Repr

abbrev WriteKind.T : WriteKind → Type
  | .coil => Coil
  | .register => UInt16

/-- The element types of the read templates. -/
inductive ReadKind
  | coil
  | discreteInput
  | register
deriving DecidableEq, Repr

abbrev ReadKind.T : ReadKind → Type
  | .coil => Coil
  | .discreteInput => DiscreteInput
  | .register => UInt16

end Modbus
