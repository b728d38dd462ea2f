import Modbus.Library.ByteBits
import Modbus.Message.Single

/-!
# Values in bytes

What the variable part of a message holds: bits, eight to a byte, the first one
lowest, or registers, two bytes each.  `IsBits` and `IsRegisters` say which bytes
are read as which values; of `n` bits the ones left over in the last byte may be
anything.  `WriteKind` and `ReadKind` pick one of the two.

* `WriteKind.decodes_encodeValues`, `ReadKind.decodes_encodeValues`: values are
  read back from their own bytes.
-/

namespace Modbus

open Span ByteBits

section

variable {T : Type}

/-- `payload` is `n` bits in bytes, each one a value. -/
def IsBits (ofBool : Bool → T) (n : Nat) (payload : Bytes) (values : List T) : Prop :=
  payload.length = bitsToBytes n ∧ values = (unpack n payload).map ofBool

def IsRegisters (n : Nat) (payload : Bytes) (values : List UInt16) : Prop :=
  values.length = n ∧ payload = values.flatMap toBytes

theorem isBits_pack {ofBool : Bool → T} {isOn : T → Bool} {values : List T}
    (h : ∀ val ∈ values, ofBool (isOn val) = val) :
    IsBits ofBool values.length (pack (values.map isOn)) values := by
  refine ⟨by rw [length_pack, List.length_map, bitsToBytes], ?_⟩
  have := unpack_pack (values.map isOn)
  rw [List.length_map] at this
  rw [this, List.map_map]
  exact ((List.map_congr_left h).trans (List.map_id _)).symm

/-- The bytes of values that were decoded as bits: the ones they come from, without what
is left over in the last one. -/
theorem IsBits.pack_map {ofBool : Bool → T} {isOn : T → Bool} {n : Nat} {payload : Bytes}
    {values : List T} (h : IsBits ofBool n payload values) (hon : ∀ b, isOn (ofBool b) = b) :
    pack (values.map isOn) = clearFrom n payload := by
  obtain ⟨hlen, rfl⟩ := h
  have hid : isOn ∘ ofBool = id := funext hon
  rw [List.map_map, hid, List.map_id, pack_unpack hlen]

theorem length_flatMap_toBytes (values : List UInt16) :
    (values.flatMap toBytes).length = values.length * 2 := by
  induction values with
  | nil => rfl
  | cons v values ih =>
    rw [List.flatMap_cons, List.length_append, BigEndian.length_toBytes, ih, List.length_cons,
      size_uint16]
    omega

theorem IsBits.length_eq {ofBool : Bool → T} {n : Nat} {payload : Bytes} {values : List T}
    (h : IsBits ofBool n payload values) : values.length = n := by
  rw [h.2, List.length_map, length_unpack]

theorem IsBits.exists_ofBool {ofBool : Bool → T} {n : Nat} {payload : Bytes} {values : List T}
    (h : IsBits ofBool n payload values) : ∀ val ∈ values, ∃ b, ofBool b = val := by
  intro val hval
  rw [h.2] at hval
  obtain ⟨b, _, hb⟩ := List.mem_map.mp hval
  exact ⟨b, hb⟩

theorem IsRegisters.length_payload {n : Nat} {payload : Bytes} {values : List UInt16}
    (h : IsRegisters n payload values) : payload.length = n * 2 := by
  rw [h.2, length_flatMap_toBytes, h.1]

theorem exists_isRegisters : ∀ (n : Nat) (payload : Bytes), payload.length = n * 2 →
    ∃ values, IsRegisters n payload values := by
  intro n
  induction n with
  | zero =>
    intro payload h
    obtain rfl := List.eq_nil_of_length_eq_zero h
    exact ⟨[], rfl, rfl⟩
  | succ n ih =>
    intro payload h
    obtain ⟨values, hlen, hpayload⟩ := ih (payload.drop 2) (by rw [List.length_drop]; omega)
    refine ⟨BigEndian.ofBytes (payload.take 2) :: values, by rw [List.length_cons, hlen], ?_⟩
    rw [List.flatMap_cons,
      BigEndian.toBytes_ofBytes _ (by rw [List.length_take, size_uint16]; omega),
      ← hpayload, List.take_append_drop]

theorem exists_isBits (ofBool : Bool → T) {n : Nat} {payload : Bytes}
    (h : payload.length = bitsToBytes n) : ∃ values, IsBits ofBool n payload values :=
  ⟨_, h, rfl⟩

end

/-! ### Written values -/

namespace WriteKind

def payloadSize : WriteKind → Nat → Nat
  | .coil, n => bitsToBytes n
  | .register, n => n * 2

theorem payloadSize_mono (kind : WriteKind) {n k : Nat} (h : n ≤ k) :
    kind.payloadSize n ≤ kind.payloadSize k := by
  cases kind <;> simp only [payloadSize, bitsToBytes] <;> omega

def encodeValues : (kind : WriteKind) → List kind.T → Bytes
  | .coil, values => pack (values.map (fun val => decide (val = .kOn)))
  | .register, values => values.flatMap toBytes

def Decodes : (kind : WriteKind) → Nat → Bytes → List kind.T → Prop
  | .coil => IsBits Coil.ofBool
  | .register => IsRegisters

/-- The bytes with what is left over behind bit `n` cleared.  Registers leave nothing. -/
def clearPadding : WriteKind → Nat → Bytes → Bytes
  | .coil, n, bytes => clearFrom n bytes
  | .register, _, bytes => bytes

variable {kind : WriteKind}

@[simp] theorem length_clearPadding (n : Nat) (bytes : Bytes) :
    (kind.clearPadding n bytes).length = bytes.length := by
  cases kind with
  | coil => exact length_clearFrom n bytes
  | register => rfl

theorem clearPadding_append (a b : Bytes) (n : Nat) :
    kind.clearPadding (8 * a.length + n) (a ++ b) = a ++ kind.clearPadding n b := by
  cases kind with
  | coil => exact clearFrom_append a b n
  | register => rfl

/-- **Values are written as the bytes that they were read off**, padding apart. -/
theorem Decodes.encodeValues_eq {n : Nat} {payload : Bytes} {values : List kind.T}
    (h : kind.Decodes n payload values) :
    kind.encodeValues values = kind.clearPadding n payload := by
  cases kind with
  | coil => exact IsBits.pack_map h Coil.decide_ofBool_eq_kOn
  | register => exact h.2.symm

theorem Decodes.length_payload {n : Nat} {payload : Bytes} {values : List kind.T}
    (h : kind.Decodes n payload values) : payload.length = kind.payloadSize n := by
  cases kind with
  | coil => exact h.1
  | register => exact IsRegisters.length_payload h

theorem exists_decodes {n : Nat} {payload : Bytes} (h : payload.length = kind.payloadSize n) :
    ∃ values, kind.Decodes n payload values := by
  cases kind with
  | coil => exact exists_isBits _ h
  | register => exact exists_isRegisters n payload h

theorem Decodes.accepts {n : Nat} {payload : Bytes} {values : List kind.T}
    (h : kind.Decodes n payload values) : ∀ val ∈ values, kind.Accepts val := by
  intro val hval
  cases kind with
  | coil =>
    obtain ⟨b, rfl⟩ := IsBits.exists_ofBool h val hval
    exact Coil.ofBool_named b
  | register => trivial

theorem length_encodeValues (values : List kind.T) :
    (kind.encodeValues values).length = kind.payloadSize values.length := by
  cases kind with
  | coil => simp [encodeValues, payloadSize, bitsToBytes]
  | register => exact length_flatMap_toBytes values

theorem Decodes.length_eq {n : Nat} {payload : Bytes} {values : List kind.T}
    (h : kind.Decodes n payload values) : values.length = n := by
  cases kind with
  | coil => exact IsBits.length_eq h
  | register => exact h.1

/-- **Values that `Create` accepts are read back from their bytes.** -/
theorem decodes_encodeValues {values : List kind.T} (h : ∀ val ∈ values, kind.Accepts val) :
    kind.Decodes values.length (kind.encodeValues values) values := by
  cases kind with
  | coil => exact isBits_pack (fun val hv => Coil.ofBool_decide_eq_kOn (h val hv))
  | register => exact ⟨rfl, rfl⟩

end WriteKind

/-! ### Read values -/

namespace ReadKind

/-- A value that its type names: any register, an input or a coil that is on or off. -/
def Named : (kind : ReadKind) → kind.T → Prop
  | .coil, value => value.Named
  | .discreteInput, value => value.Named
  | .register, _ => True

def payloadSize : ReadKind → Nat → Nat
  | .coil, n => bitsToBytes n
  | .discreteInput, n => bitsToBytes n
  | .register, n => n * 2

theorem payloadSize_mono (kind : ReadKind) {n k : Nat} (h : n ≤ k) :
    kind.payloadSize n ≤ kind.payloadSize k := by
  cases kind <;> simp only [payloadSize, bitsToBytes] <;> omega

def encodeValues : (kind : ReadKind) → List kind.T → Bytes
  | .coil, values => pack (values.map (fun val => decide (val = .kOn)))
  | .discreteInput, values => pack (values.map (fun val => decide (val = .kOn)))
  | .register, values => values.flatMap toBytes

def Decodes : (kind : ReadKind) → Nat → Bytes → List kind.T → Prop
  | .coil => IsBits Coil.ofBool
  | .discreteInput => IsBits DiscreteInput.ofBool
  | .register => IsRegisters

/-- The bytes with what is left over behind bit `n` cleared.  Registers leave nothing. -/
def clearPadding : ReadKind → Nat → Bytes → Bytes
  | .coil, n, bytes => clearFrom n bytes
  | .discreteInput, n, bytes => clearFrom n bytes
  | .register, _, bytes => bytes

variable {kind : ReadKind}

theorem clearPadding_append (a b : Bytes) (n : Nat) :
    kind.clearPadding (8 * a.length + n) (a ++ b) = a ++ kind.clearPadding n b := by
  cases kind with
  | coil => exact clearFrom_append a b n
  | discreteInput => exact clearFrom_append a b n
  | register => rfl

/-- **Values are written as the bytes that they were read off**, padding apart. -/
theorem Decodes.encodeValues_eq {n : Nat} {payload : Bytes} {values : List kind.T}
    (h : kind.Decodes n payload values) :
    kind.encodeValues values = kind.clearPadding n payload := by
  cases kind with
  | coil => exact IsBits.pack_map h Coil.decide_ofBool_eq_kOn
  | discreteInput => exact IsBits.pack_map h DiscreteInput.decide_ofBool_eq_kOn
  | register => exact h.2.symm

theorem length_encodeValues (values : List kind.T) :
    (kind.encodeValues values).length = kind.payloadSize values.length := by
  cases kind with
  | coil => simp [encodeValues, payloadSize, bitsToBytes]
  | discreteInput => simp [encodeValues, payloadSize, bitsToBytes]
  | register => exact length_flatMap_toBytes values

theorem Decodes.length_payload {n : Nat} {payload : Bytes} {values : List kind.T}
    (h : kind.Decodes n payload values) : payload.length = kind.payloadSize n := by
  cases kind with
  | coil => exact h.1
  | discreteInput => exact h.1
  | register => exact IsRegisters.length_payload h

theorem Decodes.length_eq {n : Nat} {payload : Bytes} {values : List kind.T}
    (h : kind.Decodes n payload values) : values.length = n := by
  cases kind with
  | coil => exact IsBits.length_eq h
  | discreteInput => exact IsBits.length_eq h
  | register => exact h.1

theorem exists_decodes {n : Nat} {payload : Bytes} (h : payload.length = kind.payloadSize n) :
    ∃ values, kind.Decodes n payload values := by
  cases kind with
  | coil => exact exists_isBits _ h
  | discreteInput => exact exists_isBits _ h
  | register => exact exists_isRegisters n payload h

theorem Decodes.named {n : Nat} {payload : Bytes} {values : List kind.T}
    (h : kind.Decodes n payload values) : ∀ val ∈ values, kind.Named val := by
  intro val hval
  cases kind with
  | coil =>
    obtain ⟨b, rfl⟩ := IsBits.exists_ofBool h val hval
    exact Coil.ofBool_named b
  | discreteInput =>
    obtain ⟨b, rfl⟩ := IsBits.exists_ofBool h val hval
    exact DiscreteInput.ofBool_named b
  | register => trivial

/-- **Named values are read back from their bytes.** -/
theorem decodes_encodeValues {values : List kind.T} (h : ∀ val ∈ values, kind.Named val) :
    kind.Decodes values.length (kind.encodeValues values) values := by
  cases kind with
  | coil => exact isBits_pack (fun val hv => Coil.ofBool_decide_eq_kOn (h val hv))
  | discreteInput => exact isBits_pack (fun val hv => DiscreteInput.ofBool_decide_eq_kOn (h val hv))
  | register => exact ⟨rfl, rfl⟩

end ReadKind

end Modbus
