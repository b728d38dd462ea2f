import Modbus.Library.Span
import Modbus.Values

/-!
# `utils.hpp`

`ReadBe` and `WriteBe` move one big-endian integer between a value and a span;
both fail without touching the span when it is too short.  They are used at
`std::uint8_t` and `std::uint16_t`; `BigEndian` holds what they need of these two
types, with the laws that make a value and its bytes determine each other.
-/

namespace Modbus

open Span

/-- An unsigned integer type with `sizeof` and byte order. -/
class BigEndian (T : Type) where
  size : Nat
  toBytes : T → Bytes
  ofBytes : Bytes → T
  length_toBytes : ∀ v, (toBytes v).length = size
  ofBytes_toBytes : ∀ v, ofBytes (toBytes v) = v
  toBytes_ofBytes : ∀ b, b.length = size → toBytes (ofBytes b) = b

export BigEndian (toBytes)

attribute [simp] BigEndian.length_toBytes BigEndian.ofBytes_toBytes

instance : BigEndian UInt8 where
  size := 1
  toBytes v := [v]
  ofBytes
    | [b] => b
    | _ => 0
  length_toBytes _ := rfl
  ofBytes_toBytes _ := rfl
  toBytes_ofBytes b hb := by
    obtain ⟨x, rfl⟩ := List.length_eq_one_iff.mp hb
    rfl

theorem toNat_join (hi lo : UInt8) :
    (hi.toUInt16 <<< 8 ||| lo.toUInt16).toNat = 256 * hi.toNat + lo.toNat := by
  have hlo : lo.toNat < 2 ^ 8 := lo.toNat_lt
  have hhi : hi.toNat < 2 ^ 8 := hi.toNat_lt
  rw [UInt16.toNat_or, UInt16.toNat_shiftLeft, UInt8.toNat_toUInt16, UInt8.toNat_toUInt16,
    show (8 : UInt16).toNat % 16 = 8 from rfl, Nat.mod_eq_of_lt (by rw [Nat.shiftLeft_eq]; omega),
    Nat.shiftLeft_eq, Nat.mul_comm, ← Nat.two_pow_add_eq_or_of_lt hlo]

theorem join_split (v : UInt16) :
    (v >>> 8).toUInt8.toUInt16 <<< 8 ||| v.toUInt8.toUInt16 = v := by
  apply UInt16.toNat_inj.mp
  rw [toNat_join, UInt16.toNat_toUInt8, UInt16.toNat_toUInt8, UInt16.toNat_shiftRight,
    show (8 : UInt16).toNat % 16 = 8 from rfl, Nat.shiftRight_eq_div_pow]
  have := v.toNat_lt
  omega

theorem split_join (hi lo : UInt8) :
    [((hi.toUInt16 <<< 8 ||| lo.toUInt16) >>> 8).toUInt8,
      (hi.toUInt16 <<< 8 ||| lo.toUInt16).toUInt8] = [hi, lo] := by
  have hlo := lo.toNat_lt
  have hhi := hi.toNat_lt
  congr 1
  · apply UInt8.toNat_inj.mp
    rw [UInt16.toNat_toUInt8, UInt16.toNat_shiftRight, toNat_join,
      show (8 : UInt16).toNat % 16 = 8 from rfl, Nat.shiftRight_eq_div_pow]
    omega
  · congr 1
    apply UInt8.toNat_inj.mp
    rw [UInt16.toNat_toUInt8, toNat_join]
    omega

instance : BigEndian UInt16 where
  size := 2
  toBytes v := [(v >>> 8).toUInt8, v.toUInt8]
  ofBytes
    | [hi, lo] => hi.toUInt16 <<< 8 ||| lo.toUInt16
    | _ => 0
  length_toBytes _ := rfl
  ofBytes_toBytes v := join_split v
  toBytes_ofBytes b hb := by
    obtain ⟨hi, lo, rfl⟩ := List.length_eq_two.mp hb
    exact split_join hi lo

@[simp] theorem size_uint8 : BigEndian.size UInt8 = 1 := rfl
@[simp] theorem size_uint16 : BigEndian.size UInt16 = 2 := rfl

/-! ### `ReadBe` and `WriteBe` -/

/-- A decoder: it takes bytes off the front of a `std::span<const std::byte>&`. -/
abbrev Reader := EStateM ParseError Bytes

/-- An encoder: it fills a `std::span<std::byte>&`. -/
abbrev Writer := EStateM ParseError (OutSpan UInt8) Unit

section

variable {T : Type} [BigEndian T]

def readBe (T : Type) [BigEndian T] : Reader T := fun buffer =>
  if buffer.length < BigEndian.size T then .error .kBufferTooShort buffer
  else .ok (BigEndian.ofBytes (buffer.take (BigEndian.size T))) (buffer.drop (BigEndian.size T))

def writeBe (value : T) : Writer := fun out =>
  if out.rest.length < BigEndian.size T then .error .kBufferTooShort out
  else .ok () ⟨out.written ++ toBytes value, out.rest.drop (BigEndian.size T)⟩

theorem toBytes_append_inj {v w : T} {a b : Bytes} :
    toBytes v ++ a = toBytes w ++ b ↔ v = w ∧ a = b := by
  constructor
  · intro h
    obtain ⟨hv, hab⟩ := List.append_inj h (by simp)
    exact ⟨by rw [← BigEndian.ofBytes_toBytes v, hv, BigEndian.ofBytes_toBytes], hab⟩
  · intro h
    obtain ⟨rfl, rfl⟩ := h
    rfl

theorem run_readBe (b : Bytes) : (readBe T).run b
    = if b.length < BigEndian.size T then .error .kBufferTooShort b
      else .ok (BigEndian.ofBytes (b.take (BigEndian.size T))) (b.drop (BigEndian.size T)) := rfl

/-- **What `ReadBe` returns is what it took off the span.** -/
theorem readBe_eq_ok {b rest : Bytes} {v : T} :
    (readBe T).run b = .ok v rest ↔ b = toBytes v ++ rest := by
  rw [run_readBe]
  constructor
  · intro h
    split at h
    · cases h
    · rename_i hlen
      cases h
      rw [BigEndian.toBytes_ofBytes _ (by rw [List.length_take]; omega), List.take_append_drop]
  · rintro rfl
    rw [if_neg (by simp), List.take_left' (BigEndian.length_toBytes v),
      List.drop_left' (BigEndian.length_toBytes v), BigEndian.ofBytes_toBytes]

theorem takes_readBe : Takes (readBe T) where
  ok h := ⟨_, (readBe_eq_ok.mp h).symm⟩
  error h := by
    rw [run_readBe] at h
    split at h
    · cases h
      exact List.suffix_rfl
    · cases h

theorem streams_readBe : Streams .kBufferTooShort (readBe T) where
  ok h t := by
    rw [readBe_eq_ok] at h ⊢
    rw [h, List.append_assoc]
  error h := by
    rw [run_readBe] at h
    split at h
    · cases h
      exact Or.inl rfl
    · cases h

theorem atomicAt_readBe (b : Bytes) : AtomicAt (readBe T) b := by
  intro e b' h
  rw [run_readBe] at h
  split at h
  · cases h
    rfl
  · cases h

theorem writes_writeBe (v : T) : Writes (writeBe v : Writer) (toBytes v) := by
  intro w r hr
  rw [BigEndian.length_toBytes] at hr
  show (if r.length < BigEndian.size T then _ else _ : EStateM.Result ParseError _ Unit) = _
  rw [if_neg (by omega), BigEndian.length_toBytes]

/-- `for (i = 0; i < n; ++i)` with one `ReadBe` a pass; `parsed` holds what the
passes so far have put into `parsed_values`, from index `0` on. -/
def readLoop (T : Type) [BigEndian T] : Nat → List T → Reader (List T)
  | 0, parsed => pure parsed
  | n + 1, parsed => do
    let val ← readBe T
    readLoop T n (parsed ++ [val])

theorem takes_readLoop (n : Nat) (parsed : List T) : Takes (readLoop T n parsed) := by
  induction n generalizing parsed with
  | zero => exact Takes.pure parsed
  | succ n ih => exact takes_readBe.bind (fun v => ih (parsed ++ [v]))

theorem streams_readLoop (n : Nat) (parsed : List T) :
    Streams .kBufferTooShort (readLoop T n parsed) := by
  induction n generalizing parsed with
  | zero => exact Streams.pure parsed
  | succ n ih => exact streams_readBe.bind (fun v => ih (parsed ++ [v]))

theorem readLoop_eq_ok {n : Nat} {parsed vs : List T} {b rest : Bytes} :
    (readLoop T n parsed).run b = .ok vs rest ↔
      ∃ ws, vs = parsed ++ ws ∧ ws.length = n ∧ b = ws.flatMap toBytes ++ rest := by
  induction n generalizing parsed b with
  | zero =>
    rw [readLoop, EStateM.run_pure]
    constructor
    · intro h
      cases h
      exact ⟨[], (List.append_nil _).symm, rfl, rfl⟩
    · intro h
      obtain ⟨ws, rfl, hw, rfl⟩ := h
      obtain rfl := List.eq_nil_of_length_eq_zero hw
      rw [List.append_nil]
      rfl
  | succ n ih =>
    rw [readLoop, run_bind_eq_ok]
    constructor
    · intro h'
      obtain ⟨v, b', hv, h⟩ := h'
      rw [readBe_eq_ok] at hv
      obtain ⟨ws, rfl, hw, rfl⟩ := ih.mp h
      exact ⟨v :: ws, by simp, by simp [hw], by rw [hv, List.flatMap_cons, List.append_assoc]⟩
    · intro h
      obtain ⟨ws, rfl, hw, rfl⟩ := h
      cases ws with
      | nil => cases hw
      | cons v ws =>
        refine ⟨v, ws.flatMap toBytes ++ rest, ?_, ih.mpr ⟨ws, by simp, by simpa using hw, rfl⟩⟩
        rw [readBe_eq_ok, List.flatMap_cons, List.append_assoc]

end

/-! ### Addresses and bits -/

def kMaxAddressSpace : UInt32 := 0x10000

def wouldAddressOverflow (address quantity : UInt16) : Bool :=
  address.toUInt32 + quantity.toUInt32 > kMaxAddressSpace

/-- The sum does not wrap in `std::uint32_t`. -/
theorem wouldAddressOverflow_eq_false {address quantity : UInt16} :
    wouldAddressOverflow address quantity = false ↔ address.toNat + quantity.toNat ≤ 0x10000 := by
  have ha := address.toNat_lt
  have hq := quantity.toNat_lt
  rw [wouldAddressOverflow, decide_eq_false_iff_not, gt_iff_lt, UInt32.lt_iff_toNat_lt,
    UInt32.toNat_add, UInt16.toNat_toUInt32, UInt16.toNat_toUInt32, Nat.mod_eq_of_lt (by omega),
    show kMaxAddressSpace.toNat = 0x10000 from rfl]
  omega

def bitsToBytes (bits : Nat) : Nat := (bits + 7) / 8

end Modbus
