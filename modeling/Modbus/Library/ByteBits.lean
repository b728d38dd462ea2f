import Mathlib.Data.List.GetD
import Mathlib.Data.Nat.Bitwise

/-!
# The bits of a byte string

Bits are counted byte by byte, the least significant bit of each byte first.

* `bitAt`: one bit; `ofBytes`: all of them as a list.  `eq_of_bitAt_eq`: a byte
  string of known length is its bits.
* `byteOf`: a byte from its bits, set one after the other.  `testBit_or_shift`,
  `shift_and_one`, `and_shift`: the expressions with which code sets and tests a bit.
* `pack`, `unpack`: a list of bits in as few bytes as it takes, and back.  `IsPacking` says
  which bytes these are, bit by bit.
* `clearFrom`: a byte string with its bits from some position on cleared.  Packing what
  was unpacked does that (`pack_unpack`).
-/

namespace ByteBits

/-- Bit `i`; past the end there are only zeros. -/
def bitAt (bytes : List UInt8) (i : Nat) : Bool := (bytes.getD (i / 8) 0).toNat.testBit (i % 8)

@[simp] theorem bitAt_nil (i : Nat) : bitAt [] i = false := by simp [bitAt]

theorem bitAt_cons_of_lt {i : Nat} (b : UInt8) (bytes : List UInt8) (h : i < 8) :
    bitAt (b :: bytes) i = b.toNat.testBit i := by
  rw [bitAt, Nat.div_eq_of_lt h, Nat.mod_eq_of_lt h, List.getD_cons_zero]

theorem bitAt_cons_add (b : UInt8) (bytes : List UInt8) (i : Nat) :
    bitAt (b :: bytes) (8 + i) = bitAt bytes i := by
  rw [bitAt, bitAt, Nat.add_div_left _ (by omega), Nat.add_mod_left, List.getD_cons_succ]

theorem bitAt_of_ge {i : Nat} {bytes : List UInt8} (h : 8 * bytes.length ≤ i) :
    bitAt bytes i = false := by
  rw [bitAt, List.getD_eq_default _ _ (by omega)]
  simp

theorem bitAt_append_of_lt {i : Nat} {a : List UInt8} (b : List UInt8) (h : i < 8 * a.length) :
    bitAt (a ++ b) i = bitAt a i := by
  rw [bitAt, bitAt, List.getD_append _ _ _ _ (by omega)]

theorem bitAt_append_add (a b : List UInt8) (i : Nat) :
    bitAt (a ++ b) (8 * a.length + i) = bitAt b i := by
  rw [bitAt, bitAt, List.getD_append_right _ _ _ _ (by omega), Nat.mul_add_mod,
    show (8 * a.length + i) / 8 - a.length = i / 8 by omega]

theorem byte_eq_of_testBit_eq {a b : UInt8}
    (h : ∀ k, k < 8 → a.toNat.testBit k = b.toNat.testBit k) : a = b := by
  refine UInt8.toBitVec_inj.mp (BitVec.eq_of_getLsbD_eq (fun k hk => ?_))
  exact h k hk

/-- **A byte string of known length is its bits.** -/
theorem eq_of_bitAt_eq {a b : List UInt8} (hlen : a.length = b.length)
    (h : ∀ i, i < 8 * a.length → bitAt a i = bitAt b i) : a = b := by
  refine List.ext_getElem hlen (fun j ha hb => byte_eq_of_testBit_eq (fun k hk => ?_))
  have := h (8 * j + k) (by omega)
  rwa [bitAt, bitAt, Nat.mul_add_div (by omega), Nat.div_eq_of_lt hk, Nat.add_zero,
    Nat.mul_add_mod, Nat.mod_eq_of_lt hk, List.getD_eq_getElem _ _ ha,
    List.getD_eq_getElem _ _ hb] at this

/-! ### As a list -/

def ofByte (b : UInt8) : List Bool := (List.range 8).map b.toNat.testBit

/-- All bits of a byte string. -/
def ofBytes (bytes : List UInt8) : List Bool := bytes.flatMap ofByte

@[simp] theorem length_ofByte (b : UInt8) : (ofByte b).length = 8 := by simp [ofByte]

theorem ofBytes_cons (b : UInt8) (bytes : List UInt8) :
    ofBytes (b :: bytes) = ofByte b ++ ofBytes bytes := List.flatMap_cons

theorem ofBytes_append (a b : List UInt8) : ofBytes (a ++ b) = ofBytes a ++ ofBytes b :=
  List.flatMap_append

@[simp] theorem length_ofBytes (bytes : List UInt8) :
    (ofBytes bytes).length = 8 * bytes.length := by
  induction bytes with
  | nil => rfl
  | cons b bytes ih =>
    rw [ofBytes_cons, List.length_append, length_ofByte, ih, List.length_cons]
    omega

theorem getD_ofBytes (bytes : List UInt8) (i : Nat) :
    (ofBytes bytes).getD i false = bitAt bytes i := by
  induction bytes generalizing i with
  | nil => simp
  | cons b bytes ih =>
    rw [ofBytes_cons]
    by_cases h : i < 8
    · rw [List.getD_append _ _ _ _ (by simpa using h), bitAt_cons_of_lt b bytes h,
        List.getD_eq_getElem _ _ (by simpa using h)]
      simp [ofByte]
    · obtain ⟨j, rfl⟩ : ∃ j, i = 8 + j := ⟨i - 8, by omega⟩
      rw [List.getD_append_right _ _ _ _ (by simp), length_ofByte, Nat.add_sub_cancel_left, ih,
        bitAt_cons_add]

/-! ### Setting and testing bits -/

/-- `b |= 1 << j` sets bit `j`. -/
theorem testBit_or_shift (b : UInt8) (j : Nat) {k : Nat} (hk : k < 8) :
    (b ||| UInt8.ofNat (1 <<< j)).toNat.testBit k = (b.toNat.testBit k || decide (j = k)) := by
  rw [UInt8.toNat_or, Nat.testBit_or, UInt8.toNat_ofNat', Nat.testBit_mod_two_pow,
    Nat.one_shiftLeft, Nat.testBit_two_pow]
  simp [hk]

/-- The bits `k` of a list with `f k` set, one after the other. -/
def setBits (f : Nat → Bool) (b : UInt8) (ks : List Nat) : UInt8 :=
  ks.foldl (fun b k => if f k then b ||| UInt8.ofNat (1 <<< k) else b) b

theorem testBit_setBits (f : Nat → Bool) {k : Nat} (hk : k < 8) : ∀ (ks : List Nat) (b : UInt8),
    (setBits f b ks).toNat.testBit k = (b.toNat.testBit k || (decide (k ∈ ks) && f k)) := by
  intro ks
  induction ks with
  | nil => intro b; simp [setBits]
  | cons j ks ih =>
    intro b
    rw [setBits, List.foldl_cons, ← setBits, ih]
    by_cases hf : f j = true
    · rw [if_pos hf, testBit_or_shift b j hk]
      by_cases hjk : j = k
      · subst hjk
        simp [hf]
      · simp [hjk, Ne.symm hjk]
    · rw [if_neg hf]
      by_cases hjk : j = k
      · subst hjk
        simp [hf]
      · simp [Ne.symm hjk]

/-- The byte whose bit `k` is `f k`. -/
def byteOf (f : Nat → Bool) : UInt8 := setBits f 0 (List.range 8)

theorem testBit_byteOf (f : Nat → Bool) {k : Nat} (hk : k < 8) :
    (byteOf f).toNat.testBit k = f k := by
  rw [byteOf, testBit_setBits f hk]
  simp [hk]

/-- `(b >> k) & 1` tests bit `k`. -/
theorem shift_and_one (n k : Nat) : ((n >>> k) &&& 1 != 0) = n.testBit k := by
  rw [Nat.testBit, Nat.and_comm]

/-- `b & (1 << k)` tests bit `k`. -/
theorem and_shift (n k : Nat) : (n &&& (1 <<< k) != 0) = n.testBit k := by
  rw [Nat.one_shiftLeft, Nat.and_two_pow]
  cases n.testBit k <;> simp

/-! ### Packing -/

/-- The bits in `⌈n / 8⌉` bytes: bit `i % 8` of byte `i / 8` is bit `i`, and the
bits left over in the last byte are zero. -/
def pack (bits : List Bool) : List UInt8 :=
  (List.range ((bits.length + 7) / 8)).map (fun j => byteOf (fun k => bits.getD (8 * j + k) false))

/-- The first `n` bits. -/
def unpack (n : Nat) (bytes : List UInt8) : List Bool := (List.range n).map (bitAt bytes)

@[simp] theorem length_pack (bits : List Bool) : (pack bits).length = (bits.length + 7) / 8 := by
  simp [pack]

@[simp] theorem length_unpack (n : Nat) (bytes : List UInt8) : (unpack n bytes).length = n := by
  simp [unpack]

theorem unpack_cons (n : Nat) (b : UInt8) (bytes : List UInt8) : unpack n (b :: bytes)
    = (List.range (min 8 n)).map b.toNat.testBit ++ unpack (n - 8) bytes := by
  have hrange : List.range n = List.range (min 8 n) ++ (List.range (n - 8)).map (min 8 n + ·) := by
    rw [← List.range_add, show min 8 n + (n - 8) = n by omega]
  rw [unpack, hrange, List.map_append, List.map_map]
  refine congrArg₂ _ (List.map_congr_left (fun j hj => ?_)) (List.map_congr_left (fun j hj => ?_))
  · have := List.mem_range.mp hj
    rw [bitAt_cons_of_lt _ _ (by omega)]
  · have := List.mem_range.mp hj
    rw [Function.comp_apply, show min 8 n + j = 8 + j by omega, bitAt_cons_add]

theorem bitAt_pack (bits : List Bool) (i : Nat) : bitAt (pack bits) i = bits.getD i false := by
  by_cases h : i / 8 < (bits.length + 7) / 8
  · rw [bitAt, List.getD_eq_getElem _ _ (by simpa using h)]
    simp only [pack, List.getElem_map, List.getElem_range]
    rw [testBit_byteOf _ (Nat.mod_lt _ (by omega)), Nat.div_add_mod]
  · rw [bitAt_of_ge (by rw [length_pack]; omega), List.getD_eq_default _ _ (by omega)]

/-- The reference: as few bytes as it takes, bit `i % 8` of byte `i / 8` is bit `i`, and what
is left over is zero. -/
structure IsPacking (bits : List Bool) (bytes : List UInt8) : Prop where
  length_eq : bytes.length = (bits.length + 7) / 8
  bitAt_eq : ∀ i (h : i < bits.length), bitAt bytes i = bits[i]
  padding : ∀ i, bits.length ≤ i → bitAt bytes i = false

/-- **There is one packing.** -/
theorem isPacking_iff {bits : List Bool} {bytes : List UInt8} :
    IsPacking bits bytes ↔ bytes = pack bits := by
  constructor
  · intro h
    refine eq_of_bitAt_eq (h.length_eq.trans (length_pack bits).symm) (fun i _ => ?_)
    rw [bitAt_pack]
    by_cases hi : i < bits.length
    · rw [h.bitAt_eq i hi, List.getD_eq_getElem _ _ hi]
    · rw [h.padding i (by omega), List.getD_eq_default _ _ (by omega)]
  · rintro rfl
    refine ⟨length_pack bits, fun i hi => ?_, fun i hi => ?_⟩
    · rw [bitAt_pack, List.getD_eq_getElem _ _ hi]
    · rw [bitAt_pack, List.getD_eq_default _ _ hi]

theorem pack_eq_cons {bits : List Bool} {b : UInt8} (hpos : 0 < bits.length)
    (hb : ∀ k, k < 8 → b.toNat.testBit k = bits.getD k false) :
    pack bits = b :: pack (bits.drop 8) := by
  refine eq_of_bitAt_eq ?_ (fun i _ => ?_)
  · rw [List.length_cons, length_pack, length_pack, List.length_drop]
    omega
  · rw [bitAt_pack]
    by_cases hi : i < 8
    · rw [bitAt_cons_of_lt _ _ hi, hb i hi]
    · obtain ⟨j, rfl⟩ : ∃ j, i = 8 + j := ⟨i - 8, by omega⟩
      rw [bitAt_cons_add, bitAt_pack, List.getD_eq_getElem?_getD, List.getD_eq_getElem?_getD,
        List.getElem?_drop]

/-- **Unpacking undoes packing.** -/
theorem unpack_pack (bits : List Bool) : unpack bits.length (pack bits) = bits := by
  refine List.ext_getElem (by simp) (fun i hi hb => ?_)
  simp only [unpack, List.getElem_map, List.getElem_range]
  rw [bitAt_pack, List.getD_eq_getElem _ _ hb]

/-! ### Clearing -/

/-- The bytes with all bits from bit `n` on cleared. -/
def clearFrom (n : Nat) (bytes : List UInt8) : List UInt8 :=
  (List.range bytes.length).map
    (fun j => byteOf (fun k => decide (8 * j + k < n) && bitAt bytes (8 * j + k)))

@[simp] theorem length_clearFrom (n : Nat) (bytes : List UInt8) :
    (clearFrom n bytes).length = bytes.length := by simp [clearFrom]

theorem bitAt_clearFrom (n : Nat) (bytes : List UInt8) (i : Nat) :
    bitAt (clearFrom n bytes) i = (decide (i < n) && bitAt bytes i) := by
  by_cases h : i / 8 < bytes.length
  · rw [bitAt, List.getD_eq_getElem _ _ (by simpa using h)]
    simp only [clearFrom, List.getElem_map, List.getElem_range]
    rw [testBit_byteOf _ (Nat.mod_lt _ (by omega)), Nat.div_add_mod]
  · rw [bitAt_of_ge (by rw [length_clearFrom]; omega), bitAt_of_ge (by omega), Bool.and_false]

theorem clearFrom_append (a b : List UInt8) (n : Nat) :
    clearFrom (8 * a.length + n) (a ++ b) = a ++ clearFrom n b := by
  refine eq_of_bitAt_eq (by simp) (fun i _ => ?_)
  rw [bitAt_clearFrom]
  by_cases hi : i < 8 * a.length
  · rw [bitAt_append_of_lt _ hi, bitAt_append_of_lt _ hi, decide_eq_true (by omega),
      Bool.true_and]
  · obtain ⟨j, rfl⟩ : ∃ j, i = 8 * a.length + j := ⟨i - 8 * a.length, by omega⟩
    rw [bitAt_append_add, bitAt_append_add, bitAt_clearFrom]
    simp only [Nat.add_lt_add_iff_left]

/-- **Packing undoes unpacking**, up to the bits left over in the last byte. -/
theorem pack_unpack {n : Nat} {bytes : List UInt8} (h : bytes.length = (n + 7) / 8) :
    pack (unpack n bytes) = clearFrom n bytes := by
  refine eq_of_bitAt_eq (by simp [h]) (fun i _ => ?_)
  rw [bitAt_pack, bitAt_clearFrom]
  by_cases hi : i < n
  · rw [List.getD_eq_getElem _ _ (by simpa using hi), decide_eq_true hi, Bool.true_and]
    simp only [unpack, List.getElem_map, List.getElem_range]
  · rw [List.getD_eq_default _ _ (by simpa using hi), decide_eq_false hi, Bool.false_and]

end ByteBits
