import Modbus.Library.Refinement
import Modbus.Messages

/-!
# The scratch array

`Deserialize` gathers values in `std::array<T, MaxQty> parsed_values`, which starts out
indeterminate, at indices that go up to quantities from the wire or from the caller.  Here the
array is part of the state: an index past its end, an element that nothing was assigned to and a
`Create` that fails at the end are each a way to stop.

* `refines_assignLoop`, `refines_assignCoils`, `refines_assignBits`: the loops.
* `decoders_stay_in_bounds`: none of these ways is taken, and the elements that are handed to
  `Create` are the ones that the loops assigned.
-/

namespace Modbus

open Span Refinement ByteBits

/-! ### Arrays -/

/-- The span and `parsed_values`, where `none` is an element that nothing was assigned to. -/
structure Scratch (T : Type) where
  buffer : Bytes
  parsedValues : List (Option T)

/-- How `Deserialize` stops without a message: with an error that it returns, at an index past
the end of the array, at an indeterminate element, or with an error of `Create`. -/
inductive Stop
  | fails (e : ParseError)
  | outOfBounds (index : Nat)
  | indeterminate (index : Nat)
  | createFails (e : ParseError)
deriving DecidableEq, Repr

abbrev ScratchReader (T : Type) := EStateM Stop (Scratch T)

section

variable {T α : Type}

/-- A step that leaves the array alone. -/
def reading (x : Reader α) : ScratchReader T α := fun s =>
  match x.run s.buffer with
  | .ok a rest => .ok a { s with buffer := rest }
  | .error e rest => .error (.fails e) { s with buffer := rest }

/-- `std::array<T, MaxQty> parsed_values;` -/
def declare (maxQty : Nat) : ScratchReader T Unit := fun s =>
  .ok () { s with parsedValues := List.replicate maxQty none }

/-- `parsed_values[i] = value` -/
def assign (i : Nat) (value : T) : ScratchReader T Unit := fun s =>
  if i < s.parsedValues.length then
    .ok () { s with parsedValues := s.parsedValues.set i (some value) }
  else .error (.outOfBounds i) s

/-- `parsed_values[i]` -/
def element (i : Nat) : ScratchReader T T := fun s =>
  match s.parsedValues[i]? with
  | some (some value) => .ok value s
  | some none => .error (.indeterminate i) s
  | none => .error (.outOfBounds i) s

/-- The elements of `std::span<const T>{parsed_values.data(), n}`. -/
def elements : Nat → ScratchReader T (List T)
  | 0 => pure []
  | n + 1 => do
    let values ← elements n
    let value ← element n
    return values ++ [value]

/-- `return Create(…)` -/
def returning (r : Except ParseError α) : ScratchReader T α := fun s =>
  match r with
  | .ok a => .ok a s
  | .error e => .error (.createFails e) s

abbrev RefinesReader {β : Type} (P : Scratch T → Prop) (x : ScratchReader T α) (y : Reader β)
    (Q : α → β → Scratch T → Prop) : Prop :=
  Refines Scratch.buffer Stop.fails P x y Q

/-! What is in the array. -/

/-- The array holds `parsed` from the start on, and nothing else. -/
def Holds (maxQty : Nat) (parsed : List T) (s : Scratch T) : Prop :=
  parsed.length ≤ maxQty ∧
    s.parsedValues = parsed.map some ++ List.replicate (maxQty - parsed.length) none

variable {maxQty : Nat} {parsed : List T}

/-- A step that leaves the array alone does what it does without one. -/
theorem refines_reading {P : Scratch T → Prop} (x : Reader α)
    (hP : ∀ s rest, P s → P { s with buffer := rest }) :
    RefinesReader P (reading x) x (fun a b s => a = b ∧ P s) where
  ok {s t b} hs hrun := by
    refine ⟨b, { s with buffer := t }, ?_, rfl, rfl, hP s t hs⟩
    show reading x s = _
    rw [reading, hrun]
  error {s t e} _ hrun := by
    refine ⟨{ s with buffer := t }, ?_, rfl⟩
    show reading x s = _
    rw [reading, hrun]

theorem refines_reading_bind {β γ : Type} {P : Scratch T → Prop} {x : Reader α}
    {f : α → ScratchReader T β} {g : α → Reader γ} {R : β → γ → Scratch T → Prop}
    (hP : ∀ s rest, P s → P { s with buffer := rest })
    (hf : ∀ a, RefinesReader P (f a) (g a) R) :
    RefinesReader P (reading x >>= f) (x >>= g) R :=
  (refines_reading x hP).bind_eq hf

theorem run_declare (s : Scratch T) : ∃ s', (declare maxQty).run s = .ok () s' ∧
    s'.buffer = s.buffer ∧ Holds maxQty [] s' :=
  ⟨_, rfl, rfl, Nat.zero_le _, rfl⟩

/-- **The next element is assigned.** -/
theorem run_assign {s : Scratch T} (h : Holds maxQty parsed s) (hlt : parsed.length < maxQty)
    (value : T) : ∃ s', (assign parsed.length value).run s = .ok () s' ∧ s'.buffer = s.buffer ∧
      Holds maxQty (parsed ++ [value]) s' := by
  obtain ⟨_, hcells⟩ := h
  have hin : parsed.length < s.parsedValues.length := by
    rw [hcells, List.length_append, List.length_map, List.length_replicate]
    omega
  refine ⟨_, if_pos hin, rfl, by rw [List.length_append]; exact hlt, ?_⟩
  show s.parsedValues.set parsed.length (some value) = _
  rw [hcells, List.set_append_right _ _ (by simp), List.length_map, Nat.sub_self, List.map_append,
    show maxQty - parsed.length = maxQty - (parsed ++ [value]).length + 1 by simp; omega,
    List.replicate_succ, List.set_cons_zero, List.append_assoc]
  rfl

theorem refines_assign_bind {β γ : Type} {value : T} {f : Unit → ScratchReader T β} {y : Reader γ}
    {R : β → γ → Scratch T → Prop} (hlt : parsed.length < maxQty)
    (hf : RefinesReader (Holds maxQty (parsed ++ [value])) (f ()) y R) :
    RefinesReader (Holds maxQty parsed) (assign parsed.length value >>= f) y
      R := by
  refine Refines.step (fun _ => Holds maxQty (parsed ++ [value])) (fun s hs => ?_) (fun _ => hf)
  obtain ⟨s', hrun, hrest⟩ := run_assign hs hlt value
  exact ⟨(), s', hrun, hrest⟩

theorem run_element {s : Scratch T} (h : Holds maxQty parsed s) {i : Nat}
    (hi : i < parsed.length) : (element i).run s = .ok parsed[i] s := by
  have hcell : s.parsedValues[i]? = some (some parsed[i]) := by
    rw [h.2, List.getElem?_append_left (by rwa [List.length_map]), List.getElem?_map,
      List.getElem?_eq_getElem hi, Option.map_some]
  show element i s = _
  rw [element, hcell]

/-- **Elements that were assigned can be used.** -/
theorem run_elements {s : Scratch T} (h : Holds maxQty parsed s) :
    (elements parsed.length).run s = .ok parsed s := by
  have hprefix : ∀ n ≤ parsed.length, (elements n).run s = .ok (parsed.take n) s := by
    intro n
    induction n with
    | zero => exact fun _ => rfl
    | succ n ih =>
      intro hn
      rw [elements, EStateM.run_bind, ih (Nat.le_of_succ_le hn)]
      show (element n >>= fun value => pure (parsed.take n ++ [value])).run s = _
      rw [EStateM.run_bind, run_element h hn, ← List.take_append_getElem hn]
      rfl
  have hall := hprefix parsed.length (Nat.le_refl _)
  rwa [List.take_length] at hall

/-- One element more has no value. -/
example : (elements 2).run (⟨[], [some 7, none]⟩ : Scratch UInt16)
    = .error (.indeterminate 1) ⟨[], [some 7, none]⟩ := rfl

end

/-! ### The loops -/

section

variable {T : Type}

/-- `for (i = …; i < n; ++i)` with one `ReadBe` a pass; `n` passes are left. -/
def assignLoop (T : Type) [BigEndian T] : Nat → Nat → ScratchReader T Unit
  | 0, _ => pure ()
  | n + 1, i => do
    let val ← reading (readBe T)
    assign i val
    assignLoop T n (i + 1)

/-- `for (i = …; i < quantity; ++i)`: `n` passes are left, the next one is pass `i`. -/
def assignCoils : Nat → Nat → UInt8 → ScratchReader Coil Unit
  | 0, _, _ => pure ()
  | n + 1, i, currentByte => do
    let bitIdx := i % 8
    let currentByte ← if bitIdx = 0 then reading (readBe UInt8) else pure currentByte
    let isOn := (currentByte.toNat >>> bitIdx) &&& 1 != 0
    assign i (Coil.ofBool isOn)
    assignCoils n (i + 1) currentByte

/-- `for (bit = …; bit < 8 && bits_read < expected_quantity; ++bit, ++bits_read)`, with `n` bits
of the byte left.  The value is `bits_read`. -/
def assignBitsOfByte (ofBool : Bool → T) (expectedQuantity : UInt16) (currentByte : UInt8) :
    Nat → Nat → UInt16 → ScratchReader T UInt16
  | 0, _, bitsRead => pure bitsRead
  | n + 1, bit, bitsRead =>
    if bitsRead < expectedQuantity then do
      assign bitsRead.toNat (ofBool (currentByte.toNat &&& (1 <<< bit) != 0))
      assignBitsOfByte ofBool expectedQuantity currentByte n (bit + 1) (bitsRead + 1)
    else pure bitsRead

/-- `for (i = 0; i < byte_count; ++i)`, with `n` passes left. -/
def assignBits (ofBool : Bool → T) (expectedQuantity : UInt16) :
    Nat → UInt16 → ScratchReader T Unit
  | 0, _ => pure ()
  | n + 1, bitsRead => do
    let currentByte ← reading (readBe UInt8)
    let bitsRead ← assignBitsOfByte ofBool expectedQuantity currentByte 8 0 bitsRead
    assignBits ofBool expectedQuantity n bitsRead

variable {maxQty : Nat}

theorem refines_assignLoop [BigEndian T] {n : Nat} {parsed : List T}
    (hn : parsed.length + n ≤ maxQty) :
    RefinesReader (Holds maxQty parsed) (assignLoop T n parsed.length)
      (readLoop T n parsed) (fun _ vs s => Holds maxQty vs s) := by
  induction n generalizing parsed with
  | zero => exact Refines.pure (fun _ hs => hs)
  | succ n ih =>
    refine refines_reading_bind (fun _ _ hs => hs) (fun val => ?_)
    refine refines_assign_bind (by omega) ?_
    have hlen : (parsed ++ [val]).length = parsed.length + 1 := by simp
    rw [← hlen]
    exact ih (by omega)

theorem assignCoils_succ_of_eq {n i : Nat} (hi : i % 8 = 0) (currentByte : UInt8) :
    assignCoils (n + 1) i currentByte = reading (readBe UInt8) >>= fun c =>
      assign i (Coil.ofBool (c.toNat.testBit 0)) >>= fun _ => assignCoils n (i + 1) c := by
  rw [assignCoils]
  simp only [hi, if_true, shift_and_one]

theorem assignCoils_succ_of_ne {n i : Nat} (hi : i % 8 ≠ 0) (currentByte : UInt8) :
    assignCoils (n + 1) i currentByte = assign i (Coil.ofBool (currentByte.toNat.testBit (i % 8)))
      >>= fun _ => assignCoils n (i + 1) currentByte := by
  rw [assignCoils]
  simp only [hi, if_false, shift_and_one, pure_bind]

theorem refines_assignCoils {n : Nat} {currentByte : UInt8} {parsed : List Coil}
    (hn : parsed.length + n ≤ maxQty) :
    RefinesReader (Holds maxQty parsed)
      (assignCoils n parsed.length currentByte) (readCoils n parsed.length currentByte parsed)
      (fun _ vs s => Holds maxQty vs s) := by
  induction n generalizing parsed currentByte with
  | zero => exact Refines.pure (fun _ hs => hs)
  | succ n ih =>
    have hlen : ∀ val : Coil, (parsed ++ [val]).length = parsed.length + 1 := by simp
    by_cases hi : parsed.length % 8 = 0
    · rw [assignCoils_succ_of_eq hi, readCoils_succ_of_eq hi]
      refine refines_reading_bind (fun _ _ hs => hs) (fun c => ?_)
      refine refines_assign_bind (by omega) ?_
      rw [← hlen (Coil.ofBool (c.toNat.testBit 0))]
      exact ih (by rw [hlen]; omega)
    · rw [assignCoils_succ_of_ne hi, readCoils_succ_of_ne hi]
      refine refines_assign_bind (by omega) ?_
      rw [← hlen (Coil.ofBool (currentByte.toNat.testBit (parsed.length % 8)))]
      exact ih (by rw [hlen]; omega)

/-- The loop over the bits of a byte: it stops where there are as many as expected, and
`bits_read` counts them. -/
theorem run_assignBitsOfByte (ofBool : Bool → T) {expectedQuantity : UInt16}
    (hmax : expectedQuantity.toNat ≤ maxQty) (currentByte : UInt8) (n bit : Nat)
    {bitsRead : UInt16} {parsed : List T} {s : Scratch T} (hs : Holds maxQty parsed s)
    (hread : bitsRead.toNat = parsed.length) : ∃ bitsRead' s',
      (assignBitsOfByte ofBool expectedQuantity currentByte n bit bitsRead).run s
        = .ok bitsRead' s' ∧
      s'.buffer = s.buffer ∧
      bitsRead'.toNat = parsed.length + min n (expectedQuantity.toNat - parsed.length) ∧
      Holds maxQty (parsed ++ (List.range (min n (expectedQuantity.toNat - parsed.length))).map
        (fun j => ofBool (currentByte.toNat.testBit (bit + j)))) s' := by
  induction n generalizing bit bitsRead parsed s with
  | zero => exact ⟨bitsRead, s, rfl, rfl, by simpa using hread, by simpa using hs⟩
  | succ n ih =>
    rw [assignBitsOfByte]
    by_cases h : bitsRead < expectedQuantity
    · have hlt : parsed.length < expectedQuantity.toNat := by
        rwa [UInt16.lt_iff_toNat_lt, hread] at h
      have hsucc : (bitsRead + 1).toNat = parsed.length + 1 := by
        have := expectedQuantity.toNat_lt
        rw [UInt16.toNat_add, hread, UInt16.toNat_one]
        exact Nat.mod_eq_of_lt (by omega)
      obtain ⟨s₁, hrun₁, hbuffer₁, hs₁⟩ :=
        run_assign hs (by omega) (ofBool (currentByte.toNat.testBit bit))
      have hlen : (parsed ++ [ofBool (currentByte.toNat.testBit bit)]).length
          = parsed.length + 1 := by simp
      obtain ⟨bitsRead', s', hrun, hbuffer, hread', hs'⟩ :=
        ih (bit + 1) hs₁ (hsucc.trans hlen.symm)
      rw [hlen] at hread' hs'
      have hmin : min (n + 1) (expectedQuantity.toNat - parsed.length)
          = min n (expectedQuantity.toNat - (parsed.length + 1)) + 1 := by omega
      refine ⟨bitsRead', s', ?_, hbuffer.trans hbuffer₁, by omega, ?_⟩
      · rw [if_pos h, hread, and_shift, EStateM.run_bind, hrun₁]
        exact hrun
      · rw [hmin, List.range_succ_eq_map, List.map_cons, List.map_map, Nat.add_zero,
          List.append_cons]
        simp only [Function.comp_def, Nat.succ_eq_add_one]
        simpa only [Nat.add_assoc, Nat.add_comm 1] using hs'
    · have hzero : min (n + 1) (expectedQuantity.toNat - parsed.length) = 0 := by
        rw [UInt16.lt_iff_toNat_lt, hread] at h
        omega
      rw [if_neg h, hzero]
      exact ⟨bitsRead, s, rfl, rfl, hread, by simpa using hs⟩

/-- **The loops over bits** go on where `parsed` ends. -/
theorem refines_assignBits (ofBool : Bool → T) {expectedQuantity : UInt16}
    (hmax : expectedQuantity.toNat ≤ maxQty) {n : Nat} {bitsRead : UInt16} {parsed : List T}
    (hread : bitsRead.toNat = parsed.length) :
    RefinesReader (Holds maxQty parsed)
      (assignBits ofBool expectedQuantity n bitsRead)
      (readBits ofBool expectedQuantity.toNat n parsed) (fun _ vs s => Holds maxQty vs s) := by
  induction n generalizing bitsRead parsed with
  | zero => exact Refines.pure (fun _ hs => hs)
  | succ n ih =>
    refine refines_reading_bind (fun _ _ hs => hs) (fun currentByte => ?_)
    refine Refines.step (fun bitsRead s =>
      bitsRead.toNat = (readBitsOfByte ofBool expectedQuantity.toNat currentByte parsed).length ∧
        Holds maxQty (readBitsOfByte ofBool expectedQuantity.toNat currentByte parsed) s)
      (fun s hs => ?_) (fun bitsRead => Refines.of_imp ih)
    obtain ⟨bitsRead', s', hrun, hbuffer, hread', hs'⟩ :=
      run_assignBitsOfByte ofBool hmax currentByte 8 0 hs hread
    rw [readBitsOfByte_eq]
    refine ⟨bitsRead', s', hrun, hbuffer, by simpa using hread', ?_⟩
    simpa only [Nat.zero_add] using hs'

end

/-! ### Requests -/

def assignValues : (kind : WriteKind) → Nat → ScratchReader kind.T Unit
  | .coil, quantity => assignCoils quantity 0 0
  | .register, quantity => assignLoop UInt16 quantity 0

theorem refines_assignValues (kind : WriteKind) {n maxQty : Nat} (hn : n ≤ maxQty) :
    RefinesReader (Holds maxQty []) (assignValues kind n) (readValues kind n)
      (fun _ vs s => Holds maxQty vs s) := by
  have hn : ([] : List kind.T).length + n ≤ maxQty := by rwa [List.length_nil, Nat.zero_add]
  cases kind with
  | coil => exact refines_assignCoils hn
  | register => exact refines_assignLoop hn

theorem refines_returning {T M : Type} {maxQty n : Nat} {values : List T}
    {create : List T → Except ParseError M} {getValues : M → List T} {m : M}
    (hn : values.length = n) (hm : create values = .ok m) (hvalues : values = getValues m) :
    RefinesReader (Holds maxQty values)
      (elements n >>= fun parsedValues => returning (create parsedValues)) (lift (create values))
      (fun a b s => a = b ∧ Holds maxQty (getValues b) s) := by
  refine Refines.step (fun parsedValues s => parsedValues = values ∧ Holds maxQty values s)
    (fun s hs => ⟨values, s, hn ▸ run_elements hs, rfl, rfl, hs⟩)
    (fun parsedValues => Refines.of_imp (fun h => ?_))
  rw [h, hm]
  exact Refines.pure (fun s hs => ⟨rfl, hvalues ▸ hs⟩)

namespace Request.WriteMultiple

variable (kind : WriteKind) (code : FunctionCode) (maxQty : UInt16)

/-- `Deserialize`, with its array. -/
def deserializeScratch : ScratchReader kind.T (WriteMultiple kind code maxQty) := do
  let functionCode ← reading (readBe UInt8)
  failIf (FunctionCode.mk functionCode ≠ code) (.fails .kInvalidFunctionCode)
  let address ← reading (readBe UInt16)
  let quantity ← reading (readBe UInt16)
  failIf (quantity < kMinQuantity ∨ quantity > maxQty) (.fails .kInvalidQuantity)
  failIf (wouldAddressOverflow address quantity) (.fails .kAddressOverflow)
  let byteCount ← reading (readBe UInt8)
  failIf (byteCount ≠ calcByteCount kind quantity.toNat) (.fails .kInvalidQuantity)
  declare maxQty.toNat
  assignValues kind quantity.toNat
  let parsedValues ← elements quantity.toNat
  returning (create kind code maxQty address parsedValues)

theorem refines_deserializeScratch :
    RefinesReader (fun _ => True) (deserializeScratch kind code maxQty)
      (deserialize kind code maxQty) (fun m m' s => m = m' ∧ Holds maxQty.toNat m'.values s) := by
  refine refines_reading_bind (fun _ _ hs => hs) (fun functionCode => ?_)
  refine Refines.failIf_bind (fun _ => ?_)
  refine refines_reading_bind (fun _ _ hs => hs) (fun address => ?_)
  refine refines_reading_bind (fun _ _ hs => hs) (fun quantity => ?_)
  refine Refines.failIf_bind (fun hq => ?_)
  refine Refines.failIf_bind (fun ha => ?_)
  refine refines_reading_bind (fun _ _ hs => hs) (fun byteCount => ?_)
  refine Refines.failIf_bind (fun _ => ?_)
  refine Refines.step (fun _ => Holds maxQty.toNat []) (fun s _ => ⟨(), run_declare s⟩)
    (fun _ => ?_)
  rw [quantity_iff] at hq
  rw [Bool.not_eq_true, wouldAddressOverflow_eq_false] at ha
  refine (refines_assignValues kind (by omega)).bind_run (fun _ values hrun => ?_)
  -- the checks of `Create` have been made: as many values as the quantity says were decoded
  obtain ⟨t, t', hrun⟩ := hrun
  obtain ⟨payload, _, hvalues⟩ := readValues_eq_ok.mp hrun
  have hlen := hvalues.length_eq
  have hone : kMinQuantity.toNat = 1 := rfl
  obtain ⟨m, hm⟩ := (@create_isOk kind code maxQty address values).mpr
    ⟨by omega, by omega, by omega, hvalues.accepts⟩
  exact refines_returning hlen hm (create_eq_ok.mp hm).2

end Request.WriteMultiple

/-! ### Responses -/

section

variable {T : Type}

/-- The value is `actual_quantity`, here and below. -/
def assignBitsPayload (ofBool : Bool → T) (maxQty expectedQuantity : UInt16) (byteCount : UInt8) :
    ScratchReader T UInt16 := do
  failIf (expectedQuantity < kMinQuantity ∨ expectedQuantity > maxQty) (.fails .kInvalidQuantity)
  failIf (byteCount.toNat ≠ bitsToBytes expectedQuantity.toNat) (.fails .kInvalidValue)
  assignBits ofBool expectedQuantity byteCount.toNat 0
  return expectedQuantity

def assignRegistersPayload (maxQty : UInt16) (byteCount : UInt8) : ScratchReader UInt16 UInt16 := do
  failIf (byteCount.toNat % 2 ≠ 0) (.fails .kInvalidValue)
  let registerCount := UInt16.ofNat (byteCount.toNat / 2)
  failIf (registerCount < kMinQuantity ∨ registerCount > maxQty) (.fails .kInvalidQuantity)
  assignLoop UInt16 registerCount.toNat 0
  return registerCount

def assignPayload : (kind : ReadKind) → UInt16 → UInt16 → UInt8 → ScratchReader kind.T UInt16
  | .coil, maxQty, expectedQuantity, byteCount =>
    assignBitsPayload Coil.ofBool maxQty expectedQuantity byteCount
  | .discreteInput, maxQty, expectedQuantity, byteCount =>
    assignBitsPayload DiscreteInput.ofBool maxQty expectedQuantity byteCount
  | .register, maxQty, _, byteCount => assignRegistersPayload maxQty byteCount

/-- **The loops over bits fill as many elements as are expected.** -/
theorem refines_assignBitsPayload (ofBool : Bool → T) (maxQty expectedQuantity : UInt16)
    (byteCount : UInt8) :
    RefinesReader (Holds maxQty.toNat [])
      (assignBitsPayload ofBool maxQty expectedQuantity byteCount)
      (readBitsPayload ofBool maxQty expectedQuantity byteCount)
      (fun actualQuantity vs s => vs.length = actualQuantity.toNat ∧ Holds maxQty.toNat vs s) := by
  refine Refines.failIf_bind (fun hq => Refines.failIf_bind (fun hbytes => ?_))
  rw [quantity_iff] at hq
  have hmax : expectedQuantity.toNat ≤ maxQty.toNat := by omega
  have hread : (0 : UInt16).toNat = ([] : List T).length := rfl
  rw [← bind_pure (readBits ofBool expectedQuantity.toNat byteCount.toNat [])]
  refine (refines_assignBits ofBool hmax hread).bind_run (fun _ values hrun => ?_)
  obtain ⟨t, t', hrun⟩ := hrun
  obtain ⟨payload, _, _, hvalues⟩ := readBits_eq_ok.mp hrun
  refine Refines.pure (fun s hs => ⟨?_, hs⟩)
  rw [hvalues, not_not.mp hbytes, bitsToBytes]
  simp only [List.nil_append, List.length_map, length_unpack, List.length_nil]
  omega

theorem refines_assignRegistersPayload (maxQty : UInt16) (byteCount : UInt8) :
    RefinesReader (Holds maxQty.toNat [])
      (assignRegistersPayload maxQty byteCount) (readRegistersPayload maxQty byteCount)
      (fun actualQuantity vs s => vs.length = actualQuantity.toNat ∧ Holds maxQty.toNat vs s) := by
  refine Refines.failIf_bind (fun _ => Refines.failIf_bind (fun hq => ?_))
  rw [quantity_iff] at hq
  rw [← bind_pure (readLoop UInt16 (UInt16.ofNat (byteCount.toNat / 2)).toNat [])]
  have hn : ([] : List UInt16).length + (UInt16.ofNat (byteCount.toNat / 2)).toNat
      ≤ maxQty.toNat := by
    rw [List.length_nil]
    omega
  refine (refines_assignLoop hn).bind_run (fun _ values hrun => ?_)
  obtain ⟨t, t', hrun⟩ := hrun
  obtain ⟨_, rfl, hlen, _⟩ := readLoop_eq_ok.mp hrun
  exact Refines.pure (fun s hs => ⟨hlen, hs⟩)

theorem refines_assignPayload (kind : ReadKind) (maxQty expectedQuantity : UInt16)
    (byteCount : UInt8) :
    RefinesReader (Holds maxQty.toNat [])
      (assignPayload kind maxQty expectedQuantity byteCount)
      (readPayload kind maxQty expectedQuantity byteCount)
      (fun actualQuantity vs s => vs.length = actualQuantity.toNat ∧ Holds maxQty.toNat vs s) := by
  cases kind with
  | coil => exact refines_assignBitsPayload Coil.ofBool maxQty expectedQuantity byteCount
  | discreteInput =>
    exact refines_assignBitsPayload DiscreteInput.ofBool maxQty expectedQuantity byteCount
  | register => exact refines_assignRegistersPayload maxQty byteCount

end

namespace Response.ReadMultiple

variable (kind : ReadKind) (code : FunctionCode) (maxQty expectedQuantity : UInt16)

/-- `Deserialize`, with its array. -/
def deserializeScratch : ScratchReader kind.T (ReadMultiple kind code maxQty) := do
  let functionCode ← reading (readBe UInt8)
  failIf (FunctionCode.mk functionCode ≠ code) (.fails .kInvalidFunctionCode)
  let byteCount ← reading (readBe UInt8)
  declare maxQty.toNat
  let actualQuantity ← assignPayload kind maxQty expectedQuantity byteCount
  let parsedValues ← elements actualQuantity.toNat
  returning (create kind code maxQty parsedValues)

theorem refines_deserializeScratch :
    RefinesReader (fun _ => True)
      (deserializeScratch kind code maxQty expectedQuantity)
      (deserialize kind code maxQty expectedQuantity)
      (fun m m' s => m = m' ∧ Holds maxQty.toNat m'.values s) := by
  refine refines_reading_bind (fun _ _ hs => hs) (fun functionCode => ?_)
  refine Refines.failIf_bind (fun _ => ?_)
  refine refines_reading_bind (fun _ _ hs => hs) (fun byteCount => ?_)
  refine Refines.step (fun _ => Holds maxQty.toNat []) (fun s _ => ⟨(), run_declare s⟩)
    (fun _ => ?_)
  refine (refines_assignPayload kind maxQty expectedQuantity byteCount).bind_run
    (fun actualQuantity values hrun => Refines.of_imp (fun hlen => ?_))
  obtain ⟨t, t', hrun⟩ := hrun
  obtain ⟨_, _, _, hquantity, _⟩ := readPayload_eq_ok.mp hrun
  have hm : create kind code maxQty values = .ok ⟨values, hquantity⟩ := create_eq_ok.mpr rfl
  exact refines_returning hlen hm rfl

end Response.ReadMultiple

/-! ### All of them -/

/-- Whatever is in the buffer and in the array before, the run with an array ends as the one
without: if it fails, with an error that it returns; and if it succeeds, the message has the
values that were decoded from a part of the buffer, and these are what was assigned. -/
structure StaysInBounds {T M : Type} (deserializeScratch : ScratchReader T M)
    (deserialize : Reader M) (maxQty : Nat) (getValues : M → List T)
    (Decodes : Nat → Bytes → List T → Prop) : Prop where
  error : ∀ s s' stop, deserializeScratch.run s = .error stop s' →
    ∃ e, stop = .fails e ∧ deserialize.run s.buffer = .error e s'.buffer
  ok : ∀ s s' m, deserializeScratch.run s = .ok m s' →
    deserialize.run s.buffer = .ok m s'.buffer ∧ (getValues m).length ≤ maxQty ∧
      s'.parsedValues = (getValues m).map some
        ++ List.replicate (maxQty - (getValues m).length) none ∧
      ∃ header payload, s.buffer = header ++ (payload ++ s'.buffer) ∧
        Decodes (getValues m).length payload (getValues m)

theorem staysInBounds_of {T M : Type} {deserializeScratch : ScratchReader T M}
    {deserialize : Reader M} {maxQty : Nat} {getValues : M → List T}
    {Decodes : Nat → Bytes → List T → Prop}
    (h : RefinesReader (fun _ => True) deserializeScratch deserialize
      (fun m m' s => m = m' ∧ Holds maxQty (getValues m') s))
    (hdecodes : ∀ b m rest, deserialize.run b = .ok m rest → ∃ header payload,
      b = header ++ (payload ++ rest) ∧ Decodes (getValues m).length payload (getValues m)) :
    StaysInBounds deserializeScratch deserialize maxQty getValues Decodes where
  error s s' stop hrun := h.error_of_run trivial hrun
  ok s s' m hrun := by
    obtain ⟨m', hdeserialize, rfl, hle, hcells⟩ := h.ok_of_run trivial hrun
    exact ⟨hdeserialize, hle, hcells, hdecodes _ _ _ hdeserialize⟩

theorem Request.WriteMultiple.staysInBounds (kind : WriteKind) (code : FunctionCode)
    (maxQty : UInt16) : StaysInBounds (deserializeScratch kind code maxQty)
      (deserialize kind code maxQty) maxQty.toNat values kind.Decodes := by
  refine staysInBounds_of (refines_deserializeScratch kind code maxQty) (fun b m rest hrun => ?_)
  obtain ⟨payload, hb, hvalues⟩ := deserialize_eq_ok.mp hrun
  exact ⟨m.header, payload, hb, hvalues⟩

theorem Response.ReadMultiple.staysInBounds (kind : ReadKind) (code : FunctionCode)
    (maxQty expectedQuantity : UInt16) :
    StaysInBounds (deserializeScratch kind code maxQty expectedQuantity)
      (deserialize kind code maxQty expectedQuantity) maxQty.toNat values kind.Decodes := by
  refine staysInBounds_of (refines_deserializeScratch kind code maxQty expectedQuantity)
    (fun b m rest hrun => ?_)
  obtain ⟨byteCount, payload, hb, _, _, hvalues⟩ := deserialize_eq_ok.mp hrun
  refine ⟨toBytes code.raw ++ toBytes byteCount, payload, ?_, hvalues⟩
  rw [hb, List.append_assoc]

/-- **The decoders stay in bounds** and use what they assigned. -/
theorem decoders_stay_in_bounds :
    (StaysInBounds (Request.WriteMultiple.deserializeScratch .coil .kWriteMultipleCoils 1968)
        (Request.WriteMultiple.deserialize .coil .kWriteMultipleCoils 1968) 1968
        Request.WriteMultiple.values WriteKind.coil.Decodes ∧
      StaysInBounds (Request.WriteMultiple.deserializeScratch .register
          .kWriteMultipleHoldingRegisters 123)
        (Request.WriteMultiple.deserialize .register .kWriteMultipleHoldingRegisters 123) 123
        Request.WriteMultiple.values WriteKind.register.Decodes) ∧
    ∀ expectedQuantity : UInt16,
      StaysInBounds (Response.ReadMultiple.deserializeScratch .coil .kReadCoils 2000
          expectedQuantity)
        (Response.ReadMultiple.deserialize .coil .kReadCoils 2000 expectedQuantity) 2000
        Response.ReadMultiple.values ReadKind.coil.Decodes ∧
      StaysInBounds (Response.ReadMultiple.deserializeScratch .discreteInput .kReadDiscreteInputs
          2000 expectedQuantity)
        (Response.ReadMultiple.deserialize .discreteInput .kReadDiscreteInputs 2000
          expectedQuantity) 2000
        Response.ReadMultiple.values ReadKind.discreteInput.Decodes ∧
      StaysInBounds (Response.ReadMultiple.deserializeScratch .register .kReadHoldingRegisters 125
          expectedQuantity)
        (Response.ReadMultiple.deserialize .register .kReadHoldingRegisters 125
          expectedQuantity) 125
        Response.ReadMultiple.values ReadKind.register.Decodes ∧
      StaysInBounds (Response.ReadMultiple.deserializeScratch .register .kReadInputRegisters 125
          expectedQuantity)
        (Response.ReadMultiple.deserialize .register .kReadInputRegisters 125
          expectedQuantity) 125
        Response.ReadMultiple.values ReadKind.register.Decodes := by
  refine ⟨⟨?_, ?_⟩, fun expectedQuantity => ⟨?_, ?_, ?_, ?_⟩⟩
  · exact Request.WriteMultiple.staysInBounds _ _ _
  · exact Request.WriteMultiple.staysInBounds _ _ _
  · exact Response.ReadMultiple.staysInBounds _ _ _ _
  · exact Response.ReadMultiple.staysInBounds _ _ _ _
  · exact Response.ReadMultiple.staysInBounds _ _ _ _
  · exact Response.ReadMultiple.staysInBounds _ _ _ _

end Modbus
