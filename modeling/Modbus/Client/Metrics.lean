import Modbus.Client.Requests
import Modbus.Library.Counting

/-!
# `ClientMetrics`

The counters that clients share.  A call is a thread that makes its increments, and what
its transport does is part of the thread; the calls of any number of clients mix in any
way.

* `IssuedCall.covers_increments`: along one call, what counts its end stays behind what
  counts its start.
* `bookkeeping_of_run`: so do the counters, and when no call is in progress they add up.
-/

namespace Modbus

open Counting

structure MessageMetrics where
  total : Nat
  success : Nat
  errors : Nat

/-- `by_message_type` has a place for each type.  The counters are numbers without a bound, and so
they never wrap around. -/
structure ClientMetrics where
  bytesSent : Nat
  bytesReceived : Nat
  requestsTotal : Nat
  requestsSuccess : Nat
  requestsErrors : Nat
  byMessageType : MessageType → MessageMetrics

/-- The types below `kMaxMessageType`. -/
def MessageType.all : List MessageType :=
  [.kReadCoils, .kReadDiscreteInputs, .kReadHoldingRegisters, .kReadInputRegisters,
    .kWriteSingleCoil, .kWriteSingleRegister, .kWriteMultipleCoils, .kWriteMultipleRegisters]

namespace ClientMetrics

def zero : ClientMetrics := ⟨0, 0, 0, 0, 0, fun _ => ⟨0, 0, 0⟩⟩

def onType (m : ClientMetrics) (type : MessageType) (f : MessageMetrics → MessageMetrics) :
    ClientMetrics :=
  { m with byMessageType := fun other =>
      if other = type then f (m.byMessageType other) else m.byMessageType other }

/-- `++counter`, or `counter.Add({n})`.  Counters do not wrap. -/
def increment (m : ClientMetrics) : Increment → ClientMetrics
  | .bytesSent n => { m with bytesSent := m.bytesSent + n }
  | .bytesReceived n => { m with bytesReceived := m.bytesReceived + n }
  | .requestsTotal => { m with requestsTotal := m.requestsTotal + 1 }
  | .requestsSuccess => { m with requestsSuccess := m.requestsSuccess + 1 }
  | .requestsErrors => { m with requestsErrors := m.requestsErrors + 1 }
  | .total type => m.onType type fun c => { c with total := c.total + 1 }
  | .success type => m.onType type fun c => { c with success := c.success + 1 }
  | .errors type => m.onType type fun c => { c with errors := c.errors + 1 }

/-! ### What an increment weighs -/

def unit (i : Increment) : Increment → Nat := fun j => if j = i then 1 else 0

def sentBytes : Increment → Nat
  | .bytesSent n => n
  | _ => 0

def receivedBytes : Increment → Nat
  | .bytesReceived n => n
  | _ => 0

/-- The weight of an increment for the sum over all types. -/
def anyOf (increment : MessageType → Increment) (i : Increment) : Nat :=
  (MessageType.all.map fun type => unit (increment type) i).sum

theorem anyOf_self {increment : MessageType → Increment} (h : Function.Injective increment)
    (type : MessageType) : anyOf increment (increment type) = 1 := by
  simp only [anyOf, unit, h.eq_iff]
  cases type <;> rfl

theorem anyOf_of_ne {increment : MessageType → Increment} {i : Increment}
    (h : ∀ type, i ≠ increment type) : anyOf increment i = 0 := by
  simp [anyOf, unit, h]

@[simp] theorem anyOf_total (type : MessageType) : anyOf .total (.total type) = 1 :=
  anyOf_self (fun _ _ => Increment.total.inj) type

@[simp] theorem anyOf_success (type : MessageType) : anyOf .success (.success type) = 1 :=
  anyOf_self (fun _ _ => Increment.success.inj) type

@[simp] theorem anyOf_errors (type : MessageType) : anyOf .errors (.errors type) = 1 :=
  anyOf_self (fun _ _ => Increment.errors.inj) type

theorem weighs_bytesSent : Weighs increment bytesSent sentBytes := by
  intro m i
  cases i <;> rfl

theorem weighs_bytesReceived : Weighs increment bytesReceived receivedBytes := by
  intro m i
  cases i <;> rfl

theorem weighs_requestsTotal : Weighs increment requestsTotal (unit .requestsTotal) := by
  intro m i
  cases i <;> rfl

theorem weighs_requestsSuccess : Weighs increment requestsSuccess (unit .requestsSuccess) := by
  intro m i
  cases i <;> rfl

theorem weighs_requestsErrors : Weighs increment requestsErrors (unit .requestsErrors) := by
  intro m i
  cases i <;> rfl

theorem weighs_total (type : MessageType) :
    Weighs increment (fun m => (m.byMessageType type).total) (unit (.total type)) := by
  intro m i
  cases i with
  | total other | success other | errors other =>
    by_cases h : type = other
    · simp [increment, onType, unit, h]
    · simp [increment, onType, unit, h, Ne.symm h]
  | _ => rfl

theorem weighs_success (type : MessageType) :
    Weighs increment (fun m => (m.byMessageType type).success) (unit (.success type)) := by
  intro m i
  cases i with
  | total other | success other | errors other =>
    by_cases h : type = other
    · simp [increment, onType, unit, h]
    · simp [increment, onType, unit, h, Ne.symm h]
  | _ => rfl

theorem weighs_errors (type : MessageType) :
    Weighs increment (fun m => (m.byMessageType type).errors) (unit (.errors type)) := by
  intro m i
  cases i with
  | total other | success other | errors other =>
    by_cases h : type = other
    · simp [increment, onType, unit, h]
    · simp [increment, onType, unit, h, Ne.symm h]
  | _ => rfl

end ClientMetrics

open ClientMetrics

/-! ### Calls as threads -/

/-- A call, and what `SendRawRequest` makes of its request. -/
structure IssuedCall where
  call : Call
  transport : Transport Unit

namespace IssuedCall

def type (c : IssuedCall) : MessageType := c.call.messageType

def result (c : IssuedCall) : Except Exit Unit := c.call.result c.transport ()

def log (c : IssuedCall) : Transport.Log := c.call.log c.transport ()

def increments (c : IssuedCall) : List Increment := c.call.increments c.transport ()

def Ignores (w : Increment → Nat) : Prop := ∀ n, w (.bytesSent n) = 0 ∧ w (.bytesReceived n) = 0

theorem anyOf_ignores {increment : MessageType → Increment}
    (h : ∀ type n, .bytesSent n ≠ increment type ∧ .bytesReceived n ≠ increment type) :
    Ignores (anyOf increment) :=
  fun n => ⟨anyOf_of_ne (fun type => (h type n).1), anyOf_of_ne (fun type => (h type n).2)⟩

theorem Ignores.exchanges {w : Increment → Nat} (hw : Ignores w) (log : Transport.Log) :
    ∀ i ∈ log.flatMap (fun e => exchanged e.1 e.2), w i = 0 := by
  intro i hi
  obtain ⟨⟨req, outcome⟩, _, hi⟩ := List.mem_flatMap.mp hi
  unfold exchanged at hi
  split at hi
  · rcases List.mem_cons.mp hi with rfl | hi
    · exact (hw _).1
    · obtain rfl := List.mem_singleton.mp hi
      exact (hw _).2
  · obtain rfl := List.mem_singleton.mp hi
    exact (hw _).1

variable {w w' : Increment → Nat}

/-- **Along a call** it is enough to look at its start and its end. -/
theorem covers_increments (hw : Ignores w)
    (h : ∀ type result, Covers w w' 0 (opening type ++ closing type result)) (c : IssuedCall) :
    Covers w w' 0 c.increments := by
  rw [increments, Call.increments_eq]
  exact (h _ _).insert (hw.exchanges _)

theorem weight_increments (hw : Ignores w) (c : IssuedCall) :
    weight w c.increments = weight w (opening c.type ++ closing c.type c.result) := by
  rw [increments, Call.increments_eq, weight_append, weight_append, weight_append,
    weight_eq_zero (hw.exchanges _), Nat.add_zero]
  rfl

/-- The bytes of a call are the ones in its log. -/
theorem weight_sent (c : IssuedCall) :
    weight sentBytes c.increments = (c.log.map fun e => e.1.length).sum := by
  have hexchanged : ∀ e : Bytes × Outcome, weight sentBytes (exchanged e.1 e.2) = e.1.length := by
    intro e
    unfold exchanged
    split <;> rfl
  have hclosing : ∀ type result, weight sentBytes (closing type result) = 0 := by
    intro type result
    cases result <;> rfl
  rw [increments, Call.increments_eq, weight_append, weight_append, weight_flatMap, hclosing]
  simp only [hexchanged]
  exact Nat.zero_add _

/-- The length that `SendRawRequest` returned with success. -/
def returnedLength : Outcome → Nat
  | .returned (.ok n) => n
  | _ => 0

theorem weight_received (c : IssuedCall) :
    weight receivedBytes c.increments = (c.log.map fun e => returnedLength e.2).sum := by
  have hexchanged : ∀ e : Bytes × Outcome,
      weight receivedBytes (exchanged e.1 e.2) = returnedLength e.2 := by
    intro ⟨req, outcome⟩
    cases outcome with
    | threw => rfl
    | returned r =>
      cases r with
      | ok n => exact Nat.zero_add n
      | error e => rfl
  have hclosing : ∀ type result, weight receivedBytes (closing type result) = 0 := by
    intro type result
    cases result <;> rfl
  rw [increments, Call.increments_eq, weight_append, weight_append, weight_flatMap, hclosing]
  simp only [hexchanged]
  exact Nat.zero_add _

end IssuedCall

/-! ### Bookkeeping -/

namespace ClientMetrics

def sumOver (m : ClientMetrics) (count : MessageMetrics → Nat) : Nat :=
  (MessageType.all.map fun type => count (m.byMessageType type)).sum

theorem sumOver_zero {count : MessageMetrics → Nat} (h : count ⟨0, 0, 0⟩ = 0) :
    zero.sumOver count = 0 := by
  simp [sumOver, zero, h]

/-- No more calls have ended than started, and no counter by type is ahead of the one for
all types. -/
structure Bounded (m : ClientMetrics) : Prop where
  requests : m.requestsSuccess + m.requestsErrors ≤ m.requestsTotal
  byType : ∀ type, (m.byMessageType type).success + (m.byMessageType type).errors
    ≤ (m.byMessageType type).total
  total : m.sumOver MessageMetrics.total ≤ m.requestsTotal
  success : m.sumOver MessageMetrics.success ≤ m.requestsSuccess
  errors : m.sumOver MessageMetrics.errors ≤ m.requestsErrors

/-- The counters add up. -/
structure Balanced (m : ClientMetrics) : Prop where
  requests : m.requestsSuccess + m.requestsErrors = m.requestsTotal
  byType : ∀ type, (m.byMessageType type).success + (m.byMessageType type).errors
    = (m.byMessageType type).total
  total : m.sumOver MessageMetrics.total = m.requestsTotal
  success : m.sumOver MessageMetrics.success = m.requestsSuccess
  errors : m.sumOver MessageMetrics.errors = m.requestsErrors

/-- The counters say how the calls ended and how many bytes they have exchanged. -/
structure Accounts (m : ClientMetrics) (calls : List IssuedCall) : Prop where
  success : ∀ type, (m.byMessageType type).success
    = calls.countP fun c => decide (c.type = type ∧ c.result = .ok ())
  errors : ∀ type, (m.byMessageType type).errors
    = calls.countP fun c => decide (c.type = type ∧ c.result ≠ .ok ())
  bytesSent : m.bytesSent
    = (calls.map fun c => (c.log.map fun e => e.1.length).sum).sum
  bytesReceived : m.bytesReceived
    = (calls.map fun c => (c.log.map fun e => IssuedCall.returnedLength e.2).sum).sum

/-! ### In every state of a run -/

variable {s : State ClientMetrics IssuedCall}

/-- The calls of any clients, in any order. -/
abbrev Reached (s : State ClientMetrics IssuedCall) : Prop :=
  Machine.Run (step increment IssuedCall.increments) (fun _ _ => True) ⟨zero, []⟩ s

theorem le_of_run (hrun : Reached s) {count count' : ClientMetrics → Nat} {w w' : Increment → Nat}
    (h : Weighs increment count w) (h' : Weighs increment count' w') (hzero : count zero = 0)
    (hw : IssuedCall.Ignores w)
    (hcovers : ∀ type result, Covers w w' 0 (opening type ++ closing type result)) :
    count s.counters ≤ count' s.counters := by
  rw [tally_of_run h hrun, tally_of_run h' hrun, hzero]
  exact Nat.add_le_add (Nat.zero_le _)
    (tally_le (IssuedCall.covers_increments hw hcovers) s.threads)

theorem weighs_sum_total :
    Weighs increment (sumOver · MessageMetrics.total) (anyOf .total) :=
  Weighs.sum weighs_total _

theorem weighs_sum_success :
    Weighs increment (sumOver · MessageMetrics.success) (anyOf .success) :=
  Weighs.sum weighs_success _

theorem weighs_sum_errors :
    Weighs increment (sumOver · MessageMetrics.errors) (anyOf .errors) :=
  Weighs.sum weighs_errors _

theorem bounded_of_run (hrun : Reached s) : s.counters.Bounded where
  requests := by
    refine le_of_run hrun (weighs_requestsSuccess.add weighs_requestsErrors) weighs_requestsTotal
      rfl (fun n => ⟨rfl, rfl⟩) (fun type result => ?_)
    cases result <;> simp [Covers, opening, closing, unit]
  byType := by
    intro type
    refine le_of_run hrun ((weighs_success type).add (weighs_errors type)) (weighs_total type)
      rfl (fun n => ⟨rfl, rfl⟩) (fun other result => ?_)
    by_cases h : other = type
    · cases result <;> simp [Covers, opening, closing, unit, h]
    · cases result <;> simp [Covers, opening, closing, unit, h]
  total := by
    refine le_of_run hrun weighs_sum_total weighs_requestsTotal
      (sumOver_zero rfl) (IssuedCall.anyOf_ignores (by simp)) (fun type result => ?_)
    cases result <;> simp [Covers, opening, closing, unit, anyOf_of_ne]
  success := by
    refine le_of_run hrun weighs_sum_success weighs_requestsSuccess
      (sumOver_zero rfl) (IssuedCall.anyOf_ignores (by simp)) (fun type result => ?_)
    cases result <;> simp [Covers, opening, closing, unit, anyOf_of_ne]
  errors := by
    refine le_of_run hrun weighs_sum_errors weighs_requestsErrors
      (sumOver_zero rfl) (IssuedCall.anyOf_ignores (by simp)) (fun type result => ?_)
    cases result <;> simp [Covers, opening, closing, unit, anyOf_of_ne]

/-! ### When no call is in progress -/

theorem eq_of_quiescent (hrun : Reached s) (hq : Quiescent IssuedCall.increments s.threads)
    {count count' : ClientMetrics → Nat} {w w' : Increment → Nat}
    (h : Weighs increment count w) (h' : Weighs increment count' w')
    (hzero : count zero = count' zero) (hw : IssuedCall.Ignores w) (hw' : IssuedCall.Ignores w')
    (hweight : ∀ type result, weight w (opening type ++ closing type result)
      = weight w' (opening type ++ closing type result)) :
    count s.counters = count' s.counters := by
  have htally : tally IssuedCall.increments w s.threads
      = tally IssuedCall.increments w' s.threads := by
    refine tally_eq_of_quiescent hq (fun c => ?_)
    rw [c.weight_increments hw, c.weight_increments hw', hweight]
  rw [tally_of_run h hrun, tally_of_run h' hrun, hzero, htally]

theorem balanced_of_quiescent (hrun : Reached s)
    (hq : Quiescent IssuedCall.increments s.threads) : s.counters.Balanced where
  requests := by
    refine eq_of_quiescent hrun hq (weighs_requestsSuccess.add weighs_requestsErrors)
      weighs_requestsTotal rfl (fun n => ⟨rfl, rfl⟩) (fun n => ⟨rfl, rfl⟩) (fun type result => ?_)
    cases result <;> rfl
  byType := by
    intro type
    refine eq_of_quiescent hrun hq ((weighs_success type).add (weighs_errors type))
      (weighs_total type) rfl (fun n => ⟨rfl, rfl⟩) (fun n => ⟨rfl, rfl⟩) (fun other result => ?_)
    cases result <;> simp [opening, closing, unit]
  total := by
    refine eq_of_quiescent hrun hq weighs_sum_total weighs_requestsTotal
      (sumOver_zero rfl) (IssuedCall.anyOf_ignores (by simp)) (fun n => ⟨rfl, rfl⟩)
      (fun type result => ?_)
    cases result <;> simp [opening, closing, unit, anyOf_of_ne]
  success := by
    refine eq_of_quiescent hrun hq weighs_sum_success weighs_requestsSuccess
      (sumOver_zero rfl) (IssuedCall.anyOf_ignores (by simp)) (fun n => ⟨rfl, rfl⟩)
      (fun type result => ?_)
    cases result <;> simp [opening, closing, unit, anyOf_of_ne]
  errors := by
    refine eq_of_quiescent hrun hq weighs_sum_errors weighs_requestsErrors
      (sumOver_zero rfl) (IssuedCall.anyOf_ignores (by simp)) (fun n => ⟨rfl, rfl⟩)
      (fun type result => ?_)
    cases result <;> simp [opening, closing, unit, anyOf_of_ne]

/-- A counter that some calls add `1` to, and the others nothing, is the number of these
calls. -/
theorem eq_countP_of_quiescent (hrun : Reached s)
    (hq : Quiescent IssuedCall.increments s.threads) {count : ClientMetrics → Nat}
    {w : Increment → Nat} (h : Weighs increment count w) (hzero : count zero = 0)
    (hw : IssuedCall.Ignores w) {p : IssuedCall → Bool}
    (hweight : ∀ c : IssuedCall, weight w (opening c.type ++ closing c.type c.result)
      = if p c then 1 else 0) :
    count s.counters = (s.threads.map Thread.origin).countP p := by
  rw [tally_of_run h hrun, hzero, Nat.zero_add, List.countP_map]
  refine tally_eq_countP hq (fun thread => ?_)
  rw [thread.origin.weight_increments hw, hweight]
  rfl

theorem accounts_of_quiescent (hrun : Reached s)
    (hq : Quiescent IssuedCall.increments s.threads) :
    s.counters.Accounts (s.threads.map Thread.origin) where
  success := by
    intro type
    refine eq_countP_of_quiescent hrun hq (weighs_success type) rfl (fun n => ⟨rfl, rfl⟩)
      (fun c => ?_)
    cases c.result <;> simp [opening, closing, unit]
  errors := by
    intro type
    refine eq_countP_of_quiescent hrun hq (weighs_errors type) rfl (fun n => ⟨rfl, rfl⟩)
      (fun c => ?_)
    cases c.result <;> simp [opening, closing, unit]
  bytesSent := by
    rw [tally_of_run weighs_bytesSent hrun, tally_of_quiescent hq, List.map_map]
    simp only [IssuedCall.weight_sent]
    exact Nat.zero_add _
  bytesReceived := by
    rw [tally_of_run weighs_bytesReceived hrun, tally_of_quiescent hq, List.map_map]
    simp only [IssuedCall.weight_received]
    exact Nat.zero_add _

/-- **The books are kept**: at every point of every run the counters are bounded, and when
no call is in progress they add up and account for all calls. -/
theorem bookkeeping_of_run (hrun : Machine.Run (step increment IssuedCall.increments)
      (fun _ _ => True) ⟨zero, []⟩ s) :
    s.counters.Bounded ∧ (Quiescent IssuedCall.increments s.threads →
      s.counters.Balanced ∧ s.counters.Accounts (s.threads.map Thread.origin)) :=
  ⟨bounded_of_run hrun, fun hq => ⟨balanced_of_quiescent hrun hq, accounts_of_quiescent hrun hq⟩⟩

/-- A write that succeeds and a read that is refused, increment by increment in turns. -/
def mixedRun : List (Event IssuedCall) :=
  [.start ⟨.writeSingle .register 1 7, .answering [0x06, 0, 1, 0, 7]⟩,
    .start ⟨.read .readCoils 0 0 [], .answering []⟩,
    .advance 0, .advance 1, .advance 0, .advance 1, .advance 0, .advance 1, .advance 0,
    .advance 1, .advance 0, .advance 0]

theorem mixedRun_isSome : (Machine.exec (step increment IssuedCall.increments) (fun _ _ => True)
    ⟨zero, []⟩ mixedRun).isSome := by decide +kernel

theorem bookkeeping_of_mixedRun : ∃ s : State ClientMetrics IssuedCall,
    s.counters.Bounded ∧ s.counters.Balanced ∧ s.counters.Accounts (s.threads.map Thread.origin) ∧
      s.counters.requestsTotal = 2 ∧ s.counters.requestsSuccess = 1 ∧ s.counters.bytesSent = 5 := by
  obtain ⟨hbounded, hquiescent⟩ := bookkeeping_of_run (.of_isSome mixedRun_isSome)
  have hq : Quiescent IssuedCall.increments ((Machine.exec (step increment IssuedCall.increments)
      (fun _ _ => True) ⟨zero, []⟩ mixedRun).get mixedRun_isSome).threads := by
    unfold Quiescent
    decide +kernel
  obtain ⟨hbalanced, haccounts⟩ := hquiescent hq
  exact ⟨_, hbounded, hbalanced, haccounts, by decide +kernel, by decide +kernel, by decide +kernel⟩

end ClientMetrics

end Modbus
