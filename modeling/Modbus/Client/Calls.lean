import Modbus.Client.Base
import Modbus.WellFormed

/-!
# Calls and their responses

`Call` is one of the eight operations with its arguments.  What comes back for a
call is the PDU that its transport returns for its request; two things are said
here about what the call then makes of it.

* `ends_of_sends`, `ends_of_refused`: the two ways that a call can go, for anything that can
  be told from its end: its result, the state of the transport, the counters incremented.
* `reportsExceptions_iff`: a call never tells a device's refusal from a broken
  response.
* `confirms_iff`: a write takes any well-formed confirmation for its own.
-/

namespace Modbus

open Span Transport

variable {σ : Type}

inductive Call
  | read (op : ReadOp) (address quantity : UInt16) (out : List op.T)
  | writeSingle (kind : WriteKind) (address : UInt16) (value : kind.T)
  | writeMultiple (kind : WriteKind) (address : UInt16) (values : List kind.T)

namespace Call

def functionCode : Call → FunctionCode
  | read op _ _ _ => op.functionCode
  | writeSingle kind _ _ => kind.singleCode
  | writeMultiple kind _ _ => kind.multipleCode

/-- The call's arguments are accepted, and `req` is its request. -/
def Sends : Call → Bytes → Prop
  | read op address quantity out, req => quantity.toNat ≤ out.length ∧ ∃ request : op.Request,
      RangeMessage.create op.functionCode op.maxQuantity address quantity = .ok request ∧
      req = request.encode
  | writeSingle kind address value, req => ∃ request : kind.Single,
      SingleMessage.create kind kind.singleCode address value = .ok request ∧ req = request.encode
  | writeMultiple kind address values, req => ∃ request : kind.MultipleRequest,
      Request.WriteMultiple.create kind kind.multipleCode kind.maxQuantity address values
        = .ok request ∧ req = request.encode

/-- The call's arguments are accepted, and `pdu` is what the transport returns for its
request. -/
def Replied (t : Transport σ) (s : σ) (call : Call) (pdu : Bytes) : Prop :=
  ∃ req, call.Sends req ∧ t.reply req s = some pdu

def result (t : Transport σ) (s : σ) : Call → Except Exit Unit
  | read op address quantity out =>
    resultOf ((executeRead t op address quantity).run ⟨s, [], ⟨out, []⟩⟩)
  | writeSingle kind address value =>
    resultOf ((executeWriteSingle t kind address value).run ⟨s, [], ()⟩)
  | writeMultiple kind address values =>
    resultOf ((executeWriteMultiple t kind address values).run ⟨s, [], ()⟩)

/-- The decoder of a call's response succeeds on `pdu`. -/
def Decodes : Call → Bytes → Prop
  | read op _ quantity _, pdu => ∃ m, decode (Response.ReadMultiple.deserialize op.kind
      op.functionCode op.maxQuantity quantity) pdu = .ok m
  | writeSingle kind _ _, pdu =>
    ∃ m, decode (SingleMessage.deserialize kind kind.singleCode) pdu = .ok m
  | writeMultiple kind _ _, pdu =>
    ∃ m, decode (RangeMessage.deserialize kind.multipleCode kind.maxQuantity) pdu = .ok m

/-! ### The end of a call -/

/-- `RequestTraits` -/
def messageType : Call → MessageType
  | read op _ _ _ => op.messageType
  | writeSingle kind _ _ => kind.singleMessageType
  | writeMultiple kind _ _ => kind.multipleMessageType

def ends {α : Type} (f : ∀ β, EStateM.Result Exit (CallState σ β) Unit → α) (t : Transport σ)
    (s : σ) : Call → α
  | read op address quantity out =>
    f _ ((executeRead t op address quantity).run ⟨s, [], ⟨out, []⟩⟩)
  | writeSingle kind address value =>
    f _ ((executeWriteSingle t kind address value).run ⟨s, [], ()⟩)
  | writeMultiple kind address values =>
    f _ ((executeWriteMultiple t kind address values).run ⟨s, [], ()⟩)

def refusal : Call → ClientError
  | read _ _ quantity out =>
    if out.length < quantity.toNat then .kBufferTooSmall else .kInvalidRequest
  | writeSingle _ _ _ => .kInvalidRequest
  | writeMultiple _ _ _ => .kInvalidRequest

variable {t : Transport σ} {s : σ} {call : Call}

theorem result_eq_ends : call.result t s = call.ends (fun _ => resultOf) t s := by
  cases call <;> rfl

/-- A call that sends `req` ends with what comes back for it. -/
theorem ends_of_sends {req : Bytes} (h : call.Sends req) :
    ∃ (β R : Type) (out : β) (deserialize : Reader R) (k : R → β → β),
      (∀ pdu, call.Decodes pdu ↔ ∃ m, decode deserialize pdu = .ok m) ∧
      ∀ {σ α : Type} (t : Transport σ) (s : σ)
        (f : ∀ β, EStateM.Result Exit (CallState σ β) Unit → α),
        call.ends f t s
          = f β (finished call.messageType t req ⟨s, [], out⟩ k
              (received t req s deserialize)) := by
  cases call with
  | read op address quantity out =>
    obtain ⟨hq, request, hreq, rfl⟩ := h
    exact ⟨_, _, ⟨out, []⟩, _, _, fun _ => Iff.rfl, fun t s f =>
      congrArg (f _) (run_executeRead (s := ⟨s, [], ⟨out, []⟩⟩) hq hreq)⟩
  | writeSingle kind address value =>
    obtain ⟨request, hreq, rfl⟩ := h
    exact ⟨_, _, (), _, _, fun _ => Iff.rfl,
      fun t s f => congrArg (f _) (run_executeWriteSingle hreq)⟩
  | writeMultiple kind address values =>
    obtain ⟨request, hreq, rfl⟩ := h
    exact ⟨_, _, (), _, _, fun _ => Iff.rfl,
      fun t s f => congrArg (f _) (run_executeWriteMultiple hreq)⟩

/-- A call that sends nothing ends where it started. -/
theorem ends_of_refused (h : ∀ req, ¬ call.Sends req) :
    ∃ (β : Type) (out : β), ∀ {σ α : Type} (t : Transport σ) (s : σ)
      (f : ∀ β, EStateM.Result Exit (CallState σ β) Unit → α),
        call.ends f t s = f β (refused call.messageType call.refusal ⟨s, [], out⟩) := by
  cases call with
  | read op address quantity out =>
    refine ⟨_, ⟨out, []⟩, fun t s f => congrArg (f _) ?_⟩
    rw [refusal]
    by_cases hq : out.length < quantity.toNat
    · rw [if_pos hq]
      exact run_executeRead_of_lt hq
    · rw [if_neg hq]
      cases hreq : RangeMessage.create op.functionCode op.maxQuantity address quantity with
      | error e => exact run_executeRead_of_error (Nat.not_lt.mp hq) hreq
      | ok request => exact absurd ⟨Nat.not_lt.mp hq, request, hreq, rfl⟩ (h request.encode)
  | writeSingle kind address value =>
    refine ⟨_, (), fun t s f => congrArg (f _) ?_⟩
    cases hreq : SingleMessage.create kind kind.singleCode address value with
    | error e => exact run_executeWriteSingle_of_error hreq
    | ok request => exact absurd ⟨request, hreq, rfl⟩ (h request.encode)
  | writeMultiple kind address values =>
    refine ⟨_, (), fun t s f => congrArg (f _) ?_⟩
    cases hreq : Request.WriteMultiple.create kind kind.multipleCode kind.maxQuantity address
        values with
    | error e => exact run_executeWriteMultiple_of_error hreq
    | ok request => exact absurd ⟨request, hreq, rfl⟩ (h request.encode)

theorem result_of_refused (h : ∀ req, ¬ call.Sends req) :
    call.result t s = .error (.error call.refusal) := by
  obtain ⟨β, out, hends⟩ := ends_of_refused h
  rw [result_eq_ends, hends, resultOf_refused]

theorem decode_cases {α : Type} (deserialize : Reader α) (pdu : Bytes) :
    (∃ m, decode deserialize pdu = .ok m) ∨ ∃ e, decode deserialize pdu = .error e := by
  cases decode deserialize pdu with
  | ok m => exact Or.inl ⟨m, rfl⟩
  | error e => exact Or.inr ⟨e, rfl⟩

/-- **What a call makes of the PDU it gets**: success if it can be decoded, and
`kInvalidResponse` if not. -/
theorem result_of_replied {pdu : Bytes} (h : call.Replied t s pdu) :
    (call.Decodes pdu ∧ call.result t s = .ok ()) ∨
      (¬ call.Decodes pdu ∧ call.result t s = .error (.error .kInvalidResponse)) := by
  obtain ⟨req, hsends, hreply⟩ := h
  obtain ⟨β, R, out, deserialize, k, hdecodes, hends⟩ := ends_of_sends hsends
  rw [hdecodes, result_eq_ends, hends, resultOf_finished]
  rcases decode_cases deserialize pdu with ⟨m, hm⟩ | ⟨e, he⟩
  · rw [received_eq_ok.mpr ⟨pdu, hreply, hm⟩]
    exact Or.inl ⟨⟨m, hm⟩, rfl⟩
  · refine Or.inr ⟨fun ⟨m, hm⟩ => ?_, ?_⟩
    · rw [hm] at he
      cases he
    · rw [received_of_error hreply he]
      rfl

theorem exists_replied (h : call.result t s = .ok ()) : ∃ pdu, call.Replied t s pdu := by
  by_cases hsends : ∃ req, call.Sends req
  · obtain ⟨req, hsends⟩ := hsends
    obtain ⟨β, R, out, deserialize, k, _, hends⟩ := ends_of_sends hsends
    rw [result_eq_ends, hends, resultOf_finished] at h
    cases hr : received t req s deserialize with
    | ok m =>
      obtain ⟨pdu, hpdu, _⟩ := received_eq_ok.mp hr
      exact ⟨pdu, req, hsends, hpdu⟩
    | error e =>
      rw [hr] at h
      cases h
  · rw [result_of_refused (not_exists.mp hsends)] at h
    cases h

theorem sends_unique {req req' : Bytes} (h : call.Sends req) (h' : call.Sends req') :
    req = req' := by
  cases call with
  | read op address quantity out =>
    obtain ⟨_, request, hreq, rfl⟩ := h
    obtain ⟨_, request', hreq', rfl⟩ := h'
    rw [hreq, Except.ok.injEq] at hreq'
    rw [hreq']
  | writeSingle kind address value =>
    obtain ⟨request, hreq, rfl⟩ := h
    obtain ⟨request', hreq', rfl⟩ := h'
    rw [hreq, Except.ok.injEq] at hreq'
    rw [hreq']
  | writeMultiple kind address values =>
    obtain ⟨request, hreq, rfl⟩ := h
    obtain ⟨request', hreq', rfl⟩ := h'
    rw [hreq, Except.ok.injEq] at hreq'
    rw [hreq']

theorem replied_unique {pdu pdu' : Bytes} (h : call.Replied t s pdu)
    (h' : call.Replied t s pdu') : pdu = pdu' := by
  obtain ⟨req, hsends, hreply⟩ := h
  obtain ⟨req', hsends', hreply'⟩ := h'
  rw [sends_unique hsends' hsends, hreply, Option.some.injEq] at hreply'
  exact hreply'

/-- **A call succeeds** exactly when it gets a PDU that can be decoded. -/
theorem result_eq_ok :
    call.result t s = .ok () ↔ ∃ pdu, call.Replied t s pdu ∧ call.Decodes pdu := by
  constructor
  · intro h
    obtain ⟨pdu, hreplied⟩ := exists_replied h
    rcases result_of_replied hreplied with ⟨hdec, _⟩ | ⟨_, hr⟩
    · exact ⟨pdu, hreplied, hdec⟩
    · rw [hr] at h
      cases h
  · intro h
    obtain ⟨pdu, hreplied, hdec⟩ := h
    rcases result_of_replied hreplied with ⟨_, hr⟩ | ⟨hno, _⟩
    · exact hr
    · exact absurd hdec hno

/-! ### Exception responses -/

/-- `pdu` is a device's refusal of the call: its function code with `kErrorFlag` set,
and a valid exception code. -/
def ExceptionResponse (call : Call) (pdu : Bytes) : Prop :=
  ∃ ec rest, pdu = (call.functionCode.raw ||| kErrorFlag) :: ec :: rest ∧ isValidExceptionCode ec

/-- A call reports a device's refusal, and nothing else, as `kModbusException`. -/
def ReportsExceptions (t : Transport σ) (s : σ) (call : Call) : Prop :=
  (∀ pdu, call.Replied t s pdu → call.ExceptionResponse pdu →
    call.result t s = .error (.error .kModbusException)) ∧
  (∀ pdu, call.Replied t s pdu → call.result t s = .error (.error .kModbusException) →
    ∃ m rest, Response.ErrorResponse.deserialize.run pdu = .ok m rest)

/-- **A refusal is never reported**: a call does what it should about exception
responses exactly when it does not get one. -/
theorem reportsExceptions_iff (t : Transport σ) (s : σ) (call : Call) :
    ReportsExceptions t s call ↔ ∀ pdu, call.Replied t s pdu → ¬ call.ExceptionResponse pdu := by
  have hnever : ∀ pdu, call.Replied t s pdu →
      call.result t s ≠ .error (.error .kModbusException) := by
    intro pdu h
    rcases result_of_replied h with ⟨_, hr⟩ | ⟨_, hr⟩
    · rw [hr]
      simp
    · rw [hr]
      simp
  constructor
  · rintro ⟨hreport, _⟩ pdu h hexc
    exact hnever pdu h (hreport pdu h hexc)
  · intro h
    exact ⟨fun pdu hr hexc => absurd hexc (h pdu hr),
      fun pdu hr hres => absurd hres (hnever pdu hr)⟩

/-- A device refuses to read a coil, and the call says `kInvalidResponse`. -/
theorem reportsExceptions_illegal_address :
    (Call.read .readCoils 0 1 [.kOff]).ExceptionResponse [0x81, 0x02] ∧
      (Call.read .readCoils 0 1 [.kOff]).result (answering [0x81, 0x02]) ()
        = .error (.error .kInvalidResponse) ∧
      ¬ ReportsExceptions (answering [0x81, 0x02]) () (.read .readCoils 0 1 [.kOff]) := by
  have hexc : (Call.read .readCoils 0 1 [.kOff]).ExceptionResponse [0x81, 0x02] :=
    ⟨0x02, [], rfl, by decide⟩
  have hres : (Call.read .readCoils 0 1 [.kOff]).result (answering [0x81, 0x02]) ()
      = .error (.error .kInvalidResponse) := by decide +kernel
  have hreplied : (Call.read .readCoils 0 1 [.kOff]).Replied (answering [0x81, 0x02]) ()
      [0x81, 0x02] :=
    ⟨[0x01, 0, 0, 0, 1], ⟨by decide, ⟨0, 1, by decide, by decide⟩, rfl, rfl⟩,
      reply_answering (by decide) _⟩
  refine ⟨hexc, hres, fun h => ?_⟩
  have hexpected := h.1 _ hreplied hexc
  rw [hres] at hexpected
  cases hexpected

/-! ### Confirmations of writes -/

/-- When a single write succeeds, the response that it decoded has the address and the
value of the request. -/
def ConfirmsSingle (t : Transport σ) (s : σ) (kind : WriteKind) (address : UInt16)
    (value : kind.T) : Prop :=
  (writeSingle kind address value).result t s = .ok () →
    ∃ pdu m rest, (writeSingle kind address value).Replied t s pdu ∧
      (SingleMessage.deserialize kind kind.singleCode).run pdu = .ok m rest ∧
      m.address = address ∧ m.value = value

/-- When a multiple write succeeds, the response that it decoded has the address of the
request and the number of values sent. -/
def ConfirmsMultiple (t : Transport σ) (s : σ) (kind : WriteKind) (address : UInt16)
    (values : List kind.T) : Prop :=
  (writeMultiple kind address values).result t s = .ok () →
    ∃ pdu m rest, (writeMultiple kind address values).Replied t s pdu ∧
      (RangeMessage.deserialize kind.multipleCode kind.maxQuantity).run pdu = .ok m rest ∧
      m.address = address ∧ m.quantity.toNat = values.length

/-- A PDU that confirms some single write: its function code, an address and a value,
which for a coil is one of the two raw values, and anything after that. -/
def SingleConfirmation (kind : WriteKind) (pdu : Bytes) : Prop :=
  ∃ (address raw : UInt16) (rest : Bytes),
    pdu = kind.singleCode.raw :: (toBytes address ++ toBytes raw) ++ rest ∧
      (kind = .coil → raw = kCoilOnRawValue ∨ raw = kCoilOffRawValue)

/-- A PDU that confirms some multiple write: its function code, an address and a
quantity in range, and anything after that. -/
def MultipleConfirmation (kind : WriteKind) (pdu : Bytes) : Prop :=
  ∃ (address quantity : UInt16) (rest : Bytes),
    pdu = kind.multipleCode.raw :: (toBytes address ++ toBytes quantity) ++ rest ∧
      1 ≤ quantity.toNat ∧ quantity.toNat ≤ kind.maxQuantity.toNat ∧
      address.toNat + quantity.toNat ≤ 0x10000

theorem singleConfirmation_iff {kind : WriteKind} {pdu : Bytes} : SingleConfirmation kind pdu ↔
    ∃ (m : kind.Single) (rest : Bytes), pdu = m.encode ++ rest := by
  constructor
  · intro h
    obtain ⟨address, raw, rest, rfl, hraw⟩ := h
    obtain ⟨m, hm⟩ := SingleMessage.wellFormed_iff.mp ⟨address, raw, rfl, hraw⟩
    exact ⟨m, rest, congrArg (· ++ rest) hm⟩
  · intro h
    obtain ⟨m, rest, rfl⟩ := h
    obtain ⟨address, raw, hm, hraw⟩ := SingleMessage.wellFormed_iff.mpr ⟨m, rfl⟩
    exact ⟨address, raw, rest, congrArg (· ++ rest) hm, hraw⟩

theorem multipleConfirmation_iff {kind : WriteKind} {pdu : Bytes} :
    MultipleConfirmation kind pdu ↔
      ∃ (m : kind.MultipleResponse) (rest : Bytes), pdu = m.encode ++ rest := by
  constructor
  · intro h
    obtain ⟨address, quantity, rest, rfl, hfields⟩ := h
    obtain ⟨m, hm⟩ := RangeMessage.wellFormed_iff.mp ⟨address, quantity, rfl, hfields⟩
    exact ⟨m, rest, congrArg (· ++ rest) hm⟩
  · intro h
    obtain ⟨m, rest, rfl⟩ := h
    obtain ⟨address, quantity, hm, hfields⟩ := RangeMessage.wellFormed_iff.mpr ⟨m, rfl⟩
    exact ⟨address, quantity, rest, congrArg (· ++ rest) hm, hfields⟩

theorem confirmsSingle_iff {kind : WriteKind} {address : UInt16} {value : kind.T} :
    ConfirmsSingle t s kind address value ↔
      ∀ req pdu, (writeSingle kind address value).Sends req → t.reply req s = some pdu →
        SingleConfirmation kind pdu → pdu.take 5 = req.take 5 := by
  constructor
  · intro h req pdu hsends hreply hconf
    obtain ⟨m, rest, rfl⟩ := singleConfirmation_iff.mp hconf
    have hrun := SingleMessage.deserialize_eq_ok.mpr (rfl : m.encode ++ rest = m.encode ++ rest)
    have hreplied : (writeSingle kind address value).Replied t s _ := ⟨req, hsends, hreply⟩
    obtain ⟨pdu', m', rest', hreplied', hrun', ha, hv⟩ :=
      h (result_eq_ok.mpr ⟨_, hreplied, m, decode_eq_ok.mpr ⟨rest, hrun⟩⟩)
    obtain rfl := replied_unique hreplied hreplied'
    obtain ⟨rfl, rfl⟩ : m = m' ∧ rest = rest' := by simpa using hrun.symm.trans hrun'
    obtain ⟨request, hreq, rfl⟩ := hsends
    obtain ⟨ha', hv'⟩ := SingleMessage.create_eq_ok.mp hreq
    rw [List.take_left' m.length_encode, List.take_of_length_le request.length_encode.le,
      SingleMessage.encode, SingleMessage.encode, ha, hv, ha', hv']
  · intro h hok
    obtain ⟨pdu, ⟨req, hsends, hreply⟩, m, hdec⟩ := result_eq_ok.mp hok
    obtain ⟨rest, hrun⟩ := decode_eq_ok.mp hdec
    have hpdu := SingleMessage.deserialize_eq_ok.mp hrun
    have htake := h req pdu hsends hreply (singleConfirmation_iff.mpr ⟨m, rest, hpdu⟩)
    refine ⟨pdu, m, rest, ⟨req, hsends, hreply⟩, hrun, ?_⟩
    obtain ⟨request, hreq, rfl⟩ := hsends
    obtain ⟨rfl, rfl⟩ := SingleMessage.create_eq_ok.mp hreq
    rw [hpdu, List.take_left' m.length_encode,
      List.take_of_length_le request.length_encode.le] at htake
    -- both are encodings, and an encoding decodes to one message
    have hm := SingleMessage.deserialize_eq_ok.mpr (rfl : m.encode ++ [] = m.encode ++ [])
    rw [htake, SingleMessage.deserialize_eq_ok.mpr rfl, EStateM.Result.ok.injEq] at hm
    rw [hm.1]
    exact ⟨rfl, rfl⟩

theorem confirmsMultiple_iff {kind : WriteKind} {address : UInt16} {values : List kind.T} :
    ConfirmsMultiple t s kind address values ↔
      ∀ req pdu, (writeMultiple kind address values).Sends req → t.reply req s = some pdu →
        MultipleConfirmation kind pdu → pdu.take 5 = req.take 5 := by
  have htake : ∀ request : kind.MultipleRequest, request.encode.take 5
      = toBytes kind.multipleCode.raw ++ (toBytes request.address ++ toBytes request.getQuantity) :=
    fun _ => rfl
  constructor
  · intro h req pdu hsends hreply hconf
    obtain ⟨m, rest, rfl⟩ := multipleConfirmation_iff.mp hconf
    have hrun := RangeMessage.deserialize_eq_ok.mpr (rfl : m.encode ++ rest = m.encode ++ rest)
    have hreplied : (writeMultiple kind address values).Replied t s _ := ⟨req, hsends, hreply⟩
    obtain ⟨pdu', m', rest', hreplied', hrun', ha, hq⟩ :=
      h (result_eq_ok.mpr ⟨_, hreplied, m, decode_eq_ok.mpr ⟨rest, hrun⟩⟩)
    obtain rfl := replied_unique hreplied hreplied'
    obtain ⟨rfl, rfl⟩ : m = m' ∧ rest = rest' := by simpa using hrun.symm.trans hrun'
    obtain ⟨request, hreq, rfl⟩ := hsends
    obtain ⟨ha', hv'⟩ := Request.WriteMultiple.create_eq_ok.mp hreq
    have hq' : m.quantity = request.getQuantity := UInt16.toNat_inj.mp (by
      rw [hq, request.toNat_getQuantity, hv'])
    rw [List.take_left' m.length_encode, htake, RangeMessage.encode, ha, hq', ha']
  · intro h hok
    obtain ⟨pdu, ⟨req, hsends, hreply⟩, m, hdec⟩ := result_eq_ok.mp hok
    obtain ⟨rest, hrun⟩ := decode_eq_ok.mp hdec
    have hpdu := RangeMessage.deserialize_eq_ok.mp hrun
    have heq := h req pdu hsends hreply (multipleConfirmation_iff.mpr ⟨m, rest, hpdu⟩)
    refine ⟨pdu, m, rest, ⟨req, hsends, hreply⟩, hrun, ?_⟩
    obtain ⟨request, hreq, rfl⟩ := hsends
    obtain ⟨rfl, rfl⟩ := Request.WriteMultiple.create_eq_ok.mp hreq
    rw [hpdu, List.take_left' m.length_encode, htake, RangeMessage.encode, toBytes_append_inj,
      toBytes_append_inj] at heq
    obtain ⟨_, ha, hq⟩ := heq
    obtain ⟨hq, _⟩ := toBytes_append_inj.mp (congrArg (· ++ []) hq)
    exact ⟨ha, by rw [hq, request.toNat_getQuantity]⟩

/-- **A write takes any well-formed confirmation for its own**: it does what it should
exactly when the confirmation it gets, if it gets one, starts with the same five bytes
as its request. -/
theorem confirms_iff (t : Transport σ) (s : σ) :
    (∀ (kind : WriteKind) (address : UInt16) (value : kind.T),
      ConfirmsSingle t s kind address value ↔
        ∀ req pdu, (writeSingle kind address value).Sends req → t.reply req s = some pdu →
          SingleConfirmation kind pdu → pdu.take 5 = req.take 5) ∧
    (∀ (kind : WriteKind) (address : UInt16) (values : List kind.T),
      ConfirmsMultiple t s kind address values ↔
        ∀ req pdu, (writeMultiple kind address values).Sends req → t.reply req s = some pdu →
          MultipleConfirmation kind pdu → pdu.take 5 = req.take 5) :=
  ⟨fun _ _ _ => confirmsSingle_iff, fun _ _ _ => confirmsMultiple_iff⟩

/-- Register `1` is written, and the confirmation of a write to register `2` is taken
for an answer. -/
theorem confirmsSingle_other_address :
    (writeSingle .register 1 7).result (answering [0x06, 0, 2, 0, 9]) () = .ok () ∧
      ¬ ConfirmsSingle (answering [0x06, 0, 2, 0, 9]) () .register 1 7 := by
  have hok : (writeSingle .register 1 7).result (answering [0x06, 0, 2, 0, 9]) () = .ok () := by
    decide +kernel
  refine ⟨hok, fun h => ?_⟩
  obtain ⟨pdu, m, rest, ⟨req, _, hreply⟩, hrun, ha, _⟩ := h hok
  rw [reply_answering (by decide), Option.some.injEq] at hreply
  subst hreply
  have hb := SingleMessage.deserialize_eq_ok.mp hrun
  rw [SingleMessage.encode, ha] at hb
  cases hb

end Call

end Modbus
