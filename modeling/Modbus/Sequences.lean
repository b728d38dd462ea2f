import Modbus.Client.Requests
import Modbus.Library.PrefixCode
import Modbus.Truncation

/-!
# Messages one after another

A decoder moves the span behind what it has taken, so messages may stand one after another in a
buffer.  No message begins another one, whatever their types, so it can always be told where one
ends and the next one starts.

* `messages_uniquely_decodable`: requests, and responses.
* `requests_determine_calls`: so what clients send says what they have called, in which order.
-/

namespace Modbus

open Span Coding InformationTheory

/-! ### Requests -/

inductive RequestType
  | read (op : ReadOp)
  | writeSingle (kind : WriteKind)
  | writeMultiple (kind : WriteKind)
deriving DecidableEq

namespace RequestType

def functionCode : RequestType → FunctionCode
  | read op => op.functionCode
  | writeSingle kind => kind.singleCode
  | writeMultiple kind => kind.multipleCode

def Message : RequestType → Type
  | read op => op.Request
  | writeSingle kind => kind.Single
  | writeMultiple kind => kind.MultipleRequest

def deserialize : (type : RequestType) → Reader type.Message
  | read op => RangeMessage.deserialize op.functionCode op.maxQuantity
  | writeSingle kind => SingleMessage.deserialize kind kind.singleCode
  | writeMultiple kind =>
    Request.WriteMultiple.deserialize kind kind.multipleCode kind.maxQuantity

theorem functionCode_injective : Function.Injective functionCode := by
  rintro (op | kind | kind) (op' | kind' | kind')
  · cases op <;> cases op' <;> decide
  · cases op <;> cases kind' <;> decide
  · cases op <;> cases kind' <;> decide
  · cases kind <;> cases op' <;> decide
  · cases kind <;> cases kind' <;> decide
  · cases kind <;> cases kind' <;> decide
  · cases kind <;> cases op' <;> decide
  · cases kind <;> cases kind' <;> decide
  · cases kind <;> cases kind' <;> decide

theorem not_isErrorFunctionCode (type : RequestType) :
    ¬ isErrorFunctionCode type.functionCode.raw := by
  rcases type with op | kind | kind
  · cases op <;> decide
  · cases kind <;> decide
  · cases kind <;> decide

theorem streams_deserialize (type : RequestType) :
    Streams .kBufferTooShort type.deserialize := by
  cases type with
  | read op => exact RangeMessage.streams_deserialize _ _
  | writeSingle kind => exact SingleMessage.streams_deserialize _ _
  | writeMultiple kind => exact Request.WriteMultiple.streams_deserialize _ _ _

theorem head_of_takenWhole {type : RequestType} {b : Bytes} (h : b ∈ TakenWhole type.deserialize) :
    b.head? = some type.functionCode.raw := by
  obtain ⟨m, h⟩ := h
  cases type with
  | read op =>
    rw [RangeMessage.deserialize_eq_ok.mp h]
    rfl
  | writeSingle kind =>
    rw [SingleMessage.deserialize_eq_ok.mp h]
    rfl
  | writeMultiple kind =>
    obtain ⟨payload, rfl, _⟩ := Request.WriteMultiple.deserialize_eq_ok.mp h
    rfl

theorem tag {type type' : RequestType} {b t : Bytes} (h : b ∈ TakenWhole type.deserialize)
    (h' : b ++ t ∈ TakenWhole type'.deserialize) : type = type' := by
  have hhead := head_of_takenWhole h'
  rw [List.head?_append, head_of_takenWhole h] at hhead
  have hcode : type.functionCode.raw = type'.functionCode.raw := Option.some.inj hhead
  exact functionCode_injective (congrArg FunctionCode.mk hcode)

end RequestType

theorem uniquelyDecodable_requests :
    UniquelyDecodable {b : Bytes | ∃ type : RequestType, b ∈ TakenWhole type.deserialize} := by
  refine PrefixCode.uniquelyDecodable ?_ ?_
  · exact prefixCode_of_tags (fun type => prefixCode_of_streams type.streams_deserialize)
      fun _ _ _ _ => RequestType.tag
  · rintro ⟨type, h⟩
    exact Option.some_ne_none _ (RequestType.head_of_takenWhole h).symm

/-! ### Responses -/

/-- The types of responses: one for each type of requests, and refusals. -/
inductive ResponseType
  | answer (type : RequestType)
  | error
deriving DecidableEq

namespace ResponseType

/-- The bytes that are taken whole as a response of this type; to a read, whatever quantity is
expected. -/
def Takes : ResponseType → Set Bytes
  | answer (.read op) => {b | ∃ quantity, b ∈ TakenWhole
      (Response.ReadMultiple.deserialize op.kind op.functionCode op.maxQuantity quantity)}
  | answer (.writeSingle kind) => TakenWhole (SingleMessage.deserialize kind kind.singleCode)
  | answer (.writeMultiple kind) =>
    TakenWhole (RangeMessage.deserialize kind.multipleCode kind.maxQuantity)
  | error => TakenWhole Response.ErrorResponse.deserialize

def LeadsWith : ResponseType → UInt8 → Prop
  | answer type, b => b = type.functionCode.raw
  | error, b => isErrorFunctionCode b

theorem LeadsWith.unique {type type' : ResponseType} {b : UInt8} (h : type.LeadsWith b)
    (h' : type'.LeadsWith b) : type = type' := by
  have hnormal : ∀ {type : RequestType}, (answer type).LeadsWith b → ¬ error.LeadsWith b := by
    rintro type rfl
    exact type.not_isErrorFunctionCode
  cases type with
  | answer type =>
    cases type' with
    | answer type' =>
      have hcode : type.functionCode.raw = type'.functionCode.raw := h.symm.trans h'
      exact congrArg answer (RequestType.functionCode_injective (congrArg FunctionCode.mk hcode))
    | error => exact absurd h' (hnormal h)
  | error =>
    cases type' with
    | answer type' => exact absurd h (hnormal h')
    | error => rfl

theorem head_of_takes {type : ResponseType} {b : Bytes} (h : b ∈ type.Takes) :
    ∃ first, b.head? = some first ∧ type.LeadsWith first := by
  match type, h with
  | answer (.read op), ⟨quantity, m, h⟩ =>
    obtain ⟨byteCount, payload, rfl, _⟩ := Response.ReadMultiple.deserialize_eq_ok.mp h
    exact ⟨_, rfl, rfl⟩
  | answer (.writeSingle kind), ⟨m, h⟩ =>
    obtain rfl := SingleMessage.deserialize_eq_ok.mp h
    exact ⟨_, rfl, rfl⟩
  | answer (.writeMultiple kind), ⟨m, h⟩ =>
    obtain rfl := RangeMessage.deserialize_eq_ok.mp h
    exact ⟨_, rfl, rfl⟩
  | error, ⟨m, h⟩ =>
    obtain ⟨rawFc, rawEc, rfl, hfc, _⟩ := Response.ErrorResponse.deserialize_eq_ok.mp h
    exact ⟨rawFc, rfl, hfc⟩

theorem tag {type type' : ResponseType} {b t : Bytes} (h : b ∈ type.Takes)
    (h' : b ++ t ∈ type'.Takes) : type = type' := by
  obtain ⟨first, hfirst, hleads⟩ := head_of_takes h
  obtain ⟨first', hfirst', hleads'⟩ := head_of_takes h'
  rw [List.head?_append, hfirst] at hfirst'
  obtain rfl : first = first' := Option.some.inj hfirst'
  exact hleads.unique hleads'

theorem prefixCode_takes (type : ResponseType) : PrefixCode type.Takes := by
  match type with
  | answer (.read op) =>
    rintro v t ⟨quantity, m, h⟩ ⟨quantity', m', h'⟩
    obtain ⟨n, payload, rfl, hn, _⟩ := Response.ReadMultiple.deserialize_eq_ok.mp h
    obtain ⟨n', payload', heq, hn', _⟩ := Response.ReadMultiple.deserialize_eq_ok.mp h'
    rw [List.append_nil, List.append_nil, List.append_assoc, List.append_assoc,
      List.append_cancel_left_eq] at heq
    -- the byte count says how much there is
    obtain ⟨rfl, hpayload⟩ := List.cons.inj heq
    have hlen : (payload ++ t).length = payload'.length := congrArg List.length hpayload
    rw [List.length_append] at hlen
    exact List.eq_nil_of_length_eq_zero (by omega)
  | answer (.writeSingle kind) =>
    exact prefixCode_of_streams (SingleMessage.streams_deserialize _ _)
  | answer (.writeMultiple kind) =>
    exact prefixCode_of_streams (RangeMessage.streams_deserialize _ _)
  | error =>
    rintro v t ⟨m, h⟩ ⟨m', h'⟩
    obtain ⟨_, _, rfl, _⟩ := Response.ErrorResponse.deserialize_eq_ok.mp h
    obtain ⟨_, _, heq, _⟩ := Response.ErrorResponse.deserialize_eq_ok.mp h'
    simp only [List.cons_append, List.nil_append, List.cons.injEq] at heq
    exact heq.2.2

end ResponseType

/-- **Streams of messages can be read in one way only.**  No byte string is a request of two types
or a response of two types, and no string of requests, or of responses, falls into messages in
two ways. -/
theorem messages_uniquely_decodable :
    (∀ (b : Bytes) (type type' : RequestType), b ∈ TakenWhole type.deserialize →
      b ∈ TakenWhole type'.deserialize → type = type') ∧
    UniquelyDecodable {b : Bytes | ∃ type : RequestType, b ∈ TakenWhole type.deserialize} ∧
    (∀ (b : Bytes) (type type' : ResponseType), b ∈ type.Takes → b ∈ type'.Takes →
      type = type') ∧
    UniquelyDecodable {b : Bytes | ∃ type : ResponseType, b ∈ type.Takes} := by
  refine ⟨fun b type type' h h' => ?_, uniquelyDecodable_requests,
    fun b type type' h h' => ?_, PrefixCode.uniquelyDecodable ?_ ?_⟩
  · exact RequestType.tag h ((List.append_nil b).symm ▸ h')
  · exact ResponseType.tag h ((List.append_nil b).symm ▸ h')
  · exact prefixCode_of_tags ResponseType.prefixCode_takes fun _ _ _ _ => ResponseType.tag
  · rintro ⟨type, h⟩
    obtain ⟨first, hfirst, _⟩ := ResponseType.head_of_takes h
    cases hfirst

/-! ### Calls -/

namespace Call

/-- What a call asks for: all but the buffer of a read. -/
def withoutBuffer : Call → Call
  | read op address quantity _ => read op address quantity []
  | writeSingle kind address value => writeSingle kind address value
  | writeMultiple kind address values => writeMultiple kind address values

def requestType : Call → RequestType
  | read op _ _ _ => .read op
  | writeSingle kind _ _ => .writeSingle kind
  | writeMultiple kind _ _ => .writeMultiple kind

variable {call call' : Call} {req req' : Bytes}

theorem takenWhole_of_sends (h : call.Sends req) :
    req ∈ TakenWhole call.requestType.deserialize := by
  have hasks := asks_of_sends h
  cases call with
  | read | writeSingle | writeMultiple =>
    obtain ⟨m, hrun, _⟩ := hasks
    exact ⟨m, hrun⟩

/-- A request is sent by one call only, but for the buffer. -/
theorem withoutBuffer_of_sends (h : call.Sends req) (h' : call'.Sends req) :
    call.withoutBuffer = call'.withoutBuffer := by
  have htype := RequestType.tag (takenWhole_of_sends h)
    ((List.append_nil req).symm ▸ takenWhole_of_sends h')
  have hasks := asks_of_sends h
  have hasks' := asks_of_sends h'
  clear h h'
  cases call with
  | read op address quantity out =>
    cases call' with
    | read op' address' quantity' out' =>
      cases htype
      obtain ⟨m, hrun, rfl, rfl⟩ := hasks
      obtain ⟨m', hrun', rfl, rfl⟩ := hasks'
      rw [hrun] at hrun'
      cases hrun'
      rfl
    | writeSingle => cases htype
    | writeMultiple => cases htype
  | writeSingle kind address value =>
    cases call' with
    | writeSingle kind' address' value' =>
      cases htype
      obtain ⟨m, hrun, rfl, rfl⟩ := hasks
      obtain ⟨m', hrun', rfl, rfl⟩ := hasks'
      rw [hrun] at hrun'
      cases hrun'
      rfl
    | read => cases htype
    | writeMultiple => cases htype
  | writeMultiple kind address values =>
    cases call' with
    | writeMultiple kind' address' values' =>
      cases htype
      obtain ⟨m, hrun, rfl, rfl⟩ := hasks
      obtain ⟨m', hrun', rfl, rfl⟩ := hasks'
      rw [hrun] at hrun'
      cases hrun'
      rfl
    | read => cases htype
    | writeSingle => cases htype

theorem sends_unique_withoutBuffer (h : call.Sends req) (h' : call'.Sends req')
    (heq : call.withoutBuffer = call'.withoutBuffer) : req = req' := by
  cases call with
  | read op address quantity out =>
    cases call' with
    | read op' address' quantity' out' =>
      cases heq
      obtain ⟨_, request, hreq, rfl⟩ := h
      obtain ⟨_, request', hreq', rfl⟩ := h'
      rw [hreq, Except.ok.injEq] at hreq'
      rw [hreq']
    | writeSingle => cases heq
    | writeMultiple => cases heq
  | writeSingle kind address value =>
    cases call' with
    | writeSingle kind' address' value' =>
      cases heq
      exact sends_unique h h'
    | read => cases heq
    | writeMultiple => cases heq
  | writeMultiple kind address values =>
    cases call' with
    | writeMultiple kind' address' values' =>
      cases heq
      exact sends_unique h h'
    | read => cases heq
    | writeSingle => cases heq

theorem map_withoutBuffer_iff {calls calls' : List Call} {reqs reqs' : List Bytes}
    (h : List.Forall₂ Call.Sends calls reqs) (h' : List.Forall₂ Call.Sends calls' reqs') :
    reqs = reqs' ↔ calls.map withoutBuffer = calls'.map withoutBuffer := by
  induction h generalizing calls' reqs' with
  | nil =>
    cases h' with
    | nil => simp
    | cons => simp
  | @cons call req calls reqs hsends _ ih =>
    cases h' with
    | nil => simp
    | @cons call' req' calls' reqs' hsends' h' =>
      rw [List.map_cons, List.map_cons, List.cons.injEq, List.cons.injEq, ih h']
      refine and_congr_left fun _ => ⟨?_, sends_unique_withoutBuffer hsends hsends'⟩
      rintro rfl
      exact withoutBuffer_of_sends hsends hsends'

end Call

/-- **What is sent says what was called**, by whichever clients: the requests of some calls, one
behind the other, are those of other calls exactly if these are the same ones in the same
order, but for the buffers of reads. -/
theorem requests_determine_calls {calls calls' : List Call} {reqs reqs' : List Bytes}
    (h : List.Forall₂ Call.Sends calls reqs) (h' : List.Forall₂ Call.Sends calls' reqs') :
    reqs.flatten = reqs'.flatten
      ↔ calls.map Call.withoutBuffer = calls'.map Call.withoutBuffer := by
  have hrequests : ∀ {calls : List Call} {reqs : List Bytes}, List.Forall₂ Call.Sends calls reqs →
      ∀ req ∈ reqs, ∃ type : RequestType, req ∈ TakenWhole type.deserialize := by
    intro calls reqs h
    induction h with
    | nil => simp
    | cons hsends _ ih =>
      exact List.forall_mem_cons.mpr ⟨⟨_, Call.takenWhole_of_sends hsends⟩, ih⟩
  rw [← Call.map_withoutBuffer_iff h h']
  exact ⟨uniquelyDecodable_requests _ _ (hrequests h) (hrequests h'), congrArg List.flatten⟩

def readThenWrite (out : List UInt16) : List Call :=
  [.read .readHoldingRegisters 0 2 out, .writeSingle .register 1 (7 : UInt16)]

/-- Two callers, with buffers of their own. -/
theorem requests_determine_calls_buffers : ∃ reqs reqs' : List Bytes,
    List.Forall₂ Call.Sends (readThenWrite [7, 7]) reqs ∧
    List.Forall₂ Call.Sends (readThenWrite [0, 0, 0]) reqs' ∧ reqs.flatten = reqs'.flatten := by
  have hread : ∀ out : List UInt16, 2 ≤ out.length →
      ∃ req, Call.Sends (.read .readHoldingRegisters 0 2 out) req :=
    fun out hout => Call.exists_sends.mpr ⟨by decide, by decide, by decide, hout⟩
  obtain ⟨req₁, h₁⟩ := hread [7, 7] (by decide)
  obtain ⟨req₂, h₂⟩ := hread [0, 0, 0] (by decide)
  have hwrite : (Call.writeSingle .register 1 (7 : UInt16)).Valid := trivial
  obtain ⟨req₃, h₃⟩ := Call.exists_sends.mpr hwrite
  have h : List.Forall₂ Call.Sends (readThenWrite [7, 7]) _ := .cons h₁ (.cons h₃ .nil)
  have h' : List.Forall₂ Call.Sends (readThenWrite [0, 0, 0]) _ := .cons h₂ (.cons h₃ .nil)
  exact ⟨_, _, h, h', (requests_determine_calls h h').mpr rfl⟩

end Modbus
