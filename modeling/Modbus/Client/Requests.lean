import Modbus.Client.Calls

/-!
# What a call sends

A call whose arguments are valid hands one PDU to `SendRawRequest`, any other call none.

* `Call.increments_eq`: the increments of a call, from what it sends and how it ends.
* `Call.exists_sends`: what is sent is what is valid.
* `Call.sends_once`: a valid call sends its request once, any other call nothing.
-/

namespace Modbus

open Span Transport

variable {σ : Type}

/-! ### The counters of a call -/

/-- What `ScopeMetrics` counts at the start. -/
def opening (type : MessageType) : List Increment := [.requestsTotal, .total type]

/-- What `SendPdu` counts for a request that ends in some way. -/
def exchanged (req : Bytes) : Outcome → List Increment
  | .returned (.ok n) => [.bytesSent req.length, .bytesReceived n]
  | _ => [.bytesSent req.length]

/-- What `ScopeMetrics` counts at the end. -/
def closing (type : MessageType) : Except Exit Unit → List Increment
  | .ok _ => [.requestsSuccess, .success type]
  | .error _ => [.requestsErrors, .errors type]

theorem metrics_refused {β : Type} (type : MessageType) (e : ClientError) (s : CallState σ β) :
    (stateOf (refused type e s)).metrics
      = s.metrics ++ opening type ++ closing type (resultOf (refused type e s)) := rfl

section

variable {β R : Type} (type : MessageType) (t : Transport σ) (req : Bytes) (s : CallState σ β)
  (k : R → β → β) (r : Except Exit R)

theorem transport_finished :
    (stateOf (finished type t req s k r)).transport = (t.send req s.transport).state := by
  cases r <;> rfl

theorem metrics_finished :
    (stateOf (finished type t req s k r)).metrics
      = s.metrics ++ opening type ++ exchanged req (t.send req s.transport).outcome
        ++ closing type (resultOf (finished type t req s k r)) := by
  have hsent : ((s.openScope type).sent t req).metrics
      = s.metrics ++ opening type ++ exchanged req (t.send req s.transport).outcome := by
    unfold CallState.sent CallState.openScope CallState.count exchanged opening
    cases (t.send req s.transport).outcome with
    | threw => rfl
    | returned result => cases result <;> rfl
  rw [← hsent]
  cases r <;> rfl

end

namespace Call

/-! ### The end of a call -/

def transportState (t : Transport σ) (s : σ) (call : Call) : σ :=
  call.ends (fun _ r => (stateOf r).transport) t s

/-- The increments that a call makes, in order. -/
def increments (t : Transport σ) (s : σ) (call : Call) : List Increment :=
  call.ends (fun _ r => (stateOf r).metrics) t s

variable {t : Transport σ} {s : σ} {call : Call}

/-- **A transport error is passed on.** -/
theorem result_of_transport_error {req : Bytes} {e : ClientError} (h : call.Sends req)
    (he : (t.send req s).outcome = .returned (.error e)) : call.result t s = .error (.error e) := by
  obtain ⟨β, R, out, deserialize, k, _, hends⟩ := ends_of_sends h
  rw [result_eq_ends, hends, resultOf_finished, received, he]
  rfl

/-! ### The log of a call -/

/-- What a call hands to `SendRawRequest`, and how that ends. -/
def log (t : Transport σ) (s : σ) (call : Call) : Log := (call.transportState t.logged ([], s)).1

theorem log_of_sends {req : Bytes} (h : call.Sends req) :
    call.log t s = [(req, (t.send req s).outcome)] := by
  obtain ⟨β, R, out, deserialize, k, _, hends⟩ := ends_of_sends h
  rw [log, transportState, hends, transport_finished]
  rfl

theorem log_of_refused (h : ∀ req, ¬ call.Sends req) : call.log t s = [] := by
  obtain ⟨β, out, hends⟩ := ends_of_refused h
  rw [log, transportState, hends]
  rfl

/-- **The increments of a call** go with its log and its result. -/
theorem increments_eq : call.increments t s
    = opening call.messageType ++ (call.log t s).flatMap (fun e => exchanged e.1 e.2)
      ++ closing call.messageType (call.result t s) := by
  by_cases h : ∃ req, call.Sends req
  · obtain ⟨req, h⟩ := h
    obtain ⟨β, R, out, deserialize, k, _, hends⟩ := ends_of_sends h
    rw [log_of_sends h, List.flatMap_singleton, increments, result_eq_ends, hends, hends,
      metrics_finished]
    rfl
  · have hno := not_exists.mp h
    obtain ⟨β, out, hends⟩ := ends_of_refused hno
    rw [log_of_refused hno, increments, result_eq_ends, hends, hends, metrics_refused]
    rfl

/-! ### Valid arguments -/

/-- The arguments of a call are valid: as many values as its type allows, at addresses that
exist, with coils that are on or off; and the buffer of a read has room for them. -/
def Valid : Call → Prop
  | read op address quantity out =>
    1 ≤ quantity.toNat ∧ quantity.toNat ≤ op.maxQuantity.toNat ∧
      address.toNat + quantity.toNat ≤ 0x10000 ∧ quantity.toNat ≤ out.length
  | writeSingle kind _ value => kind.Accepts value
  | writeMultiple kind address values =>
    1 ≤ values.length ∧ values.length ≤ kind.maxQuantity.toNat ∧
      address.toNat + values.length ≤ 0x10000 ∧ ∀ val ∈ values, kind.Accepts val

/-- The decoder of a call's requests takes `req` whole, and finds the arguments of the call
in it. -/
def Asks : Call → Bytes → Prop
  | read op address quantity _, req => ∃ m,
      (RangeMessage.deserialize op.functionCode op.maxQuantity).run req = .ok m [] ∧
        m.address = address ∧ m.quantity = quantity
  | writeSingle kind address value, req => ∃ m,
      (SingleMessage.deserialize kind kind.singleCode).run req = .ok m [] ∧
        m.address = address ∧ m.value = value
  | writeMultiple kind address values, req => ∃ m,
      (Request.WriteMultiple.deserialize kind kind.multipleCode kind.maxQuantity).run req
        = .ok m [] ∧ m.address = address ∧ m.values = values

/-- **Valid arguments are the ones that there is a request for.** -/
theorem exists_sends : (∃ req, call.Sends req) ↔ call.Valid := by
  cases call with
  | read op address quantity out =>
    have hfields := @RangeMessage.create_isOk op.functionCode op.maxQuantity address quantity
    constructor
    · intro h
      obtain ⟨_, hq, request, hreq, _⟩ := h
      obtain ⟨hmin, hmax, ha⟩ := hfields.mp ⟨request, hreq⟩
      exact ⟨hmin, hmax, ha, hq⟩
    · intro h
      obtain ⟨hmin, hmax, ha, hq⟩ := h
      obtain ⟨request, hreq⟩ := hfields.mpr ⟨hmin, hmax, ha⟩
      exact ⟨_, hq, request, hreq, rfl⟩
  | writeSingle kind address value =>
    rw [Valid, ← @SingleMessage.create_isOk kind kind.singleCode address]
    constructor
    · intro h
      obtain ⟨_, request, hreq, _⟩ := h
      exact ⟨request, hreq⟩
    · intro h
      obtain ⟨request, hreq⟩ := h
      exact ⟨_, request, hreq, rfl⟩
  | writeMultiple kind address values =>
    rw [Valid, ← @Request.WriteMultiple.create_isOk kind kind.multipleCode]
    constructor
    · intro h
      obtain ⟨_, request, hreq, _⟩ := h
      exact ⟨request, hreq⟩
    · intro h
      obtain ⟨request, hreq⟩ := h
      exact ⟨_, request, hreq, rfl⟩

theorem asks_of_sends {req : Bytes} (h : call.Sends req) : call.Asks req := by
  cases call with
  | read op address quantity out =>
    obtain ⟨_, request, hreq, rfl⟩ := h
    obtain ⟨rfl, rfl⟩ := RangeMessage.create_eq_ok.mp hreq
    exact ⟨request, RangeMessage.deserialize_eq_ok.mpr (List.append_nil _).symm, rfl, rfl⟩
  | writeSingle kind address value =>
    obtain ⟨request, hreq, rfl⟩ := h
    obtain ⟨rfl, rfl⟩ := SingleMessage.create_eq_ok.mp hreq
    exact ⟨request, SingleMessage.deserialize_eq_ok.mpr (List.append_nil _).symm, rfl, rfl⟩
  | writeMultiple kind address values =>
    obtain ⟨request, hreq, rfl⟩ := h
    obtain ⟨rfl, rfl⟩ := Request.WriteMultiple.create_eq_ok.mp hreq
    have hrun := request.deserialize_encode []
    rw [List.append_nil] at hrun
    exact ⟨request, hrun, rfl, rfl⟩

/-- **Only valid requests are sent, and all of them are**: `SendRawRequest` is called once
with the request, or not at all. -/
theorem sends_once (t : Transport σ) (s : σ) (call : Call) :
    (call.Valid ∧ ∃ req outcome, call.log t s = [(req, outcome)] ∧ call.Asks req) ∨
      (¬ call.Valid ∧ call.log t s = [] ∧
        call.result t s = .error (.error call.refusal) ∧
        ∀ n, .bytesSent n ∉ call.increments t s ∧ .bytesReceived n ∉ call.increments t s) := by
  by_cases h : ∃ req, call.Sends req
  · obtain ⟨req, hreq⟩ := h
    exact Or.inl ⟨exists_sends.mp ⟨req, hreq⟩, req, _, log_of_sends hreq, asks_of_sends hreq⟩
  · have hno := not_exists.mp h
    refine Or.inr ⟨fun hvalid => h (exists_sends.mpr hvalid), log_of_refused hno,
      result_of_refused hno, fun n => ?_⟩
    rw [increments_eq, log_of_refused hno, result_of_refused hno]
    simp [opening, closing]

end Call

end Modbus
