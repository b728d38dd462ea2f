import Modbus.Capacity
import Modbus.Device
import Modbus.Library.Linearization

/-!
# Calls as operations on a memory

What a call is for: the memory at the other end of the line, read and written as if it were
here.  `Call.perform` is that operation, told without requests, responses or frames;
`Call.told` is what the code makes of a call.

* `request_eq_some`: the request of a call, computed.
* `told_read_of_reply`: what a read makes of its reply depends on nothing else.
* `exists_respond`: an honest device performs the operation, and its response tells the call
  what the operation says.
-/

namespace Modbus

open Span Transport Linearization

variable {σ : Type}

/-- Everything is off, or zero. -/
def Memory.blank : Memory where
  coils _ := .kOff
  discreteInputs _ := .kOff
  holdingRegisters _ := 0
  inputRegisters _ := 0
  coils_named _ := Or.inr rfl
  discreteInputs_named _ := Or.inr rfl

/-- What a call that succeeds tells its caller: a read, what is in the buffer then. -/
inductive Told
  | read (op : ReadOp) (out : OutBuffer op.T)
  | written

namespace Call

/-! ### The operation -/

/-- The operation of a call, on the memory itself.  Values that there are no cells for are not
written. -/
def perform : Object Memory Call Told
  | m, read op address quantity out =>
    (m, .read op ⟨m.read op address quantity ++ out.drop quantity.toNat, []⟩)
  | m, writeSingle kind address value =>
    if h : kind.Accepts value then
      (m.write kind address [value] (List.forall_mem_singleton.mpr h), .written)
    else (m, .written)
  | m, writeMultiple kind address values =>
    if h : ∀ val ∈ values, kind.Accepts val then (m.write kind address values h, .written)
    else (m, .written)

theorem perform_writeSingle {kind : WriteKind} {address : UInt16} {value : kind.T}
    (h : kind.Accepts value) (m : Memory) : (writeSingle kind address value).perform m
      = (m.write kind address [value] (List.forall_mem_singleton.mpr h), .written) :=
  dif_pos h

theorem perform_writeMultiple {kind : WriteKind} {address : UInt16} {values : List kind.T}
    (h : ∀ val ∈ values, kind.Accepts val) (m : Memory) :
    (writeMultiple kind address values).perform m = (m.write kind address values h, .written) :=
  dif_pos h

/-! ### The code -/

def told (t : Transport σ) (s : σ) : Call → Except Exit Told
  | read op address quantity out =>
    match (executeRead t op address quantity).run ⟨s, [], ⟨out, []⟩⟩ with
    | .ok () s' => .ok (.read op s'.out)
    | .error e _ => .error e
  | writeSingle kind address value =>
    match (executeWriteSingle t kind address value).run ⟨s, [], ()⟩ with
    | .ok () _ => .ok .written
    | .error e _ => .error e
  | writeMultiple kind address values =>
    match (executeWriteMultiple t kind address values).run ⟨s, [], ()⟩ with
    | .ok () _ => .ok .written
    | .error e _ => .error e

/-- The PDU that a call hands to `SendRawRequest`, when it gets that far. -/
def request : Call → Option Bytes
  | read op address quantity out =>
    if out.length < quantity.toNat then none
    else
      match RangeMessage.create op.functionCode op.maxQuantity address quantity with
      | .ok request => serialized request.serialize
      | .error _ => none
  | writeSingle kind address value =>
    match SingleMessage.create kind kind.singleCode address value with
    | .ok request => serialized request.serialize
    | .error _ => none
  | writeMultiple kind address values =>
    match Request.WriteMultiple.create kind kind.multipleCode kind.maxQuantity address values with
    | .ok request => serialized request.serialize
    | .error _ => none

variable {t : Transport σ} {s : σ} {call : Call} {req : Bytes}

theorem request_of_sends (h : call.Sends req) : call.request = some req := by
  cases call with
  | read op address quantity out =>
    obtain ⟨hq, request, hreq, rfl⟩ := h
    rw [Call.request, if_neg (Nat.not_lt.mpr hq), hreq]
    exact serialized_eq request.writes_serialize (by simp [kMaxPduSize])
  | writeSingle kind address value =>
    obtain ⟨request, hreq, rfl⟩ := h
    rw [Call.request, hreq]
    exact serialized_eq request.writes_serialize (by simp [kMaxPduSize])
  | writeMultiple kind address values =>
    obtain ⟨request, hreq, rfl⟩ := h
    rw [Call.request, hreq]
    exact serialized_eq (writes_multipleRequest request).1 (writes_multipleRequest request).2

/-- **The request of a call** is what it sends. -/
theorem request_eq_some : call.request = some req ↔ call.Sends req := by
  constructor
  · intro h
    have hsends : ∃ req', call.Sends req' := by
      cases call with
      | read op address quantity out =>
        rw [Call.request] at h
        split at h
        · cases h
        · rename_i hq
          split at h
          · rename_i request hreq
            exact ⟨_, Nat.not_lt.mp hq, request, hreq, rfl⟩
          · cases h
      | writeSingle kind address value =>
        rw [Call.request] at h
        split at h
        · rename_i request hreq
          exact ⟨_, request, hreq, rfl⟩
        · cases h
      | writeMultiple kind address values =>
        rw [Call.request] at h
        split at h
        · rename_i request hreq
          exact ⟨_, request, hreq, rfl⟩
        · cases h
    obtain ⟨req', hsends⟩ := hsends
    rw [request_of_sends hsends, Option.some.injEq] at h
    exact h ▸ hsends
  · exact request_of_sends

/-! ### An honest answer -/

theorem told_read_of_reply {op : ReadOp} {address quantity : UInt16} {out : List op.T}
    {request : op.Request} {pdu : Bytes} {response : op.Response} (hq : quantity.toNat ≤ out.length)
    (hreq : RangeMessage.create op.functionCode op.maxQuantity address quantity = .ok request)
    (hreply : t.reply request.encode s = some pdu)
    (hdec : (Response.ReadMultiple.deserialize op.kind op.functionCode op.maxQuantity quantity).run
      pdu = .ok response []) :
    (read op address quantity out).told t s
      = .ok (.read op ((OutBuffer.mk out []).copy response.values)) := by
  have hreceived := received_eq_ok.mpr ⟨pdu, hreply, decode_eq_ok.mpr ⟨[], hdec⟩⟩
  rw [told, run_executeRead (s := ⟨s, [], ⟨out, []⟩⟩) hq hreq, hreceived]
  rfl

theorem exists_respond_read (op : ReadOp) (address quantity : UInt16) (out : List op.T)
    (h : (read op address quantity out).Sends req) (m : Memory) : ∃ pdu,
      Device.respond m req = some (((read op address quantity out).perform m).1, pdu) ∧
      pdu.length ≤ kMaxPduSize ∧ ∀ {σ : Type} (t : Transport σ) (s : σ),
        t.reply req s = some pdu → (read op address quantity out).told t s
          = .ok ((read op address quantity out).perform m).2 := by
  obtain ⟨hq, request, hreq, rfl⟩ := h
  obtain ⟨haddress, hquantity⟩ := RangeMessage.create_eq_ok.mp hreq
  obtain ⟨hrespond, hlen⟩ := Device.respond_read m request
  have hmax := op.payloadSize_le
  have hvalues : (Device.readResponse m request).values = m.read op address quantity := by
    rw [haddress, hquantity]
    rfl
  have hcount : (Device.readResponse m request).getQuantity = quantity := by
    refine UInt16.toNat_inj.mp ?_
    rw [Response.ReadMultiple.toNat_getQuantity, hvalues]
    exact m.length_read op _ _
  have hdec := (Device.readResponse m request).deserialize_encode (by omega)
    (m.named_read op _ _) []
  rw [hcount, List.append_nil] at hdec
  refine ⟨_, hrespond, hlen, fun t s hreply => ?_⟩
  rw [told_read_of_reply hq hreq hreply hdec, hvalues,
    OutBuffer.copy_of_le (by rwa [m.length_read]), m.length_read]
  rfl

/-- **An honest device performs the operation**, and its response tells the call what the
operation says. -/
theorem exists_respond (h : call.Sends req) (m : Memory) : ∃ pdu,
    Device.respond m req = some ((call.perform m).1, pdu) ∧ pdu.length ≤ kMaxPduSize ∧
      ∀ {σ : Type} (t : Transport σ) (s : σ), t.reply req s = some pdu →
        call.told t s = .ok (call.perform m).2 := by
  cases call with
  | read op address quantity out => exact exists_respond_read op address quantity out h m
  | writeSingle kind address value =>
    obtain ⟨request, hreq, rfl⟩ := h
    obtain ⟨rfl, rfl⟩ := SingleMessage.create_eq_ok.mp hreq
    have hdec : (SingleMessage.deserialize kind kind.singleCode).run request.encode
        = .ok request [] := SingleMessage.deserialize_eq_ok.mpr (List.append_nil _).symm
    rw [perform_writeSingle request.value_ok]
    refine ⟨_, Device.respond_writeSingle m request, by simp [kMaxPduSize], fun t s hreply => ?_⟩
    have hreceived := received_eq_ok.mpr ⟨_, hreply, decode_eq_ok.mpr ⟨[], hdec⟩⟩
    rw [told, run_executeWriteSingle hreq, hreceived]
    rfl
  | writeMultiple kind address values =>
    obtain ⟨request, hreq, rfl⟩ := h
    obtain ⟨rfl, rfl⟩ := Request.WriteMultiple.create_eq_ok.mp hreq
    have hdec : (RangeMessage.deserialize kind.multipleCode kind.maxQuantity).run
        (Device.confirmation request).encode = .ok (Device.confirmation request) [] :=
      RangeMessage.deserialize_eq_ok.mpr (List.append_nil _).symm
    rw [perform_writeMultiple request.values_ok]
    refine ⟨_, Device.respond_writeMultiple m request, by simp [kMaxPduSize],
      fun t s hreply => ?_⟩
    have hreceived := received_eq_ok.mpr ⟨_, hreply, decode_eq_ok.mpr ⟨[], hdec⟩⟩
    rw [told, run_executeWriteMultiple hreq, hreceived]
    rfl

/-! ### The other ends -/

theorem told_map (t : Transport σ) (s : σ) (call : Call) :
    (call.told t s).map (fun _ => ()) = call.result t s := by
  cases call with
  | read op address quantity out =>
    rw [told, result]
    cases (executeRead t op address quantity).run ⟨s, [], ⟨out, []⟩⟩ <;> rfl
  | writeSingle kind address value =>
    rw [told, result]
    cases (executeWriteSingle t kind address value).run ⟨s, [], ()⟩ <;> rfl
  | writeMultiple kind address values =>
    rw [told, result]
    cases (executeWriteMultiple t kind address values).run ⟨s, [], ()⟩ <;> rfl

theorem transportState_of_sends (h : call.Sends req) :
    call.transportState t s = (t.send req s).state := by
  obtain ⟨β, R, out, deserialize, k, _, hends⟩ := ends_of_sends h
  rw [transportState, hends, transport_finished]

theorem transportState_of_refused (h : ∀ req, ¬ call.Sends req) :
    call.transportState t s = s := by
  obtain ⟨β, out, hends⟩ := ends_of_refused h
  rw [transportState, hends]
  rfl

theorem told_eq_error {e : Exit} : call.told t s = .error e ↔ call.result t s = .error e := by
  rw [← told_map]
  cases call.told t s with
  | ok told => simp [Except.map]
  | error e' => simp [Except.map]

/-- Calls one after another: what they tell, and the state they leave the transport in. -/
def runAll (t : Transport σ) : List Call → σ → List (Except Exit Told) × σ
  | [], s => ([], s)
  | call :: calls, s =>
    (call.told t s :: (runAll t calls (call.transportState t s)).1,
      (runAll t calls (call.transportState t s)).2)

instance : DecidablePred Valid
  | read op address quantity out => inferInstanceAs (Decidable
      (1 ≤ quantity.toNat ∧ quantity.toNat ≤ op.maxQuantity.toNat ∧
        address.toNat + quantity.toNat ≤ 0x10000 ∧ quantity.toNat ≤ out.length))
  | writeSingle kind _ value => inferInstanceAs (Decidable (kind.Accepts value))
  | writeMultiple kind address values => inferInstanceAs (Decidable
      (1 ≤ values.length ∧ values.length ≤ kind.maxQuantity.toNat ∧
        address.toNat + values.length ≤ 0x10000 ∧ ∀ val ∈ values, kind.Accepts val))

end Call

end Modbus
