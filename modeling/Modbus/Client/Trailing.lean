import Modbus.Client.Calls

/-!
# Trailing bytes

Decoders leave what comes after a message to their caller.  The operations of a client are
such callers, and none of them looks at what its decoder has left: `kExtraDataAtEnd` is
named by `ParseError` and returned by nothing.

* `Call.decodes_iff`: a call decodes what starts with a well-formed response to it.
* `Call.rejectsTrailing_iff`: trailing bytes are rejected when there are none.
-/

namespace Modbus

open Span Transport

variable {σ : Type}

namespace Call

/-! ### The responses to a call -/

def Response : Call → Type
  | read op _ _ _ => op.Response
  | writeSingle kind _ _ => kind.Single
  | writeMultiple kind _ _ => kind.MultipleResponse

def responseCodec : (call : Call) → Codec call.Response
  | read op _ quantity _ =>
    Response.ReadMultiple.codec op.kind op.functionCode op.maxQuantity quantity
  | writeSingle kind _ _ => SingleMessage.codec kind kind.singleCode
  | writeMultiple kind _ _ => RangeMessage.codec kind.multipleCode kind.maxQuantity

/-- The bytes of a response to the call, with nothing before or after them. -/
def WellFormedResponse : Call → Bytes → Prop
  | read op _ quantity _ =>
    Response.ReadMultiple.WellFormed op.kind op.functionCode op.maxQuantity quantity
  | writeSingle kind _ _ => SingleMessage.WellFormed kind kind.singleCode
  | writeMultiple kind _ _ => RangeMessage.WellFormed kind.multipleCode kind.maxQuantity

theorem recognizes (call : Call) : call.responseCodec.Recognizes call.WellFormedResponse := by
  cases call with
  | read op address quantity out =>
    exact Response.ReadMultiple.recognizes _ (op.payloadSize_le.trans (by decide)) quantity
  | writeSingle kind address value => exact SingleMessage.recognizes kind _
  | writeMultiple kind address values => exact RangeMessage.recognizes _ _

/-- **A call decodes what starts with a response to it.** -/
theorem decodes_iff {call : Call} {pdu : Bytes} :
    call.Decodes pdu ↔ StartsWith call.WellFormedResponse pdu := by
  rw [← call.recognizes.exists_run]
  cases call <;> simp only [Decodes, decode_eq_ok] <;> rfl

/-! ### What is left -/

/-- A call succeeds on a PDU as long as the response that it decoded from it, and a PDU that
goes on behind a response is answered with `kInvalidResponse`. -/
structure RejectsTrailing (t : Transport σ) (s : σ) (call : Call) : Prop where
  exact_length : call.result t s = .ok () → ∃ pdu m rest, call.Replied t s pdu ∧
    call.responseCodec.deserialize.run pdu = .ok m rest ∧
      pdu.length = call.responseCodec.encodedSize m
  rejects : ∀ response extra, call.WellFormedResponse response → extra ≠ [] →
    call.Replied t s (response ++ extra) → call.result t s = .error (.error .kInvalidResponse)

/-- **No trailing byte is ever rejected**: a call does what it should about them exactly when
the PDU that it gets is not a response with something behind it. -/
theorem rejectsTrailing_iff (t : Transport σ) (s : σ) (call : Call) :
    RejectsTrailing t s call ↔ ∀ response extra, call.WellFormedResponse response →
      extra ≠ [] → ¬ call.Replied t s (response ++ extra) := by
  constructor
  · intro h response extra hresponse hextra hreplied
    have hok := result_eq_ok.mpr ⟨_, hreplied, decodes_iff.mpr ⟨response, extra, rfl, hresponse⟩⟩
    rw [h.rejects response extra hresponse hextra hreplied] at hok
    cases hok
  · intro h
    refine ⟨fun hok => ?_, fun response extra hresponse hextra hreplied =>
      absurd hreplied (h response extra hresponse hextra)⟩
    obtain ⟨pdu, hreplied, hdec⟩ := result_eq_ok.mp hok
    obtain ⟨m, rest, hrun⟩ := call.recognizes.exists_run.mpr (decodes_iff.mp hdec)
    obtain ⟨response, rfl, hresponse, hsize⟩ := call.recognizes.sound _ m rest hrun
    refine ⟨_, m, rest, hreplied, hrun, ?_⟩
    -- nothing is behind the response
    obtain rfl : rest = [] := by
      by_contra hrest
      exact h response rest hresponse hrest hreplied
    rw [List.append_nil, hsize]

/-- A write to register `1` is confirmed, with one byte too many, and succeeds. -/
theorem not_rejectsTrailing_register :
    (writeSingle .register 1 7).result (answering [0x06, 0, 1, 0, 7, 0xEE]) () = .ok () ∧
      ¬ RejectsTrailing (answering [0x06, 0, 1, 0, 7, 0xEE]) () (writeSingle .register 1 7) := by
  have hok : (writeSingle .register 1 7).result (answering [0x06, 0, 1, 0, 7, 0xEE]) ()
      = .ok () := by decide +kernel
  have hresponse : (writeSingle .register 1 7).WellFormedResponse [0x06, 0, 1, 0, 7] :=
    ⟨1, 7, rfl, fun h => by cases h⟩
  have hreplied : (writeSingle .register 1 7).Replied (answering [0x06, 0, 1, 0, 7, 0xEE]) ()
      ([0x06, 0, 1, 0, 7] ++ [0xEE]) :=
    ⟨[0x06, 0, 1, 0, 7], ⟨⟨1, 7, trivial⟩, rfl, rfl⟩, reply_answering (by decide) _⟩
  refine ⟨hok, fun h => ?_⟩
  rw [h.rejects _ _ hresponse (by decide) hreplied] at hok
  cases hok

end Call

end Modbus
