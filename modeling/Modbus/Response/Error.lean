import Modbus.Utils

/-!
# `response::ErrorResponse`

A device's refusal: the function code of the request with `kErrorFlag` set, and
an exception code.
-/

namespace Modbus.Response

open Span

structure ErrorResponse where
  functionCode : FunctionCode
  exceptionCode : ExceptionCode
deriving DecidableEq, Repr

namespace ErrorResponse

def kEncodedSize : Nat := 2

/-- There is nothing to check. -/
def create (functionCode : FunctionCode) (exceptionCode : ExceptionCode) :
    Except ParseError ErrorResponse :=
  .ok ⟨functionCode, exceptionCode⟩

/-- Both bytes are looked at before the span moves. -/
def deserialize : Reader ErrorResponse := fun buffer =>
  match buffer with
  | rawFc :: rawEc :: rest =>
    if ¬ isErrorFunctionCode rawFc then .error .kInvalidFunctionCode buffer
    else if ¬ isValidExceptionCode rawEc then .error .kInvalidExceptionCode buffer
    else (lift (create ⟨toNormalFunctionCode rawFc⟩ ⟨rawEc⟩)).run rest
  | _ => .error .kBufferTooShort buffer

def serialize (m : ErrorResponse) : Writer := do
  requireRoom kEncodedSize .kBufferTooShort
  writeBe (toErrorFunctionCode m.functionCode.raw)
  writeBe m.exceptionCode.raw

theorem deserialize_eq_ok {b rest : Bytes} {m : ErrorResponse} :
    deserialize.run b = .ok m rest ↔ ∃ rawFc rawEc, b = rawFc :: rawEc :: rest ∧
      isErrorFunctionCode rawFc ∧ isValidExceptionCode rawEc ∧
      m = ⟨⟨toNormalFunctionCode rawFc⟩, ⟨rawEc⟩⟩ := by
  constructor
  · intro h
    match b, h with
    | rawFc :: rawEc :: tail, h =>
      change (if _ then _ else _ : EStateM.Result ParseError Bytes ErrorResponse) = _ at h
      split at h
      · cases h
      · rename_i hfc
        split at h
        · cases h
        · rename_i hec
          cases h
          exact ⟨rawFc, rawEc, rfl, not_not.mp hfc, not_not.mp hec, rfl⟩
  · intro h
    obtain ⟨rawFc, rawEc, rfl, hfc, hec, rfl⟩ := h
    show (if _ then _ else _ : EStateM.Result ParseError Bytes ErrorResponse) = _
    rw [if_neg (not_not.mpr hfc), if_neg (not_not.mpr hec)]
    rfl

theorem run_deserialize_of_lt {b : Bytes} (h : b.length < kEncodedSize) :
    deserialize.run b = .error .kBufferTooShort b := by
  match b, h with
  | [], _ => rfl
  | [_], _ => rfl

end ErrorResponse

end Modbus.Response
