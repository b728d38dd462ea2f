import Modbus.Library.ByteBits
import Modbus.Library.ReflectedCrc
import Modbus.Values

/-!
# `crc.hpp`

The checksum comes from `boost::crc_optimal`, which is not part of the repository.
`CrcOptimal` holds the members that are called and the one thing that the frame
code relies on, that a block of bytes is processed like its bytes one at a time.
`CrcOptimal.IsReflected` is the other thing that is known of the type: which
checksum it is.  `CrcOptimal.bitwise` is an implementation that does both.
-/

namespace Modbus

open ByteBits ReflectedCrc

/-- `boost::crc_optimal<Bits, TruncPoly, InitRem, FinalXor, ReflectIn, ReflectRem>` -/
structure CrcOptimal (bits : Nat) (truncPoly initRem finalXor : BitVec bits)
    (reflectIn reflectRem : Bool) where
  State : Type
  init : State
  processByte : State → UInt8 → State
  processBytes : State → Bytes → State
  checksum : State → BitVec bits
  processBytes_nil : ∀ s, processBytes s [] = s
  processBytes_cons : ∀ s b bs, processBytes s (b :: bs) = processBytes (processByte s b) bs

namespace CrcOptimal

variable {bits : Nat} {truncPoly initRem finalXor : BitVec bits}

/-- The bit-reflected CRC: bytes go in least significant bit first, into a register
that holds the polynomial and the initial value reflected. -/
def IsReflected (crc : CrcOptimal bits truncPoly initRem finalXor true true) : Prop :=
  ∀ bytes, crc.checksum (crc.processBytes crc.init bytes)
    = run truncPoly.reverse initRem.reverse (ofBytes bytes) ^^^ finalXor

/-- The register itself, one bit at a time. -/
def bitwise (truncPoly initRem finalXor : BitVec bits) :
    CrcOptimal bits truncPoly initRem finalXor true true where
  State := BitVec bits
  init := initRem.reverse
  processByte r b := run truncPoly.reverse r (ofByte b)
  processBytes r bytes := bytes.foldl (fun r b => run truncPoly.reverse r (ofByte b)) r
  checksum r := r ^^^ finalXor
  processBytes_nil _ := rfl
  processBytes_cons _ _ _ := rfl

theorem foldl_run (p : BitVec bits) (bytes : Bytes) (r : BitVec bits) :
    bytes.foldl (fun r b => run p r (ofByte b)) r = run p r (ofBytes bytes) := by
  induction bytes generalizing r with
  | nil => rfl
  | cons b bytes ih => rw [List.foldl_cons, ih, ofBytes_cons, run_append]

theorem isReflected_bitwise (truncPoly initRem finalXor : BitVec bits) :
    (bitwise truncPoly initRem finalXor).IsReflected := fun bytes =>
  congrArg (· ^^^ finalXor) (foldl_run truncPoly.reverse bytes initRem.reverse)

end CrcOptimal

abbrev kCrcBits : Nat := 16
def kCrcPolynomial : BitVec kCrcBits := 0x8005#16
def kCrcInitialValue : BitVec kCrcBits := 0xFFFF#16
def kCrcFinalXor : BitVec kCrcBits := 0#16

abbrev CrcType :=
  CrcOptimal kCrcBits kCrcPolynomial kCrcInitialValue kCrcFinalXor true true

/-- A `CrcType` that computes. -/
def bitwiseCrc : CrcType := .bitwise kCrcPolynomial kCrcInitialValue kCrcFinalXor

theorem isReflected_bitwiseCrc : bitwiseCrc.IsReflected :=
  CrcOptimal.isReflected_bitwise kCrcPolynomial kCrcInitialValue kCrcFinalXor

/-- An empty span never gets as far as the checksum. -/
def calcCrc (crc : CrcType) (buffer : Bytes) : UInt16 :=
  if buffer.isEmpty then ⟨kCrcInitialValue⟩
  else ⟨crc.checksum (crc.processBytes crc.init buffer)⟩

/-- The polynomial as the register holds it: `x^16 + x^15 + x^2 + 1`, reflected. -/
theorem reverse_kCrcPolynomial : kCrcPolynomial.reverse = 0xA001#16 := by decide

theorem reverse_kCrcInitialValue : kCrcInitialValue.reverse = 0xFFFF#16 := by decide

theorem msb_polynomial : (0xA001#16).msb = true := by decide

/-- The polynomial has an odd number of set bits besides its leading one, so it is
divisible by `x + 1`. -/
theorem parity_polynomial : parity (0xA001#16).getLsbD 16 = true := by decide

/-- `x` has an order of more than `2047` modulo the polynomial. -/
theorem returnsWithin_polynomial : returnsWithin 0xA001#16 2047 0xA001#16 = false := by
  decide +kernel

end Modbus
