/-!
# Binary floating-point numbers

A number in the 64-bit binary format, held as its bits, so that two numbers are equal exactly when
their bits are: a zero keeps its sign and a number that is no number equals itself. A finite number
stands for `± significand · 2 ^ exponent`.
-/

namespace Clausal.Decimal

/-- A 64-bit binary floating-point number. -/
structure Binary64 where
  bits : UInt64
deriving DecidableEq

namespace Binary64

/-- The number is below zero or a negative zero. -/
def isNegative (x : Binary64) : Bool := x.bits >>> 63 == 1

/-- The eleven bits of the exponent. -/
def exponentField (x : Binary64) : Nat := ((x.bits >>> 52) &&& 0x7FF).toNat

/-- The 52 bits of the fraction. -/
def fractionField (x : Binary64) : Nat := (x.bits &&& 0xFFFFFFFFFFFFF).toNat

/-- The number is neither infinite nor a NaN. -/
def isFinite (x : Binary64) : Bool := x.exponentField != 0x7FF

/-- The number is not a number. -/
def isNaN (x : Binary64) : Bool := x.exponentField == 0x7FF && x.fractionField != 0

/-- The whole number `m` of `± m · 2 ^ q`. -/
def significand (x : Binary64) : Nat :=
  if x.exponentField = 0 then x.fractionField else Nat.pow 2 52 + x.fractionField

/-- The exponent `q` of `± m · 2 ^ q`. -/
def exponent (x : Binary64) : Int :=
  if x.exponentField = 0 then -1074 else (x.exponentField : Int) - 1075

/-- The number below is half as far away as the number above. -/
def narrowBelow (x : Binary64) : Bool := x.fractionField == 0 && decide (1 < x.exponentField)

/-- Positive infinity. -/
def infinity : Binary64 := ⟨0x7FF0000000000000⟩

/-- The NaN that reading a text gives. -/
def nan : Binary64 := ⟨0x7FF8000000000000⟩

/-- Positive zero. -/
def zero : Binary64 := ⟨0⟩

/-- The number with the opposite sign. -/
def neg (x : Binary64) : Binary64 := ⟨x.bits ^^^ 0x8000000000000000⟩

/-- The number that a machine float holds. -/
def ofFloat (x : Float) : Binary64 := ⟨x.toBits⟩

/-- The number nearest to `m · 10 ^ e`. Far outside the range it is infinite or zero. -/
def ofDecimal (m : Nat) (e : Int) : Binary64 :=
  if m = 0 then zero
  else if 400 < e then infinity
  else if e + (Nat.toDigits 10 m).length < -400 then zero
  else if 0 ≤ e then ofFloat (Float.ofScientific m false e.toNat)
  else ofFloat (Float.ofScientific m true (-e).toNat)

end Binary64

end Clausal.Decimal
