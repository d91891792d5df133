import Clausal.Decimal.Reading
import Clausal.Json.Basic

/-!
# JSON numbers

A numeral is read as a 64-bit integer where its digits allow it. Otherwise its leading digits, as
many as fit a 64-bit word, are scaled by the power of ten that remains, in floating-point
arithmetic; the scaling may round once more than reading the numeral exactly would. Numerals beyond
the largest number are refused, those below the smallest are zero.
-/

namespace Clausal.Json

open Decimal (Binary64)

/-- The parts of a numeral: sign, whole digits, fraction digits and exponent. -/
structure Numeral where
  minus : Bool
  whole : List Char
  fraction : List Char
  /-- The exponent, if one is written. -/
  exponent : Option Int

/-- The largest 64-bit word. -/
def maxWord : Nat := UInt64.size - 1

/-- Takes digits into a word as long as they fit; also the number of digits taken. -/
def absorb (word taken : Nat) : List Char → Nat × Nat
  | [] => (word, taken)
  | c :: cs =>
    let next := 10 * word + (c.toNat - 48)
    if maxWord < next then (word, taken) else absorb next (taken + 1) cs

/-- The power of ten `10 ^ n` in floating-point arithmetic. -/
def powerOfTen (n : Nat) : Float := Float.ofScientific 1 false n

/-- Scales by `10 ^ e`, in steps of at most 308 digits; nothing if the result is too large. -/
def scale? (x : Float) (e : Int) : Nat → Option Float
  | 0 => some x
  | steps + 1 =>
    if e.natAbs ≤ 308 then
      if 0 ≤ e then
        let y := x * powerOfTen e.natAbs
        if y.isInf then none else some y
      else some (x / powerOfTen e.natAbs)
    else if x == 0.0 then some x
    else if 0 ≤ e then none
    else scale? (x / powerOfTen 308) (e + 308) steps

/-- The floating-point number that a numeral stands for. -/
def Numeral.float? (n : Numeral) : Option Binary64 :=
  let (word, takenWhole) := absorb 0 0 n.whole
  let (word, takenFraction) := absorb word 0 n.fraction
  let e := n.exponent.getD 0 + (n.whole.length - takenWhole : Nat) - takenFraction
  (scale? word.toUInt64.toFloat e 5).map fun x =>
    let x := Binary64.ofFloat x
    if n.minus then x.neg else x

/-- The document that a numeral stands for. -/
def Numeral.value? (n : Numeral) : Option Json :=
  let m := Decimal.digitsValue n.whole
  if n.fraction.isEmpty && n.exponent.isNone then
    if n.minus then
      if 0 < m ∧ m ≤ Nat.pow 2 63 then some (.int (Int64.ofInt (-(m : Int))))
      else n.float?.map .float
    else if m < Nat.pow 2 63 then some (.int (Int64.ofInt m))
    else n.float?.map .float
  else n.float?.map .float

/-- Whole digits without a superfluous leading zero. -/
def readWhole? (cs : List Char) : Option (List Char × List Char) :=
  let ds := cs.takeWhile Char.isDigit
  let rest := cs.dropWhile Char.isDigit
  match ds with
  | [] => none
  | '0' :: _ :: _ => none
  | ds => some (ds, rest)

/-- A point and at least one digit, or nothing. -/
def readFraction? : List Char → Option (List Char × List Char)
  | '.' :: cs =>
    let ds := cs.takeWhile Char.isDigit
    if ds.isEmpty then none else some (ds, cs.dropWhile Char.isDigit)
  | cs => some ([], cs)

/-- An exponent mark, an optional sign and at least one digit, or nothing. -/
def readPower? : List Char → Option (Option Int × List Char)
  | c :: cs =>
    if c = 'e' ∨ c = 'E' then
      let (minus, ds) := Decimal.takeSign cs
      let digits := ds.takeWhile Char.isDigit
      if digits.isEmpty then none
      else
        let n := Decimal.digitsValue digits
        some (some (if minus then -(n : Int) else n), ds.dropWhile Char.isDigit)
    else some (none, c :: cs)
  | [] => some (none, [])

/-- Reads a numeral at the head of a text. -/
def readNumber? (cs : List Char) : Option (Json × List Char) := do
  let (minus, cs) :=
    match cs with
    | '-' :: cs => (true, cs)
    | cs => (false, cs)
  let (whole, cs) ← readWhole? cs
  let (fraction, cs) ← readFraction? cs
  let (exponent, cs) ← readPower? cs
  let value ← Numeral.value? ⟨minus, whole, fraction, exponent⟩
  return (value, cs)

end Clausal.Json
