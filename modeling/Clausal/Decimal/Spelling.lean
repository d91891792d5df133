import Clausal.Decimal.Shortest

/-!
# Writing decimals

How a floating-point number is spelled: the digits are the shortest that read back, and a `Style`
says which magnitudes are written without an exponent and what an exponent looks like.
-/

namespace Clausal.Decimal

/-- A spelling of floating-point numbers. -/
structure Style where
  /-- The least power of ten that is written without an exponent. -/
  leastPlain : Int
  /-- Powers of ten from here on are written with an exponent. -/
  plainEnd : Int
  /-- The mark between digits and exponent when the exponent is not negative. -/
  mark : String
  tie : Tie

/-- Numbers in SQL text and in messages: `0.0001` to `9999999999999998.0` are written in full. -/
def Style.readable : Style := ⟨-4, 16, "e", .up⟩

/-- Numbers in JSON text: written in full from `0.00001` on, and exponents carry their sign. -/
def Style.json : Style := ⟨-5, 16, "e+", .even⟩

/-- Zeros as text. -/
def zeros (n : Nat) : String := String.ofList (List.replicate n '0')

/-- The digits in full, with a decimal point after the first `point` of them. -/
def plainText (digits : List Char) (point : Int) : String :=
  if point ≤ 0 then "0." ++ zeros (-point).toNat ++ String.ofList digits
  else
    let whole := digits.take point.toNat
    let fraction := digits.drop point.toNat
    String.ofList whole ++ zeros (point.toNat - digits.length) ++ "." ++
      (if fraction.isEmpty then "0" else String.ofList fraction)

/-- One digit before the point, then the others, then the exponent. -/
def scientificText (style : Style) (digits : List Char) (power : Int) : String :=
  let head := String.ofList (digits.take 1)
  let tail := digits.drop 1
  let mantissa := if tail.isEmpty then head else head ++ "." ++ String.ofList tail
  if power < 0 then mantissa ++ "e-" ++ Nat.repr (-power).toNat
  else mantissa ++ style.mark ++ Nat.repr power.toNat

/-- The text of a finite number. -/
def Style.finiteText (style : Style) (x : Binary64) : String :=
  let sign := if x.isNegative then "-" else ""
  if x.significand = 0 then sign ++ "0.0"
  else
    let d := x.shortest style.tie
    let digits := Nat.toDigits 10 d.digits
    let point : Int := d.scale + digits.length
    let power := point - 1
    sign ++
      (if style.leastPlain ≤ power ∧ power < style.plainEnd then plainText digits point
       else scientificText style digits power)

/-- The readable text of any number. -/
def Binary64.readable (x : Binary64) : String :=
  if x.isFinite then Style.readable.finiteText x
  else if x.isNaN then "NaN"
  else if x.isNegative then "-inf"
  else "inf"

end Clausal.Decimal
