import Clausal.Decimal.Binary64
import Clausal.Text.Pieces

/-!
# Reading decimals

A decimal numeral as whole digits, fraction digits and exponent, and the number nearest to it. The
words for infinities and NaN are read too, in any case.
-/

namespace Clausal.Decimal

/-- The number that a list of decimal digits spells. -/
def digitsValue (cs : List Char) : Nat :=
  cs.foldl (fun n c => 10 * n + (c.toNat - 48)) 0

/-- An optional sign and the text after it; `true` is minus. -/
def takeSign : List Char → Bool × List Char
  | '-' :: cs => (true, cs)
  | '+' :: cs => (false, cs)
  | cs => (false, cs)

/-- The exponent part of a numeral: nothing, or a mark, a sign and digits. -/
def readExponent? : List Char → Option Int
  | [] => some 0
  | c :: cs =>
    if c = 'e' ∨ c = 'E' then
      let (minus, ds) := takeSign cs
      if ds.isEmpty || !ds.all Char.isDigit then none
      else
        let n := digitsValue ds
        some (if minus then -(n : Int) else n)
    else none

/-- An unsigned numeral: digits with an optional point and exponent, at least one digit. -/
def readUnsigned? (cs : List Char) : Option Binary64 :=
  let whole := cs.takeWhile Char.isDigit
  let rest := cs.dropWhile Char.isDigit
  let (fraction, rest) :=
    match rest with
    | '.' :: rest => (rest.takeWhile Char.isDigit, rest.dropWhile Char.isDigit)
    | rest => ([], rest)
  if whole.isEmpty && fraction.isEmpty then none
  else
    (readExponent? rest).map fun e =>
      Binary64.ofDecimal (digitsValue (whole ++ fraction)) (e - fraction.length)

/-- The number nearest to a numeral. -/
def Binary64.read? (s : String) : Option Binary64 :=
  let (minus, cs) := takeSign s.toList
  let word := Text.lower (String.ofList cs)
  let magnitude :=
    if word = "inf" ∨ word = "infinity" then some Binary64.infinity
    else if word = "nan" then some Binary64.nan
    else readUnsigned? cs
  magnitude.map fun x => if minus then x.neg else x

end Clausal.Decimal
