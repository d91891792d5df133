import Clausal.Decimal.Reading
import Clausal.Json.Reader
import Clausal.Toml.Basic

/-!
# TOML scalars

Numbers, dates and the characters of strings. Digits may be divided by single underscores.
-/

namespace Clausal.Toml

open Decimal (Binary64)

/-- Digits with the underscores between them taken out; each underscore stands between two
digits. -/
def ungroup? (isDigit : Char → Bool) (cs : List Char) : Option (List Char) :=
  let groups := Text.pieces '_' cs
  if groups.all (fun g => !g.isEmpty && g.all isDigit) then some groups.flatten else none

/-- The number that digits spell in a base. -/
def valueInBase (base : Nat) (cs : List Char) : Option Nat :=
  cs.foldlM (fun n c => (Json.hexValue? c).map fun d => base * n + d) 0

/-- A digit of a base up to ten, or a hexadecimal digit. -/
def isDigitOf (base : Nat) (c : Char) : Bool :=
  match Json.hexValue? c with
  | some d => d < base
  | none => false

/-- Whole digits: no leading zero unless it is the only digit. -/
def wholeDigits? (cs : List Char) : Option (List Char) := do
  let ds ← ungroup? Char.isDigit cs
  match ds with
  | '0' :: _ :: _ => none
  | ds => some ds

/-- An integer that fits 64 bits. -/
def int64? (n : Int) : Option Toml :=
  if Int64.minValue.toInt ≤ n ∧ n ≤ Int64.maxValue.toInt then some (.int (Int64.ofInt n)) else none

/-- An integer, in base ten or in a marked base. -/
def integer? : List Char → Option Toml
  | '0' :: 'x' :: cs => marked 16 cs
  | '0' :: 'o' :: cs => marked 8 cs
  | '0' :: 'b' :: cs => marked 2 cs
  | cs => do
    let (minus, cs) := Decimal.takeSign cs
    let n := Decimal.digitsValue (← wholeDigits? cs)
    int64? (if minus then -(n : Int) else n)
where
  /-- The digits after the mark of a base. -/
  marked (base : Nat) (cs : List Char) : Option Toml := do
    let n ← valueInBase base (← ungroup? (isDigitOf base) cs)
    int64? n

/-- The exponent of a float, with leading zeros allowed. -/
def exponent? : List Char → Option Int
  | [] => some 0
  | c :: cs =>
    if c = 'e' ∨ c = 'E' then do
      let (minus, cs) := Decimal.takeSign cs
      let n := Decimal.digitsValue (← ungroup? Char.isDigit cs)
      some (if minus then -(n : Int) else n)
    else none

/-- A decimal numeral with a fraction or an exponent. A positive one must not be too large. -/
def decimal? (cs : List Char) : Option Binary64 := do
  let (minus, cs) := Decimal.takeSign cs
  let isGroup (c : Char) : Bool := c.isDigit || c = '_'
  let whole ← wholeDigits? (cs.takeWhile isGroup)
  let rest := cs.dropWhile isGroup
  let (fraction, rest) ←
    match rest with
    | '.' :: rest =>
      do some (← ungroup? Char.isDigit (rest.takeWhile isGroup), rest.dropWhile isGroup)
    | [] => none
    | rest => some ([], rest)
  let e ← exponent? rest
  let x := Binary64.ofDecimal (Decimal.digitsValue (whole ++ fraction)) (e - fraction.length)
  if minus then some x.neg else if x.isFinite then some x else none

/-- A floating-point number: a decimal, or one of the words for infinities and NaN. -/
def float? (cs : List Char) : Option Toml :=
  let (minus, word) := Decimal.takeSign cs
  let special (x : Binary64) : Option Toml := some (.float (if minus then x.neg else x))
  if word = "inf".toList then special Binary64.infinity
  else if word = "nan".toList then special Binary64.nan
  else (decimal? cs).map .float

/-- A fixed number of digits with a value between two bounds. -/
def bounded? (count low high : Nat) (cs : List Char) : Option Nat :=
  if cs.length = count ∧ cs.all Char.isDigit then
    let n := Decimal.digitsValue cs
    if low ≤ n ∧ n ≤ high then some n else none
  else none

/-- The number of days of a month. -/
def daysIn (year month : Nat) : Nat :=
  if month = 2 then
    if year % 4 = 0 ∧ (year % 100 ≠ 0 ∨ year % 400 = 0) then 29 else 28
  else if month = 4 ∨ month = 6 ∨ month = 9 ∨ month = 11 then 30
  else 31

/-- A date: year, month and day divided by dashes. -/
def isDay (cs : List Char) : Bool :=
  match Text.pieces '-' cs with
  | [y, m, d] =>
    match bounded? 4 0 9999 y, bounded? 2 1 12 m with
    | some year, some month => (bounded? 2 1 (daysIn year month) d).isSome
    | _, _ => false
  | _ => false

/-- A time: hour, minute and second divided by colons, with an optional fraction. -/
def isTime (cs : List Char) : Bool :=
  let (clock, fraction) :=
    match cs.span (· != '.') with
    | (clock, '.' :: fraction) => (clock, some fraction)
    | (clock, _) => (clock, none)
  let fractionFine :=
    match fraction with
    | some ds => !ds.isEmpty && ds.all Char.isDigit
    | none => true
  match Text.pieces ':' clock with
  | [h, m, s] =>
    fractionFine && (bounded? 2 0 23 h).isSome && (bounded? 2 0 59 m).isSome &&
      (bounded? 2 0 60 s).isSome
  | _ => false

/-- A time with an optional offset, and its normal form. -/
def zonedTime? (cs : List Char) : Option (List Char) :=
  let clock := cs.takeWhile fun c => c.isDigit || c = ':' || c = '.'
  let offset := cs.dropWhile fun c => c.isDigit || c = ':' || c = '.'
  if isTime clock then
    match offset with
    | [] => some clock
    | ['Z'] | ['z'] => some (clock ++ ['Z'])
    | sign :: rest =>
      if sign = '+' ∨ sign = '-' then
        match Text.pieces ':' rest with
        | [h, m] =>
          if (bounded? 2 0 23 h).isSome && (bounded? 2 0 59 m).isSome then some cs else none
        | _ => none
      else none
  else none

/-- A date, a time, or a date and a time. -/
def date? (cs : List Char) : Option Toml :=
  if isDay cs then some (.date (String.ofList cs))
  else if isTime cs then some (.date (String.ofList cs))
  else
    let day := cs.take 10
    match cs.drop 10 with
    | mark :: time =>
      if isDay day ∧ (mark = 'T' ∨ mark = 't' ∨ mark = ' ') then
        (zonedTime? time).map fun time => .date (String.ofList (day ++ 'T' :: time))
      else none
    | [] => none

/-- What a word of digits and letters stands for. -/
def scalar? (cs : List Char) : Option Toml :=
  if cs = "true".toList then some (.bool true)
  else if cs = "false".toList then some (.bool false)
  else (date? cs).or ((float? cs).or (integer? cs))

/-- A character of a number, a date or a fixed word. -/
def isWordChar (c : Char) : Bool :=
  c.isAlphanum || c = '_' || c = '+' || c = '-' || c = '.' || c = ':'

/-- Reads a number, a date or a fixed word. Between a date and a time there may be a blank. -/
def readScalar? (cs : List Char) : Option (Toml × List Char) :=
  let word := cs.takeWhile isWordChar
  let rest := cs.dropWhile isWordChar
  match rest with
  | ' ' :: d :: more =>
    if isDay word && d.isDigit then
      let time := (d :: more).takeWhile isWordChar
      (scalar? (word ++ ' ' :: time)).map (·, (d :: more).dropWhile isWordChar)
    else (scalar? word).map (·, rest)
  | _ => (scalar? word).map (·, rest)

/-- A character that may stand in a text of one line: no control character but the tab. -/
def isTextChar (c : Char) : Bool := c = '\t' || (32 ≤ c.toNat && c.toNat ≠ 127)

/-- The character with a hexadecimal code, if there is one. -/
def charOfHex? (cs : List Char) : Option Char := do
  let n ← valueInBase 16 cs
  if n < 0xD800 ∨ (0xE000 ≤ n ∧ n ≤ 0x10FFFF) then some (Char.ofNat n) else none

/-- Reads what follows a backslash. -/
def readEscape? : List Char → Option (Char × List Char)
  | 'b' :: cs => some ('\x08', cs)
  | 't' :: cs => some ('\t', cs)
  | 'n' :: cs => some ('\n', cs)
  | 'f' :: cs => some ('\x0c', cs)
  | 'r' :: cs => some ('\r', cs)
  | '\x22' :: cs => some ('\x22', cs)
  | '\\' :: cs => some ('\\', cs)
  | 'u' :: cs => if 4 ≤ cs.length then (charOfHex? (cs.take 4)).map (·, cs.drop 4) else none
  | 'U' :: cs => if 8 ≤ cs.length then (charOfHex? (cs.take 8)).map (·, cs.drop 8) else none
  | _ => none

end Clausal.Toml
