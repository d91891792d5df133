import Clausal.Json.Number

/-!
# Reading JSON

A strict reader: no comments, no superfluous commas, no raw control characters, no halves of
surrogate pairs, nothing but blanks around the document. Of a repeated key the first position and
the last value count. Arrays and objects may be nested up to a limit.
-/

namespace Clausal.Json

/-- Drops blanks. -/
def skipBlanks (cs : List Char) : List Char :=
  cs.dropWhile fun c => c = ' ' || c = '\n' || c = '\r' || c = '\t'

/-- The value of a hexadecimal digit. -/
def hexValue? (c : Char) : Option Nat :=
  if c.isDigit then some (c.toNat - 48)
  else if 'a' ≤ c ∧ c ≤ 'f' then some (c.toNat - 87)
  else if 'A' ≤ c ∧ c ≤ 'F' then some (c.toNat - 55)
  else none

/-- The value of four hexadecimal digits. -/
def hexUnit? (a b c d : Char) : Option Nat := do
  return 4096 * (← hexValue? a) + 256 * (← hexValue? b) + 16 * (← hexValue? c) + (← hexValue? d)

/-- Reads a code unit and, for the first half of a surrogate pair, the second half after it. -/
def readUnits? : List Char → Option (Char × List Char)
  | a :: b :: c :: d :: rest => do
    let n ← hexUnit? a b c d
    if 0xDC00 ≤ n ∧ n ≤ 0xDFFF then none
    else if 0xD800 ≤ n ∧ n ≤ 0xDBFF then
      match rest with
      | '\\' :: 'u' :: e :: f :: g :: h :: rest => do
        let m ← hexUnit? e f g h
        if 0xDC00 ≤ m ∧ m ≤ 0xDFFF then
          some (Char.ofNat (0x10000 + (n - 0xD800) * 1024 + (m - 0xDC00)), rest)
        else none
      | _ => none
    else some (Char.ofNat n, rest)
  | _ => none

/-- Reads what follows a backslash. -/
def readEscape? : List Char → Option (Char × List Char)
  | '\x22' :: cs => some ('\x22', cs)
  | '\\' :: cs => some ('\\', cs)
  | '/' :: cs => some ('/', cs)
  | 'b' :: cs => some ('\x08', cs)
  | 'f' :: cs => some ('\x0c', cs)
  | 'n' :: cs => some ('\n', cs)
  | 'r' :: cs => some ('\r', cs)
  | 't' :: cs => some ('\t', cs)
  | 'u' :: cs => readUnits? cs
  | _ => none

/-- Reads the characters of a string up to the closing quote. `fuel` bounds their number. -/
def readChars? (read : List Char) : Nat → List Char → Option (String × List Char)
  | 0, _ => none
  | fuel + 1, cs =>
    match cs with
    | [] => none
    | '\x22' :: cs => some (String.ofList read.reverse, cs)
    | '\\' :: cs => do
      let (c, cs) ← readEscape? cs
      readChars? (c :: read) fuel cs
    | c :: cs => if c.toNat < 32 then none else readChars? (c :: read) fuel cs

/-- Reads a string after its opening quote. -/
def readString? (cs : List Char) : Option (String × List Char) := readChars? [] (cs.length + 1) cs

/-- Reads a fixed word. -/
def readWord? (word : String) (value : Json) (cs : List Char) : Option (Json × List Char) :=
  if word.toList.isPrefixOf cs then some (value, cs.drop word.length) else none

mutual

/-- Reads a document at the head of a text, with arrays and objects nested at most `depth` deep. -/
def readValue? (depth : Nat) : Nat → List Char → Option (Json × List Char)
  | 0, _ => none
  | fuel + 1, cs =>
    match skipBlanks cs with
    | 'n' :: cs => readWord? "ull" .null cs
    | 't' :: cs => readWord? "rue" (.bool true) cs
    | 'f' :: cs => readWord? "alse" (.bool false) cs
    | '\x22' :: cs => (readString? cs).map fun (s, cs) => (.str s, cs)
    | '[' :: cs =>
      match depth with
      | 0 => none
      | depth + 1 =>
        match skipBlanks cs with
        | ']' :: cs => some (.arr [], cs)
        | cs => (readItems? depth fuel cs).map fun (items, cs) => (.arr items, cs)
    | '\x7b' :: cs =>
      match depth with
      | 0 => none
      | depth + 1 =>
        match skipBlanks cs with
        | '\x7d' :: cs => some (.obj [], cs)
        | cs =>
          (readEntries? depth fuel cs).map fun (entries, cs) =>
            (.obj (Table.putAll [] entries), cs)
    | cs => readNumber? cs

/-- Reads the items of an array and the closing bracket. -/
def readItems? (depth : Nat) : Nat → List Char → Option (List Json × List Char)
  | 0, _ => none
  | fuel + 1, cs => do
    let (item, cs) ← readValue? depth fuel cs
    match skipBlanks cs with
    | ']' :: cs => some ([item], cs)
    | ',' :: cs => do
      let (items, cs) ← readItems? depth fuel cs
      return (item :: items, cs)
    | _ => none

/-- Reads the entries of an object and the closing brace. -/
def readEntries? (depth : Nat) : Nat → List Char → Option (List (String × Json) × List Char)
  | 0, _ => none
  | fuel + 1, cs =>
    match skipBlanks cs with
    | '\x22' :: cs => do
      let (key, cs) ← readString? cs
      match skipBlanks cs with
      | ':' :: cs => do
        let (value, cs) ← readValue? depth fuel cs
        match skipBlanks cs with
        | '\x7d' :: cs => some ([(key, value)], cs)
        | ',' :: cs => do
          let (entries, cs) ← readEntries? depth fuel cs
          return ((key, value) :: entries, cs)
        | _ => none
      | _ => none
    | _ => none

end

/-- Reads a text that is one document nested at most `depth` deep. -/
def readWithin? (depth : Nat) (s : String) : Option Json :=
  let cs := s.toList
  match readValue? depth (2 * cs.length + 2) cs with
  | some (value, rest) => if (skipBlanks rest).isEmpty then some value else none
  | none => none

/-- How deep documents may be nested. -/
def depthLimit : Nat := 127

/-- Reads a text that is one document. -/
def read? (s : String) : Option Json := readWithin? depthLimit s

end Clausal.Json
