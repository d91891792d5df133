import Clausal.Toml.Scalar

/-!
# Reading TOML

A reader for TOML documents: keys and values, tables and arrays of tables, with every rule on what
may not be given twice. A document that breaks a rule is refused as a whole.
-/

namespace Clausal.Toml

/-- Drops blanks within a line. -/
def skipBlanks (cs : List Char) : List Char := cs.dropWhile fun c => c = ' ' || c = '\t'

/-- The rest after an end of line. -/
def newLine? : List Char → Option (List Char)
  | '\n' :: cs => some cs
  | '\r' :: '\n' :: cs => some cs
  | _ => none

/-- Drops a comment, up to the end of its line. -/
def skipComment : List Char → List Char
  | '#' :: cs => cs.dropWhile fun c => isTextChar c || c.toNat = 127
  | cs => cs

/-- Drops blanks, comments and ends of lines. -/
def skipGap : Nat → List Char → List Char
  | 0, cs => cs
  | fuel + 1, cs =>
    let cs := skipBlanks cs
    match newLine? (skipComment cs) with
    | some cs => skipGap fuel cs
    | none => cs

/-- Reads the characters of a string of one line with escapes. -/
def readBasic? (read : List Char) : Nat → List Char → Option (String × List Char)
  | 0, _ => none
  | fuel + 1, cs =>
    match cs with
    | [] => none
    | '\x22' :: cs => some (String.ofList read.reverse, cs)
    | '\\' :: cs => do
      let (c, cs) ← readEscape? cs
      readBasic? (c :: read) fuel cs
    | c :: cs => if isTextChar c then readBasic? (c :: read) fuel cs else none

/-- Reads a string of one line without escapes. -/
def readLiteral? (cs : List Char) : Option (String × List Char) :=
  let text := cs.takeWhile fun c => isTextChar c && c != '\x27'
  match cs.dropWhile fun c => isTextChar c && c != '\x27' with
  | '\x27' :: rest => some (String.ofList text, rest)
  | _ => none

/-- Drops the rest of a line after a backslash, and all blanks and ends of lines that follow. -/
def skipContinuation? (cs : List Char) : Option (List Char) :=
  (newLine? (skipBlanks cs)).map fun cs => blanks cs.length cs
where
  /-- Drops blanks and ends of lines. -/
  blanks : Nat → List Char → List Char
    | 0, cs => cs
    | fuel + 1, cs =>
      let cs := skipBlanks cs
      match newLine? cs with
      | some cs => blanks fuel cs
      | none => cs

/-- A run of quotes inside a string of several lines: three end it, and up to two before them belong
to it. Gives the quotes that belong to the string, whether it ends, and the rest. -/
def quoteRun (quote : Char) (cs : List Char) : List Char × Bool × List Char :=
  let run := cs.takeWhile (· = quote)
  if 3 ≤ run.length then
    let kept := min (run.length - 3) 2
    (List.replicate kept quote, true, cs.drop (kept + 3))
  else (run, false, cs.drop run.length)

/-- Reads a string of several lines, with escapes unless the quote is a single one. -/
def readLong? (quote : Char) (read : List Char) : Nat → List Char → Option (String × List Char)
  | 0, _ => none
  | fuel + 1, cs =>
    match cs with
    | [] => none
    | c :: rest =>
      if c = quote then
        let (kept, ends, rest) := quoteRun quote cs
        if ends then some (String.ofList (kept ++ read).reverse, rest)
        else readLong? quote (kept ++ read) fuel rest
      else if c = '\\' ∧ quote = '\x22' then
        match skipContinuation? rest with
        | some rest => readLong? quote read fuel rest
        | none => do
          let (d, rest) ← readEscape? rest
          readLong? quote (d :: read) fuel rest
      else
        match newLine? cs with
        | some rest => readLong? quote ('\n' :: read) fuel rest
        | none => if isTextChar c then readLong? quote (c :: read) fuel rest else none

/-- Reads a string of any kind. An end of line right after three quotes is dropped. -/
def readString? (cs : List Char) : Option (String × List Char) :=
  let long (quote : Char) (cs : List Char) : Option (String × List Char) :=
    readLong? quote [] (cs.length + 1) ((newLine? cs).getD cs)
  match cs with
  | '\x22' :: '\x22' :: '\x22' :: cs => long '\x22' cs
  | '\x27' :: '\x27' :: '\x27' :: cs => long '\x27' cs
  | '\x22' :: cs => readBasic? [] (cs.length + 1) cs
  | '\x27' :: cs => readLiteral? cs
  | _ => none

/-- A character of a key without quotes. -/
def isKeyChar (c : Char) : Bool := c.isAlphanum || c = '_' || c = '-'

/-- Reads one part of a key. -/
def readKeyPart? (cs : List Char) : Option (String × List Char) :=
  match cs with
  | '\x22' :: cs => readBasic? [] (cs.length + 1) cs
  | '\x27' :: cs => readLiteral? cs
  | cs =>
    let key := cs.takeWhile isKeyChar
    if key.isEmpty then none else some (String.ofList key, cs.dropWhile isKeyChar)

/-- Reads a key: parts divided by dots. -/
def readKey? : Nat → List Char → Option (List String × List Char)
  | 0, _ => none
  | fuel + 1, cs => do
    let (part, cs) ← readKeyPart? (skipBlanks cs)
    match skipBlanks cs with
    | '.' :: rest => do
      let (parts, cs) ← readKey? fuel rest
      return (part :: parts, cs)
    | cs => return ([part], cs)

/-- How deep arrays and inline tables may be nested, and how many parts a key may have. -/
def depthLimit : Nat := 79

/-- Reads a key that is not too long. -/
def readPath? (cs : List Char) : Option (List String × List Char) := do
  let (path, cs) ← readKey? (cs.length + 1) cs
  if path.length ≤ depthLimit then some (path, cs) else none

/-- Reads an equals sign. -/
def readEquals? (cs : List Char) : Option (List Char) :=
  match skipBlanks cs with
  | '=' :: cs => some (skipBlanks cs)
  | _ => none

mutual

/-- Reads a value. -/
def readValue? (depth : Nat) : Nat → List Char → Option (Toml × List Char)
  | 0, _ => none
  | fuel + 1, cs =>
    match cs with
    | '\x22' :: _ => (readString? cs).map fun (s, cs) => (.str s, cs)
    | '\x27' :: _ => (readString? cs).map fun (s, cs) => (.str s, cs)
    | '[' :: cs =>
      match depth with
      | 0 => none
      | depth + 1 => (readItems? depth fuel cs).map fun (items, cs) => (.arr items, cs)
    | '\x7b' :: cs =>
      match depth with
      | 0 => none
      | depth + 1 =>
        match skipBlanks cs with
        | '\x7d' :: cs => some (.table [], cs)
        | cs => do
          let (entries, cs) ← readEntries? depth fuel [] cs
          return (.table (ofEntries entries), cs)
    | cs => readScalar? cs

/-- Reads the items of an array and the closing bracket. A comma may follow the last item. -/
def readItems? (depth : Nat) : Nat → List Char → Option (List Toml × List Char)
  | 0, _ => none
  | fuel + 1, cs =>
    match skipGap cs.length cs with
    | ']' :: cs => some ([], cs)
    | cs => do
      let (item, cs) ← readValue? depth fuel cs
      match skipGap cs.length cs with
      | ']' :: cs => some ([item], cs)
      | ',' :: cs => do
        let (items, cs) ← readItems? depth fuel cs
        return (item :: items, cs)
      | _ => none

/-- Reads the entries of an inline table and the closing brace. -/
def readEntries? (depth : Nat) : Nat → Entries → List Char → Option (Entries × List Char)
  | 0, _, _ => none
  | fuel + 1, entries, cs => do
    let (path, cs) ← readPath? cs
    let (value, cs) ← readValue? depth fuel (← readEquals? cs)
    let entries ← addValue path.dropLast (path.getLastD "") value .header entries
    match skipBlanks cs with
    | '\x7d' :: cs => some (entries, cs)
    | ',' :: cs => readEntries? depth fuel entries cs
    | _ => none

end

/-- Reads what may follow on a line: blanks, a comment, and the end of the line or of the text. -/
def endLine? (cs : List Char) : Option (List Char) :=
  match skipComment (skipBlanks cs) with
  | [] => some []
  | cs => newLine? cs

/-- Reads the path of a header and its closing brackets. -/
def readHeader? (closing : List Char) (cs : List Char) : Option (List String × List Char) := do
  let (path, cs) ← readPath? cs
  let cs := skipBlanks cs
  if closing.isPrefixOf cs then some (path, cs.drop closing.length) else none

/-- Reads one line: a header, or a key with its value. -/
def readLine? (d : Draft) (cs : List Char) : Option (Draft × List Char) :=
  match cs with
  | '[' :: '[' :: cs => do
    let (path, cs) ← readHeader? [']', ']'] cs
    return (← d.openRow path, cs)
  | '[' :: cs => do
    let (path, cs) ← readHeader? [']'] cs
    return (← d.openTable path, cs)
  | cs => do
    let (path, cs) ← readPath? cs
    let start ← readEquals? cs
    let (value, cs) ← readValue? depthLimit (2 * start.length + 2) start
    return (← d.add path.dropLast (path.getLastD "") value, cs)

/-- Reads line after line. -/
def readLines? (d : Draft) : Nat → List Char → Option Draft
  | 0, _ => none
  | fuel + 1, cs =>
    match skipGap cs.length cs with
    | [] => some d
    | '#' :: cs => if (skipComment ('#' :: cs)).isEmpty then some d else none
    | cs => do
      let (d, cs) ← readLine? d cs
      let cs ← endLine? cs
      readLines? d fuel cs

/-- Reads a document. -/
def read? (s : String) : Option (Table Toml) := do
  let cs :=
    match s.toList with
    | '\ufeff' :: cs => cs
    | cs => cs
  let d ← readLines? {} (cs.length + 1) cs
  return ofEntries (← d.close)

end Clausal.Toml
