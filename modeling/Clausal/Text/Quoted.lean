import Clausal.Text.Hidden

/-!
# Quoted strings

The readable form of a string: in double quotes, with quotes, backslashes and characters that do not
show written as escapes. Every character that is not escaped stands for itself.
-/

namespace Clausal.Text

/-- A backslash and one more character. -/
def shortEscape (c : Char) : List Char := ['\\', c]

/-- An escape that gives the code point in hexadecimal between braces. -/
def codeEscape (c : Char) : List Char :=
  ['\\', 'u', '\x7b'] ++ Nat.toDigits 16 c.toNat ++ ['\x7d']

/-- How one character is written inside the quotes. -/
def quotedChar (c : Char) : List Char :=
  if c = '\x22' then shortEscape '\x22'
  else if c = '\\' then shortEscape '\\'
  else if c = '\n' then shortEscape 'n'
  else if c = '\r' then shortEscape 'r'
  else if c = '\t' then shortEscape 't'
  else if c.toNat = 0 then shortEscape '0'
  else if isHidden c then codeEscape c
  else [c]

/-- The string in quotes. -/
def quoted (s : String) : String :=
  String.ofList ('\x22' :: s.toList.flatMap quotedChar ++ ['\x22'])

/-- Strings in quotes, between brackets and divided by commas. -/
def quotedList (ss : List String) : String :=
  "[" ++ String.intercalate ", " (ss.map quoted) ++ "]"

end Clausal.Text
