import Clausal.Fault
import Clausal.Text.Upper

/-!
# Literals in SQL text

A value written into the text instead of being bound. Strings stand in single quotes, with quotes
inside doubled; names become keywords; lists stand in parentheses. Statements and numbers that are
not finite cannot be written so.
-/

namespace Clausal

/-- A string in single quotes. -/
def stringLiteral (s : String) : String :=
  String.ofList ('\x27' :: Text.double '\x27' s.toList ++ ['\x27'])

mutual

/-- A value as SQL text. -/
def Value.literal : Value → Except Fault String
  | .null => .ok "NULL"
  | .bool b => .ok (if b then "TRUE" else "FALSE")
  | .int n => .ok (toString n.toInt)
  | .float x =>
    if x.isFinite then .ok x.readable else .error (.malformed .inlineNonFinite (.float x))
  | .str s => .ok (stringLiteral s)
  | .ident name => .ok (Text.replaceChar '-' ' ' (Text.upper name))
  | .seq items =>
    match Value.literals items with
    | .ok texts => .ok ("(" ++ String.intercalate ", " texts ++ ")")
    | .error e => .error e
  | .map entries => .error (.malformed .inlineStatement (.map entries))

/-- The values of a list as SQL text. -/
def Value.literals : List Value → Except Fault (List String)
  | [] => .ok []
  | v :: vs =>
    match v.literal with
    | .error e => .error e
    | .ok text =>
      match Value.literals vs with
      | .error e => .error e
      | .ok texts => .ok (text :: texts)

end

end Clausal
