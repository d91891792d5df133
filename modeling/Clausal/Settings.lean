import Clausal.Engine
import Clausal.Toml.Reader
import Clausal.Value.Json

/-!
# Settings

Defaults for formatting, read from a TOML text. What is not given keeps its default, and what is not
known is passed over; a value of the wrong kind makes the whole text unusable.
-/

namespace Clausal

/-- Defaults for formatting. -/
structure Settings where
  dialect : Option String := none
  quoted : Option Bool := none
  quotedSnake : Bool := false
  inline : Bool := false
  numbered : Bool := false
  checking : LintLevel := .off
  defaultColumns : List String := []
  params : Table Json := []

namespace Settings

/-- A text. -/
def string? : Toml → Option String
  | .str s => some s
  | _ => none

/-- A flag. -/
def flag? : Toml → Option Bool
  | .bool b => some b
  | _ => none

/-- There is nothing in the value. -/
def isHollow : Toml → Bool
  | .arr [] => true
  | .table [] => true
  | _ => false

/-- A lint level: its name, or a table that holds nothing but its name. -/
def level? : Toml → Option LintLevel
  | .str s => LintLevel.ofName? s
  | .table [(s, v)] => if isHollow v then LintLevel.ofName? s else none
  | _ => none

/-- A list of texts. -/
def strings? : Toml → Option (List String)
  | .arr items => items.mapM string?
  | _ => none

/-- A table of parameters. -/
def params? : Toml → Option (Table Json)
  | .table entries => some (Toml.toJsonEntries entries)
  | .date text => some [(Toml.dateKey, .str text)]
  | _ => none

/-- A setting as it is read, or its default when it is not given. -/
def get {α : Type} (read : Toml → Option α) (default : α) (key : String) (t : Table Toml) :
    Option α :=
  match Table.get? key t with
  | some v => read v
  | none => some default

/-- The settings in a TOML document. -/
def ofToml? (t : Table Toml) : Option Settings := do
  return {
    dialect := ← get (fun v => (string? v).map some) none "dialect" t
    quoted := ← get (fun v => (flag? v).map some) none "quoted" t
    quotedSnake := ← get flag? false "quoted_snake" t
    inline := ← get flag? false "inline" t
    numbered := ← get flag? false "numbered" t
    checking := ← get level? .off "checking" t
    defaultColumns := ← get strings? [] "values_default_columns" t
    params := ← get params? [] "params" t }

/-- The settings in a TOML text. -/
def read? (text : String) : Option Settings := (Toml.read? text).bind ofToml?

/-- The options that settings stand for. -/
def toOptions (s : Settings) : Options :=
  { dialect := s.dialect.map .named
    quoted := s.quoted
    quotedSnake := s.quotedSnake
    inline := s.inline
    numbered := s.numbered
    params := s.params.map fun e => (e.1, Value.ofJson e.2)
    checking := s.checking
    defaultColumns := s.defaultColumns }

end Settings

end Clausal
