import Clausal.Dialect

/-!
# Names and keywords

How names of tables and columns, keywords and function names are written. A name is divided into
parts at dots; before a slash stands a qualifier. A part goes in delimiters when quoting is on, or
when it would not survive without.
-/

namespace Clausal

/-- How names are written. -/
structure NameStyle where
  dialect : Dialect
  /-- Every name goes in delimiters. -/
  quoted : Bool := false
  /-- Dashes become underscores inside delimiters too. -/
  quotedSnake : Bool := false

/-- The name can stand without delimiters. -/
def isPlainName (s : String) : Bool :=
  !s.isEmpty && s.toList.all fun c => c.isAlphanum || c = '_'

/-- The name with underscores for dashes. -/
def snake (s : String) : String := Text.replaceChar '-' '_' s

/-- The parts of a qualified name. A name with an empty part is one part. -/
def nameParts (name : String) : List String :=
  match Text.cutFirst? '/' name with
  | some (qualifier, rest) =>
    let parts := Text.split '.' qualifier ++ [rest]
    if parts.all (fun p => !p.isEmpty) then parts else [name]
  | none =>
    let parts := Text.split '.' name
    if parts.all (fun p => !p.isEmpty) then parts else [name]

namespace NameStyle

/-- One part of a name. -/
def part (style : NameStyle) (s : String) : String :=
  if s = "*" then s
  else if style.quoted then style.dialect.quote (if style.quotedSnake then snake s else s)
  else if isPlainName (snake s) then snake s
  else style.dialect.quote (snake s)

/-- A qualified name. -/
def entity (style : NameStyle) (name : String) : String :=
  String.intercalate "." ((nameParts name).map style.part)

/-- An alias, which has no parts. -/
def aliasText (style : NameStyle) (name : String) : String := style.part name

end NameStyle

/-- A tag as SQL keywords; tags without letters stand for themselves. -/
def keyword (tag : String) : String :=
  if tag.toList.any Char.isAlpha then Text.replaceChar '-' ' ' (Text.upper tag) else tag

/-- A tag as the name of a function. -/
def functionName (tag : String) : String := Text.replaceChar '-' '_' (Text.upper tag)

end Clausal
