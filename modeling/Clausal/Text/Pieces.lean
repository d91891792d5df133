/-!
# Cutting and joining text

Texts are cut at single characters and put together with separators. The functions on `List Char`
carry the meaning; the ones on `String` go through `String.toList` and back.
-/

namespace Clausal.Text

/-- The parts of a text between the occurrences of `sep`. There is always at least one part. -/
def pieces (sep : Char) : List Char → List (List Char)
  | [] => [[]]
  | c :: cs =>
    if c = sep then [] :: pieces sep cs
    else
      match pieces sep cs with
      | [] => [[c]]
      | p :: ps => (c :: p) :: ps

/-- The parts of a string between the occurrences of `sep`. -/
def split (sep : Char) (s : String) : List String :=
  (pieces sep s.toList).map String.ofList

/-- The texts before and after the first occurrence of `sep`, if there is one. -/
def cutFirst? (sep : Char) (s : String) : Option (String × String) :=
  match s.toList.span (· != sep) with
  | (_, []) => none
  | (before, _ :: after) => some (String.ofList before, String.ofList after)

/-- The rest of `s` after a leading `c`, if it has one. -/
def stripLeading? (c : Char) (s : String) : Option String :=
  match s.toList with
  | [] => none
  | d :: ds => if d = c then some (String.ofList ds) else none

/-- Replaces every `a` by `b`. -/
def replaceChar (a b : Char) (s : String) : String :=
  s.map fun c => if c = a then b else c

/-- Writes every `c` of the text twice. -/
def double (c : Char) : List Char → List Char
  | [] => []
  | d :: ds => if d = c then d :: d :: double c ds else d :: double c ds

/-- Lower-cases `A` to `Z` and leaves every other character alone. -/
def lower (s : String) : String := s.map Char.toLower

/-- Equality up to the case of `A` to `Z`. -/
def sameWord (a b : String) : Bool := lower a == lower b

/-- Pads on the right with blanks up to `width` characters. -/
def padRight (width : Nat) (s : String) : String :=
  s ++ String.ofList (List.replicate (width - s.length) ' ')

/-- Pads on the left with blanks up to `width` characters. -/
def padLeft (width : Nat) (s : String) : String :=
  String.ofList (List.replicate (width - s.length) ' ') ++ s

end Clausal.Text
