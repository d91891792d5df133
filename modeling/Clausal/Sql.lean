import Clausal.Value.Basic

/-!
# SQL text with holes

SQL is built from pieces: text, and holes where bound parameters go. A hole carries the number of
its parameter. How holes are written is decided when the pieces are put together: by position as `?`
or by number as `$1`, `$2` and so on.
-/

namespace Clausal

/-- A bound parameter: a value, or a name whose value is looked up afterwards. -/
inductive Slot where
  | literal (v : Value)
  | named (name : String)

/-- A piece of SQL. -/
inductive Piece where
  | text (s : String)
  /-- The hole for the parameter with this number, counted from one. -/
  | hole (number : Nat)
deriving DecidableEq

/-- SQL with holes. -/
abbrev Sql := List Piece

/-- How holes are written. -/
inductive Placeholder where
  | positional
  | numbered
deriving DecidableEq

/-- The text of one piece. -/
def Piece.render (p : Placeholder) : Piece → String
  | .text s => s
  | .hole n =>
    match p with
    | .positional => "?"
    | .numbered => "$" ++ Nat.repr n

/-- The piece adds nothing to the text. -/
def Piece.isEmpty : Piece → Bool
  | .text s => s.isEmpty
  | .hole _ => false

namespace Sql

/-- SQL that is only text. -/
def ofText (s : String) : Sql := [.text s]

/-- The SQL text, with holes written as `p` says. -/
def render (p : Placeholder) (sql : Sql) : String := String.join (sql.map (Piece.render p))

/-- The text is empty, however holes are written. -/
def isEmpty (sql : Sql) : Bool := sql.all Piece.isEmpty

/-- The numbers of the holes from left to right. -/
def holes (sql : Sql) : List Nat :=
  sql.filterMap fun
    | .text _ => none
    | .hole n => some n

/-- Between parentheses. -/
def parens (sql : Sql) : Sql := ofText "(" ++ sql ++ ofText ")"

/-- Two parts with a separator between them; a part without text takes the separator with it. -/
def beside (sep : String) (a b : Sql) : Sql :=
  if a.isEmpty then b else if b.isEmpty then a else a ++ ofText sep ++ b

@[simp]
theorem render_nil (p : Placeholder) : render p [] = "" := rfl

/-- Text is written from left to right, whatever stands beside it. -/
@[simp]
theorem render_append (p : Placeholder) (a b : Sql) :
    render p (a ++ b) = render p a ++ render p b := by
  simp [render]

@[simp]
theorem isEmpty_append (a b : Sql) : isEmpty (a ++ b) = (isEmpty a && isEmpty b) := by
  simp [isEmpty]

@[simp]
theorem holes_append (a b : Sql) : holes (a ++ b) = holes a ++ holes b := by
  simp [holes]

@[simp]
theorem holes_ofText (s : String) : holes (ofText s) = [] := rfl

end Sql

end Clausal
