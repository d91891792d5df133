import Clausal.Session

/-!
# Layouts

A layout describes a stretch of SQL: fixed text, names, values, and the expressions and statements
that stand inside it, from left to right. The rule of a clause or a form gives a layout and does
nothing else; a layout becomes SQL when it is evaluated.
-/

namespace Clausal

/-- Whether an expression stands inside an operator. -/
inductive Nesting where
  | top
  | nested
  /-- As the expression around it. -/
  | same
deriving DecidableEq

/-- A description of a stretch of SQL. -/
inductive Layout where
  | text (s : String)
  /-- No SQL can be given. -/
  | fail (complaint : Complaint) (fragment : Value)
  /-- A qualified name. -/
  | entity (name : String)
  /-- An alias. -/
  | aliasName (name : String)
  /-- What stands between a target and its alias. -/
  | aliasMark
  /-- What a row holds for a column without a value. -/
  | missing (column : String)
  /-- A value, bound or written into the text. -/
  | value (v : Value)
  /-- The value of a named parameter. -/
  | named (name : String)
  /-- The value of a named parameter, as a list. -/
  | namedList (name : String)
  /-- A value written into the text. -/
  | literal (v : Value)
  | expr (nesting : Nesting) (v : Value)
  /-- An expression that may carry an alias. -/
  | aliased (v : Value)
  | statement (s : List (String × Value))
  | append (a b : Layout)
  /-- Two parts with a separator, which is left out where a part has no text. -/
  | beside (sep : String) (a b : Layout)
  /-- A text before the body, unless the body has no text. -/
  | lead (s : String) (body : Layout)
  /-- In parentheses when nested, unless there is no text. -/
  | wrap (body : Layout)
  /-- The body of a clause. -/
  | within (tag : String) (body : Layout)
  /-- Text that depends on the state of the session. -/
  | observe (read : Context → Session → String)
  /-- A parameter bound by name. -/
  | bind (name : String)
  /-- No text; says whether the next expression may carry an alias. -/
  | setAlias (on : Bool)

namespace Layout

instance : Append Layout := ⟨.append⟩

instance : Coe String Layout := ⟨.text⟩

/-- No text. -/
def empty : Layout := .text ""

/-- An expression on its own. -/
def top (v : Value) : Layout := .expr .top v

/-- An expression inside an operator. -/
def inner (v : Value) : Layout := .expr .nested v

/-- Between parentheses. -/
def parens (l : Layout) : Layout := "(" ++ l ++ ")"

/-- Parts divided by a separator. -/
def join (sep : String) : List Layout → Layout
  | [] => empty
  | [l] => l
  | l :: ls => l ++ sep ++ join sep ls

/-- Parts divided by commas. -/
def commas (ls : List Layout) : Layout := join ", " ls

/-- The parts that have text, divided by a separator. -/
def joinKept (sep : String) (ls : List Layout) : Layout := ls.foldr (.beside sep) empty

/-- A statement in parentheses. -/
def nestedStatement (s : Statement) : Layout := parens (.statement s)

end Layout

end Clausal
