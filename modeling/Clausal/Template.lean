import Clausal.Grammar.Basic

/-!
# Templates

Rules described by data: a list of parts whose texts stand one after the other. A part is fixed
text, or says how a value is to be written: an argument of the form, a clause of the same statement,
a constant, or what the rule was asked about.
-/

namespace Clausal.Template

/-- Where a part finds its value. -/
inductive Source where
  /-- An argument of the form. -/
  | arg (index : Nat)
  /-- Another clause of the statement. -/
  | sibling (tag : String)
  | const (v : Value)
  /-- The payload of the clause, or all arguments of the form. -/
  | subject

/-- How a part writes its value. -/
inductive Action where
  | expr
  | nested
  | aliasItem
  | aliasList
  | tableList
  | tableItem
  | exprList
  | columnList
  | column
  | orderItems
  | value
  | valueList
  | namedParam
  | namedList
  | entity
  | aliasName
  | statement (grouped : Bool)
  | assignments
  | call (name : String)
  | withAlias
  | inline
  /-- Binds a parameter by the name that the value is. -/
  | bind
  /-- The rank of the clause that the value names. -/
  | rank
  | fail (message : String)

/-- A part of a template. -/
inductive Part where
  | text (s : String)
  /-- The tag that the rule was called with. -/
  | tag
  /-- The number of arguments. -/
  | count
  | apply (action : Action) (source : Source)
  /-- In parentheses when nested. -/
  | wrap (parts : List Part)
  /-- Sets the alias position; the text is the position before. -/
  | setAlias (on : Bool)
  /-- The state of the session. -/
  | state

/-- What a rule was asked about. -/
structure Request where
  tag : String
  args : List Value
  siblings : Statement
  subject : Value

/-- The value that a part writes; null if there is none. -/
def Source.value (r : Request) : Source → Value
  | .arg i => (r.args[i]?).getD .null
  | .sibling tag => (r.siblings.get? tag).getD .null
  | .const v => v
  | .subject => r.subject

/-- A value as a name: its text, or its readable form. -/
def nameOf (v : Value) : String := v.text?.getD v.display

/-- A flag as a word. -/
def word (b : Bool) : String := if b then "true" else "false"

/-- The rank of a clause as text. -/
def rankText : Option Nat → String
  | some n => "Some(" ++ Nat.repr n ++ ")"
  | none => "None"

/-- The state of the session as text. -/
def stateText (c : Context) (s : Session) : String :=
  "<" ++ s.marker.clause.getD "-" ++ " alias=" ++ word s.marker.aliasPosition ++
    " nested=" ++ word s.marker.nested ++ " params=" ++ Nat.repr s.slots.length ++ " " ++
    c.style.dialect.name ++ " q=" ++ word c.style.quoted ++ " qs=" ++ word c.style.quotedSnake ++
    " i=" ++ word c.inline ++ " n=" ++ word c.numbered ++ " c=" ++ word c.caching ++ ">"

/-- A layout for a map, or the complaint that the value is none. -/
def withMap (v : Value) (body : Statement → Layout) : Layout :=
  match v with
  | .map s => body s
  | v => .fail (.custom "template expects a map") v

/-- The layout of a value under an action. -/
def Action.layout (v : Value) : Action → Layout
  | .expr => .top v
  | .nested => .inner v
  | .aliasItem => .aliased v
  | .aliasList => .aliasedList v
  | .tableList => .tables v
  | .tableItem => .table v
  | .exprList => .exprs v
  | .columnList => .columns v.items
  | .column => .column v
  | .orderItems => .orderItems v.items
  | .value => .value v
  | .valueList => .valueList v.items
  | .namedParam => .named (nameOf v)
  | .namedList => .namedList (nameOf v)
  | .entity => .entity (nameOf v)
  | .aliasName => .aliasName (nameOf v)
  | .statement grouped => withMap v fun s => if grouped then .nestedStatement s else .statement s
  | .assignments => withMap v .assignments
  | .call name => .call name v.items
  | .withAlias => .withAlias ((v.items[0]?).getD .null) ((v.items[1]?).getD .null)
  | .inline => .literal v
  | .bind => .bind (nameOf v)
  | .rank => .observe fun c _ => rankText (c.rank? (nameOf v))
  | .fail message => .fail (.custom message) v

mutual

/-- The layout of a part. -/
def Part.layout (r : Request) : Part → Layout
  | .text s => s
  | .tag => r.tag
  | .count => Nat.repr r.args.length
  | .apply action source => action.layout (source.value r)
  | .wrap parts => .wrap (layouts r parts)
  | .setAlias on => .observe (fun _ s => word s.marker.aliasPosition) ++ .setAlias on
  | .state => .observe stateText

/-- The layout of parts one after the other. -/
def layouts (r : Request) : List Part → Layout
  | [] => .empty
  | p :: ps => p.layout r ++ layouts r ps

end

/-- The clause rule that a template describes. -/
def clauseRule (parts : List Part) : ClauseRule := fun tag payload statement =>
  layouts ⟨tag, [], statement, payload⟩ parts

/-- The form rule that a template describes. -/
def formRule (parts : List Part) : FormRule := fun tag args =>
  layouts ⟨tag, args, [], .seq args⟩ parts

end Clausal.Template
