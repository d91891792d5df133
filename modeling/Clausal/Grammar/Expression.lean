import Clausal.Grammar.Basic

/-!
# Expressions

The layout of a value as an expression, under a grammar. A list headed by a name is a form, an
operator or a call, in this order; where an alias may stand, a pair is a target and its alias.
-/

namespace Clausal.Grammar

/-- The call that a name with a percent sign stands for: `%f.a.b` is `[f a b]`. -/
def sigilCall? (rest : String) : Option Value :=
  match Text.split '.' rest with
  | [] => none
  | name :: args =>
    if name.isEmpty then none
    else some (.call name ((args.filter (fun a => !a.isEmpty)).map .ident))

/-- A name: a call sigil, a parameter, or the name of a table or column. -/
def nameLayout (name : String) : Layout :=
  match Text.stripLeading? '%' name with
  | some rest =>
    match sigilCall? rest with
    | some call => .expr .same call
    | none => .fail .callWithoutName (.ident name)
  | none =>
    match Text.stripLeading? '?' name with
    | some "" => .fail .paramWithoutName (.ident name)
    | some param => .named param
    | none => .entity name

/-- The form or operator that a name heads. -/
def headed? (g : Grammar) (op : String) (args : List Value) : Option Layout :=
  let key := Text.lower op
  match g.form? key with
  | some rule => some (rule key args)
  | none => (g.operator? key).map fun policy => policy.layout key args (.call op args)

/-- A list that heads no form and no operator. -/
def plainList (aliasPosition : Bool) (head : Value) (args : List Value) : Layout :=
  match aliasPosition, args with
  | true, [] => .top head
  | true, [name] => .withAlias head name
  | _, args =>
    match head with
    | .ident op => .call op args
    | head => .fail .headNotName (.seq (head :: args))

/-- A list as an expression. -/
def listLayout (g : Grammar) (aliasPosition : Bool) : List Value → Layout
  | [] => .fail .emptyExpression (.seq [])
  | head :: args =>
    match head.ident?.bind (g.headed? · args) with
    | some layout => layout
    | none => plainList aliasPosition head args

/-- A value as an expression. `aliasPosition` says that it may carry an alias. -/
def exprLayout (g : Grammar) (aliasPosition : Bool) : Value → Layout
  | .null => "NULL"
  | .ident name => nameLayout name
  | .map s => .nestedStatement s
  | .seq items => g.listLayout aliasPosition items
  | v => .value v

end Clausal.Grammar
