import Clausal.Grammar.Arrangement
import Clausal.Grammar.Expression

/-!
# Evaluation

Turns layouts into SQL. A layout is evaluated from left to right, given evaluators for the
expressions and statements inside it; `Grammar.evaluators` ties the knot. Every value inside a
rule's layout is lighter than the value that the rule was asked about, so that the weight of a value
bounds the depth of its evaluation. Only rules that bring values of their own can go deeper.
-/

namespace Clausal

/-- Evaluators for the values inside a layout. -/
structure Evaluators where
  /-- An expression, and whether it stands inside an operator. -/
  expr : Bool → Value → Run Sql
  statement : Statement → Run Sql

/-- The SQL that a layout describes. -/
def Layout.eval (c : Context) (sub : Evaluators) : Layout → Run Sql
  | .text s => pure (Sql.ofText s)
  | .fail complaint fragment => throw (.malformed complaint fragment)
  | .entity name => pure (Sql.ofText (c.style.entity name))
  | .aliasName name => pure (Sql.ofText (c.style.aliasText name))
  | .aliasMark => pure (Sql.ofText (if c.style.dialect.aliasKeyword then " AS " else " "))
  | .missing column =>
    pure (Sql.ofText (if c.defaultColumns.contains column then "DEFAULT" else "NULL"))
  | .value v => Run.value c v
  | .named name => Run.named c name
  | .namedList name => Run.namedList c name
  | .literal v => Run.ofLiteral v.literal
  | .expr .top v => sub.expr false v
  | .expr .nested v => sub.expr true v
  | .expr .same v => do sub.expr (← get).marker.nested v
  | .aliased v => Run.under (fun m => { m with aliasPosition := true }) (sub.expr false v)
  | .statement s => sub.statement s
  | .append a b => do
    let first ← a.eval c sub
    let second ← b.eval c sub
    return first ++ second
  | .beside sep a b => do
    let first ← a.eval c sub
    let second ← b.eval c sub
    return Sql.beside sep first second
  | .lead s body => do
    let sql ← body.eval c sub
    return if sql.isEmpty then [] else Sql.ofText s ++ sql
  | .wrap body => do
    let sql ← body.eval c sub
    return if (← get).marker.nested && !sql.isEmpty then sql.parens else sql
  | .within tag body =>
    Run.under (fun m => { m with clause := some tag, aliasPosition := false }) (body.eval c sub)
  | .observe read => do return Sql.ofText (read c (← get))
  | .bind name => Run.bind (.named name)
  | .setAlias on => do
    modify fun s => { s with marker := { s.marker with aliasPosition := on } }
    return []

mutual

/-- How deep the evaluation of a value can go. -/
def Value.weight : Value → Nat
  | .ident name => 2 * name.length + 1
  | .seq items => 1 + Value.weightItems items
  | .map entries => 2 + Value.weightEntries entries
  | _ => 1

/-- The weights of the items together. -/
def Value.weightItems : List Value → Nat
  | [] => 0
  | v :: vs => v.weight + Value.weightItems vs

/-- The weights of the entries together. -/
def Value.weightEntries : List (String × Value) → Nat
  | [] => 0
  | (_, v) :: rest => v.weight + Value.weightEntries rest

end

namespace Grammar

/-- Evaluators that go at most `depth` levels deep. -/
def evaluators (g : Grammar) (c : Context) : Nat → Evaluators
  | 0 => ⟨fun _ _ => throw .endless, fun _ => throw .endless⟩
  | depth + 1 =>
    let sub := g.evaluators c depth
    { expr := fun nested v => do
        let aliasPosition := (← get).marker.aliasPosition
        Run.under (fun m => { m with aliasPosition := false, nested := nested })
          ((g.exprLayout aliasPosition v).eval c sub)
      statement := fun s => (g.statementLayout c s).eval c sub }

/-- How much deeper than its payload a registered rule may go with values of its own. -/
def spareDepth : Nat := 1000

/-- An expression as SQL. -/
def evalExpr (g : Grammar) (c : Context) (v : Value) : Run Sql :=
  (g.evaluators c (v.weight + spareDepth)).expr false v

/-- A statement as SQL. -/
def evalStatement (g : Grammar) (c : Context) (s : Statement) : Run Sql :=
  (g.evaluators c ((Value.map s).weight + spareDepth)).statement s

end Grammar

end Clausal
