import Clausal.Grammar.Basic

/-!
# Arrangement of clauses

The clauses of a statement that have a rule, in the order of the dialect. Clauses outside that order
come last, in the order in which they were given.
-/

namespace Clausal.Grammar

/-- A clause with its rank; clauses outside the order have none. -/
abbrev Ranked := Option Nat × String × Value

/-- The first clause is written before the second, or they keep their places. -/
def Ranked.le (a b : Ranked) : Bool :=
  match a.1, b.1 with
  | some m, some n => m ≤ n
  | some _, none => true
  | none, some _ => false
  | none, none => true

/-- The entries of a statement in the order in which they are written. -/
def arranged (c : Context) (s : Statement) : List (String × Value) :=
  ((s.map fun e => ((c.rank? e.1, e) : Ranked)).mergeSort Ranked.le).map Prod.snd

/-- The layout of one clause, if it has a rule. -/
def clauseLayout? (g : Grammar) (s : Statement) (tag : String) (payload : Value) : Option Layout :=
  (g.clauses.rule? tag).map fun rule => .within tag (rule tag payload s)

/-- The layout of a statement: its clauses divided by blanks. -/
def statementLayout (g : Grammar) (c : Context) (s : Statement) : Layout :=
  .joinKept " " ((arranged c s).filterMap fun e => g.clauseLayout? s e.1 e.2)

end Clausal.Grammar
