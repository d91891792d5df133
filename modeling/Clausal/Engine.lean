import Clausal.Evaluate
import Clausal.Lint
import Clausal.Store

/-!
# Formatting

Statements and expressions as SQL text and a list of parameters, under a grammar and options. The
dialect is found first, then the statement is checked, then it is written. With a store, a statement
that was written before under the same fingerprint is taken from there; values written into the text
and dialects without a registered name bypass the store.
-/

namespace Clausal

/-- The dialect that is asked for. -/
inductive DialectChoice where
  | named (name : String)
  | custom (dialect : Dialect)

/-- How a statement is to be written. -/
structure Options where
  dialect : Option DialectChoice := none
  quoted : Option Bool := none
  quotedSnake : Bool := false
  inline : Bool := false
  numbered : Bool := false
  params : Table Value := []
  checking : LintLevel := .off
  defaultColumns : List String := []

/-- SQL text and the values of its parameters. -/
structure Formatted where
  sql : String
  params : List Value

namespace Options

/-- Names go in delimiters: as asked for, or whenever a dialect is asked for. -/
def isQuoted (o : Options) : Bool := o.quoted.getD o.dialect.isSome

/-- How holes are written. -/
def placeholder (o : Options) : Placeholder := if o.numbered then .numbered else .positional

/-- The default columns in ascending order, each once. -/
def sortedDefaults (o : Options) : List String :=
  (o.defaultColumns.mergeSort (fun a b => a ≤ b)).eraseDups

/-- A flag as a word. -/
def flag (b : Bool) : String := if b then "true" else "false"

/-- What the SQL text depends on besides the statement. -/
def fingerprint (o : Options) (d : Dialect) : String :=
  "dialect=" ++ d.name ++ ";quoted=" ++ flag o.isQuoted ++ ";snake=" ++ flag o.quotedSnake ++
    ";numbered=" ++ flag o.numbered ++ ";defaults=" ++ Text.quotedList o.sortedDefaults

/-- The dialect asked for has no registered name. -/
def isCustom (o : Options) : Bool :=
  match o.dialect with
  | some (.custom _) => true
  | _ => false

end Options

/-- The values of parameters, with names looked up. -/
def resolveSlots (params : Table Value) : List Slot → Except Fault (List Value)
  | [] => .ok []
  | .literal v :: rest => do return v :: (← resolveSlots params rest)
  | .named name :: rest =>
    match Table.get? name params with
    | some v => do return v :: (← resolveSlots params rest)
    | none => .error (.missingParam name)

namespace Grammar

/-- The dialect that options ask for. -/
def resolveDialect (g : Grammar) (o : Options) : Except Fault Dialect :=
  match o.dialect with
  | some (.custom d) => .ok d
  | some (.named name) =>
    match g.dialect? name with
    | some d => .ok d
    | none => .error (.unknownDialect name)
  | none =>
    match g.dialect? Dialect.defaultName with
    | some d => .ok d
    | none => .error (.unknownDialect Dialect.defaultName)

/-- What is fixed while a statement is written under these options. -/
def context (g : Grammar) (o : Options) (d : Dialect) (caching : Bool) : Context :=
  { style := ⟨d, o.isQuoted, o.quotedSnake⟩
    inline := o.inline
    numbered := o.numbered
    caching := caching
    order := g.clauseOrder d
    params := o.params
    defaultColumns := o.defaultColumns }

/-- The outcome of a run from a fresh session, as it is kept. -/
def keep (o : Options) (run : Run Sql) : Except Fault Kept :=
  match ExceptT.run run {} with
  | (.ok sql, session) => .ok ⟨sql.render o.placeholder, session.slots⟩
  | (.error e, _) => .error e

/-- The SQL text with the values of its parameters. -/
def finish (o : Options) (kept : Kept) : Except Fault Formatted := do
  return ⟨kept.sql, ← resolveSlots o.params kept.slots⟩

/-- The dialect of a statement that passes the checks. -/
def admissible (g : Grammar) (s : Statement) (o : Options) : Except Fault Dialect := do
  let d ← g.resolveDialect o
  Lint.check o.checking s o.params
  return d

/-- Writes a statement. -/
def format (g : Grammar) (s : Statement) (o : Options) : Except Fault Formatted := do
  let d ← g.admissible s o
  finish o (← keep o (g.evalStatement (g.context o d false) s))

/-- Writes an expression. A statement is checked first. -/
def formatExpr (g : Grammar) (v : Value) (o : Options) : Except Fault Formatted := do
  let d ← g.resolveDialect o
  match v with
  | .map s => Lint.check o.checking s o.params
  | _ => .ok ()
  finish o (← keep o (g.evalExpr (g.context o d false) v))

/-- Writes a statement, or takes it from the store. -/
def formatWith (g : Grammar) (store : Store) (s : Statement) (o : Options) :
    Except Fault Formatted × Store :=
  if o.inline || o.isCustom then (g.format s o, store)
  else
    match g.admissible s o with
    | .error e => (.error e, store)
    | .ok d =>
      let key : StoreKey := ⟨s, o.fingerprint d⟩
      match store.lookup key with
      | (some kept, store) => (finish o kept, store)
      | (none, store) =>
        match keep o (g.evalStatement (g.context o d true) s) with
        | .error e => (.error e, store)
        | .ok kept => (finish o kept, store.save key kept)

end Grammar

end Clausal
