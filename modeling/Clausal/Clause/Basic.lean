import Clausal.Layout.Phrases

/-!
# Clauses

The rule of a clause gets its tag, its payload and the whole statement, for clauses that depend on
their neighbours. A layout without text leaves the clause out.
-/

namespace Clausal

/-- The rule of a clause: from its tag, its payload and the statement around it to a layout.

The layout is settled before any of it is evaluated. It may hold text that depends on the session
(`Layout.observe`), but a rule that chooses its layout by the session, or that writes something else
when an expression inside it fails, cannot be given as a `ClauseRule`; nothing here covers it. -/
abbrev ClauseRule := String → Value → Statement → Layout

/-- The items two by two; an item without a partner is dropped. -/
def pairs {α : Type} : List α → List (α × α)
  | a :: b :: rest => (a, b) :: pairs rest
  | _ => []

/-- A non-empty list. -/
def Value.rows? : Value → Option (List Value)
  | .seq (v :: vs) => some (v :: vs)
  | _ => none

/-- A list of even length. -/
def Value.evenItems? : Value → Option (List Value)
  | .seq items => if items.length % 2 = 0 then some items else none
  | _ => none

end Clausal
