import Clausal.Clause.Change
import Clausal.Clause.Compound
import Clausal.Clause.Query

/-!
# Built-in clauses
-/

namespace Clausal.Clause

/-- The clauses that are always there, in the order in which they are written. -/
def builtin : Table ClauseRule := [
  ("raw", verbatim),
  ("nest", nested),
  ("with", bindings),
  ("with-recursive", bindings),
  ("intersect", setOperation),
  ("union", setOperation),
  ("union-all", setOperation),
  ("except", setOperation),
  ("except-all", setOperation),
  ("select", select),
  ("select-distinct", select),
  ("select-distinct-on", selectDistinctOn),
  ("insert-into", insertion),
  ("replace-into", insertion),
  ("update", update),
  ("delete", deletion),
  ("delete-from", deletionFrom),
  ("truncate", truncation),
  ("columns", columnNames),
  ("set", assignment),
  ("from", sources),
  ("using", sources),
  ("join", joins),
  ("left-join", joins),
  ("right-join", joins),
  ("inner-join", joins),
  ("outer-join", joins),
  ("full-join", joins),
  ("cross-join", crossJoin),
  ("where", condition),
  ("group-by", expressions),
  ("having", condition),
  ("window", windows),
  ("partition-by", expressions),
  ("order-by", orderBy),
  ("limit", limit),
  ("offset", offset),
  ("fetch", fetch),
  ("for", rowLock),
  ("lock", tableLock),
  ("values", rows),
  ("on-conflict", conflict),
  ("on-constraint", constraint),
  ("do-nothing", nothing),
  ("do-update-set", conflictUpdate),
  ("on-duplicate-key-update", duplicateUpdate),
  ("returning", returning)]

end Clausal.Clause
