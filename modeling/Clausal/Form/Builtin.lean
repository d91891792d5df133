import Clausal.Form.Predicate
import Clausal.Form.Term

/-!
# Built-in forms
-/

namespace Clausal.Form

/-- The forms that are always there. -/
def builtin : Table FormRule := [
  ("in", membership),
  ("not-in", membership),
  ("not", negation),
  ("exists", existence),
  ("between", range),
  ("not-between", range),
  ("case", distinction),
  ("cast", cast),
  ("interval", interval),
  ("raw", verbatim),
  ("inline", inlined),
  ("nest", nested),
  ("param", parameter),
  ("lift", lifted),
  ("array", array),
  ("composite", composite),
  ("distinct", distinct),
  ("entity", entity),
  ("escape", escaping),
  ("filter", filtered),
  ("within-group", withinGroup),
  ("over", windowed),
  ("at-time-zone", atTimeZone),
  ("order-by", ordered)]

end Clausal.Form
