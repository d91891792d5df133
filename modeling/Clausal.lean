import Clausal.CommandLine.Program
import Clausal.Main
import Clausal.Proofs.Caching.Run
import Clausal.Proofs.Inlining
import Clausal.Proofs.NamedParameter
import Clausal.Proofs.Placeholder
import Clausal.Proofs.QualifiedName
import Clausal.Proofs.Readability.Written
import Clausal.Template
import Clausal.Proofs.Condition.Hollow
import Clausal.Proofs.Condition.Guard
import Clausal.Proofs.Condition.Derivation
import Clausal.Proofs.Condition.Collapse
import Clausal.Proofs.KeyOrder.Alike
import Clausal.Proofs.KeyOrder.Equivalence
import Clausal.Proofs.KeyOrder.Rearrangement
import Clausal.Proofs.KeyOrder.Digest
import Clausal.Proofs.KeyOrder.Layouts
import Clausal.Proofs.KeyOrder.Clauses
import Clausal.Proofs.KeyOrder.Expressions
import Clausal.Proofs.KeyOrder.Arrangement
import Clausal.Proofs.KeyOrder.Formatting
import Clausal.Proofs.Depth.Bounded
import Clausal.Proofs.NestedStatement
import Clausal.Proofs.Registry.Moves
import Clausal.Proofs.Registry.Registration
import Clausal.Proofs.Registry.Commutation
import Clausal.Proofs.ClauseOrder.Arranged
import Clausal.Proofs.ClauseOrder.Formatting
import Clausal.Proofs.Caching.Dialects
import Clausal.Proofs.Caching.Accounting
import Clausal.Proofs.Depth.Termination
import Clausal.Proofs.Decimal.Interval
import Clausal.Proofs.Decimal.Shortest
import Clausal.Proofs.Decimal.Spelling
import Clausal.Proofs.UnambiguousLiteral
import Clausal.Proofs.Reach
import Clausal.Proofs.JsonRoundTrip
import Clausal.Proofs.StatementLookup
import Clausal.Proofs.MapRows
import Clausal.Proofs.Lint.Exactness
import Clausal.Proofs.Lint.ColumnNames
import Clausal.Proofs.Interchange
import Clausal.Proofs.Membership.Candidates
import Clausal.Proofs.Membership.NamedList
import Clausal.Proofs.Aliasing
import Clausal.Proofs.Condition.Vacuous
