import Clausal.Decimal.Spelling
import Clausal.Sql
import Clausal.Value.Equality

/-!
# Stores

Formatted statements kept for later, under the statement and a fingerprint of the options.
Parameters bound by name are kept by name, so that one entry serves every value of them. A store
counts how often it was asked, and keeps a journal of what it was asked.
-/

namespace Clausal

/-- A formatted statement as it is kept. -/
structure Kept where
  sql : String
  slots : List Slot

/-- The key of an entry. -/
structure StoreKey where
  statement : Statement
  fingerprint : String

/-- The keys belong to the same entry; the order of clauses makes no difference. -/
def StoreKey.same (a b : StoreKey) : Bool :=
  a.statement.equal b.statement && a.fingerprint == b.fingerprint

/-- What a store was asked. -/
inductive Access where
  | lookup (fingerprint : String) (hit : Bool)
  | save (fingerprint : String) (kept : Kept)

/-- Formatted statements kept for later. -/
structure Store where
  entries : List (StoreKey × Kept) := []
  hits : Nat := 0
  misses : Nat := 0
  journal : List Access := []

namespace Store

/-- The entry under a key. -/
def find? (s : Store) (key : StoreKey) : Option Kept :=
  (s.entries.find? fun e => e.1.same key).map Prod.snd

/-- Replaces the entry under a key, or adds it. -/
def replace (key : StoreKey) (kept : Kept) : List (StoreKey × Kept) → List (StoreKey × Kept)
  | [] => [(key, kept)]
  | e :: rest => if e.1.same key then (e.1, kept) :: rest else e :: replace key kept rest

/-- Stores an entry. -/
def put (s : Store) (key : StoreKey) (kept : Kept) : Store :=
  { s with entries := replace key kept s.entries }

/-- Asks for the entry under a key, and counts and records the question. -/
def lookup (s : Store) (key : StoreKey) : Option Kept × Store :=
  match s.find? key with
  | some kept =>
    (some kept,
      { s with hits := s.hits + 1, journal := s.journal ++ [.lookup key.fingerprint true] })
  | none =>
    (none,
      { s with misses := s.misses + 1, journal := s.journal ++ [.lookup key.fingerprint false] })

/-- Stores an entry and records it. -/
def save (s : Store) (key : StoreKey) (kept : Kept) : Store :=
  let s := s.put key kept
  { s with journal := s.journal ++ [.save key.fingerprint kept] }

/-- Forgets the entries and keeps the counts. -/
def clear (s : Store) : Store := { s with entries := [] }

/-- Forgets the journal. -/
def clearJournal (s : Store) : Store := { s with journal := [] }

/-- How many questions in a hundred found an entry. -/
def hitRate (s : Store) : Decimal.Binary64 :=
  let total := s.hits + s.misses
  if total = 0 then .zero
  else .ofFloat (Float.ofNat s.hits / Float.ofNat total * 100.0)

end Store

end Clausal
