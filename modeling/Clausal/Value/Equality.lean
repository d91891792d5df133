import Clausal.Value.Basic

/-!
# Equality of values

Two values are equal when they differ at most in the order of entries of maps, at any depth. The
digest of a value is the sequence of words that stands for it where equal values have to
be recognised by hashing; it lists the entries of a map by their keys.
-/

namespace Clausal

mutual

/-- Equality up to the order of map entries. -/
def Value.equal : Value → Value → Bool
  | .null, .null => true
  | .bool a, .bool b => a == b
  | .int a, .int b => a == b
  | .float a, .float b => a == b
  | .str a, .str b => a == b
  | .ident a, .ident b => a == b
  | .seq a, .seq b => Value.equalItems a b
  | .map a, .map b => a.length == b.length && Value.equalEntries a b
  | _, _ => false

/-- Equality of lists, item by item. -/
def Value.equalItems : List Value → List Value → Bool
  | [], [] => true
  | a :: as, b :: bs => Value.equal a b && Value.equalItems as bs
  | _, _ => false

/-- Every entry of the first map has an equal one under the same key in the second. -/
def Value.equalEntries : List (String × Value) → List (String × Value) → Bool
  | [], _ => true
  | (k, a) :: rest, bs =>
    (match Table.get? k bs with
      | some b => Value.equal a b
      | none => false) && Value.equalEntries rest bs

end

instance : BEq Value := ⟨Value.equal⟩

/-- Equality of statements up to the order of clauses. -/
def Statement.equal (a b : Statement) : Bool := Value.equal (.map a) (.map b)

/-- One word of a digest. -/
inductive Word where
  | kind (n : Nat)
  | bool (b : Bool)
  | int (n : Int64)
  | bits (n : UInt64)
  | text (s : String)
  | count (n : Nat)
deriving DecidableEq

/-- Puts an entry before the first one whose key is not smaller. -/
def insertByKey {α : Type} (e : String × α) : List (String × α) → List (String × α)
  | [] => [e]
  | f :: rest => if f.1 < e.1 then f :: insertByKey e rest else e :: f :: rest

/-- The entries in ascending order of their keys. -/
def sortByKey {α : Type} (entries : List (String × α)) : List (String × α) :=
  entries.foldr insertByKey []

mutual

/-- The words that stand for a value. -/
def Value.digest : Value → List Word
  | .null => [.kind 0]
  | .bool b => [.kind 1, .bool b]
  | .int n => [.kind 2, .int n]
  | .float x => [.kind 3, .bits x.bits]
  | .str s => [.kind 4, .text s]
  | .ident s => [.kind 5, .text s]
  | .seq items => .kind 6 :: .count items.length :: Value.digestItems items
  | .map entries =>
    .kind 7 :: .count entries.length ::
      (sortByKey (Value.digestEntries entries)).flatMap fun e => .text e.1 :: e.2

/-- The words of the items one after the other. -/
def Value.digestItems : List Value → List Word
  | [] => []
  | v :: vs => Value.digest v ++ Value.digestItems vs

/-- The words of each entry. -/
def Value.digestEntries : List (String × Value) → List (String × List Word)
  | [] => []
  | (k, v) :: rest => (k, Value.digest v) :: Value.digestEntries rest

end

end Clausal
