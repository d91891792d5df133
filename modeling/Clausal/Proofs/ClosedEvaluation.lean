import Clausal.Engine

/-! # Closed evaluations

Equality of values, faults and results can be decided, so what a given value is formatted to can be
checked by computing it.  Unlike `Value.equal`, this is equality as such: the order of map entries
counts.

Sorting is not meant to be computed with.  The clauses of a statement that are given in order are
left where they are (`Grammar.evalStatement_of_ordered`).
-/
namespace Clausal

/-! ### Equality -/

namespace Value

mutual

/-- The values are the same, entries in the same order. -/
def same : Value → Value → Bool
  | .null, .null => true
  | .bool a, .bool b => a == b
  | .int a, .int b => a == b
  | .float a, .float b => a == b
  | .str a, .str b => a == b
  | .ident a, .ident b => a == b
  | .seq as, .seq bs => sameItems as bs
  | .map s, .map t => sameEntries s t
  | _, _ => false

/-- The same of lists, item by item. -/
def sameItems : List Value → List Value → Bool
  | [], [] => true
  | a :: as, b :: bs => same a b && sameItems as bs
  | _, _ => false

/-- The same of maps, entry by entry. -/
def sameEntries : List (String × Value) → List (String × Value) → Bool
  | [], [] => true
  | (k, a) :: s, (l, b) :: t => k == l && same a b && sameEntries s t
  | _, _ => false

end

mutual

theorem same_self : ∀ v : Value, same v v = true
  | .null => rfl
  | .bool _ | .int _ | .float _ | .str _ | .ident _ => by simp [same]
  | .seq as => by rw [same, sameItems_self as]
  | .map s => by rw [same, sameEntries_self s]

theorem sameItems_self : ∀ as : List Value, sameItems as as = true
  | [] => rfl
  | a :: as => by rw [sameItems, same_self a, sameItems_self as, Bool.and_self]

theorem sameEntries_self : ∀ s : List (String × Value), sameEntries s s = true
  | [] => rfl
  | (k, a) :: s => by
    rw [sameEntries, same_self a, sameEntries_self s, beq_self_eq_true, Bool.and_self,
      Bool.and_self]

end

mutual

theorem eq_of_same : ∀ {v w : Value}, same v w = true → v = w
  | .null, w, h => by
    cases w with
    | null => rfl
    | _ => cases h
  | .bool a, w, h => by
    cases w with
    | bool b => rw [beq_iff_eq.mp h]
    | _ => cases h
  | .int a, w, h => by
    cases w with
    | int b => rw [beq_iff_eq.mp h]
    | _ => cases h
  | .float a, w, h => by
    cases w with
    | float b => rw [beq_iff_eq.mp h]
    | _ => cases h
  | .str a, w, h => by
    cases w with
    | str b => rw [beq_iff_eq.mp h]
    | _ => cases h
  | .ident a, w, h => by
    cases w with
    | ident b => rw [beq_iff_eq.mp h]
    | _ => cases h
  | .seq as, w, h => by
    cases w with
    | seq bs => rw [eq_of_sameItems h]
    | _ => cases h
  | .map s, w, h => by
    cases w with
    | map t => rw [eq_of_sameEntries h]
    | _ => cases h

theorem eq_of_sameItems : ∀ {as bs : List Value}, sameItems as bs = true → as = bs
  | [], [], _ => rfl
  | a :: as, b :: bs, h => by
    rw [sameItems, Bool.and_eq_true] at h
    rw [eq_of_same h.1, eq_of_sameItems h.2]

theorem eq_of_sameEntries : ∀ {s t : List (String × Value)}, sameEntries s t = true → s = t
  | [], [], _ => rfl
  | (k, a) :: s, (l, b) :: t, h => by
    rw [sameEntries, Bool.and_eq_true, Bool.and_eq_true] at h
    rw [beq_iff_eq.mp h.1.1, eq_of_same h.1.2, eq_of_sameEntries h.2]

end

instance : DecidableEq Value := fun v w =>
  decidable_of_iff (same v w = true) ⟨eq_of_same, fun h => h ▸ same_self v⟩

end Value

deriving instance DecidableEq for Slot, Fault, Kept, Formatted

/-! ### Clauses in order -/

namespace Grammar
variable {g : Grammar} {c : Context} {s : Statement}

theorem evalStatement_eq (g : Grammar) (c : Context) (s : Statement) :
    g.evalStatement c s = (g.statementLayout c s).eval c
      (g.evaluators c ((Value.map s).weight + spareDepth - 1)) := by
  obtain ⟨depth, hdepth⟩ : ∃ depth, (Value.map s).weight + spareDepth = depth + 1 :=
    ⟨(Value.map s).weight + spareDepth - 1, by simp only [Value.weight]; omega⟩
  rw [evalStatement, hdepth]
  rfl

theorem arranged_of_ordered
    (h : s.Pairwise fun e f => Ranked.le (c.rank? e.1, e) (c.rank? f.1, f) = true) :
    arranged c s = s := by
  have hranked : (s.map fun e => ((c.rank? e.1, e) : Ranked)).Pairwise
      fun a b => Ranked.le a b = true := List.pairwise_map.mpr h
  rw [arranged, List.mergeSort_of_pairwise hranked, List.map_map]
  exact List.map_id s

/-- A statement whose clauses are given in order is written clause by clause. -/
theorem evalStatement_of_ordered
    (h : s.Pairwise fun e f => Ranked.le (c.rank? e.1, e) (c.rank? f.1, f) = true) :
    g.evalStatement c s =
      (Layout.joinKept " " (s.filterMap fun e => g.clauseLayout? s e.1 e.2)).eval c
        (g.evaluators c ((Value.map s).weight + spareDepth - 1)) := by
  rw [evalStatement_eq, statementLayout, arranged_of_ordered h]

end Grammar
end Clausal
