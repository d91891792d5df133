import Clausal.Value.Equality

/-! # Equality and the order of keys

Equality of values disregards the order of map entries.  Equal values that list
their keys in one order, at every depth, are the same value (`Value.eq_of_equal`).

This needs keys that are distinct: each entry of the first map is compared with the first
entry under its key in the second one, which is the entry at the same place only if no
key comes twice.
-/
namespace Clausal

mutual

/-- The values list their keys in the same order at every depth. -/
def Value.sameOrder : Value → Value → Bool
  | .seq a, .seq b => Value.sameOrderItems a b
  | .map a, .map b => Value.sameOrderEntries a b
  | _, _ => true

/-- The same of lists, item by item. -/
def Value.sameOrderItems : List Value → List Value → Bool
  | a :: as, b :: bs => Value.sameOrder a b && Value.sameOrderItems as bs
  | _, _ => true

/-- The same of maps, entry by entry. -/
def Value.sameOrderEntries : List (String × Value) → List (String × Value) → Bool
  | (k, a) :: as, (l, b) :: bs =>
    k == l && Value.sameOrder a b && Value.sameOrderEntries as bs
  | _, _ => true

end

mutual

/-- No map has a key twice, at any depth. -/
def Value.distinctKeys : Value → Bool
  | .seq items => Value.distinctItems items
  | .map entries => Value.distinctEntries entries
  | _ => true

/-- The same of every item. -/
def Value.distinctItems : List Value → Bool
  | [] => true
  | v :: vs => Value.distinctKeys v && Value.distinctItems vs

/-- The same of every entry, and no key comes again. -/
def Value.distinctEntries : List (String × Value) → Bool
  | [] => true
  | (k, v) :: rest => !Table.has k rest && Value.distinctKeys v && Value.distinctEntries rest

end

namespace Value

/-- Entries are compared by look-up, so an entry under another key makes no difference. -/
theorem equalEntries_cons {k : String} {b : Value} {as bs : List (String × Value)}
    (hk : k ∉ Table.keys as) (h : equalEntries as ((k, b) :: bs) = true) :
    equalEntries as bs = true := by
  induction as with
  | nil => rfl
  | cons e as ih =>
    obtain ⟨l, a⟩ := e
    have hkl : k ≠ l := fun hkl => hk (hkl ▸ List.mem_cons_self)
    rw [equalEntries, Bool.and_eq_true] at h ⊢
    obtain ⟨hentry, hrest⟩ := h
    rw [Table.get?, if_neg hkl] at hentry
    exact ⟨hentry, ih (fun hmem => hk (List.mem_cons_of_mem _ hmem)) hrest⟩

/-- Entries in one order have their keys in one order. -/
theorem keys_of_sameOrder {as bs : List (String × Value)} (hlen : as.length = bs.length)
    (h : sameOrderEntries as bs = true) : Table.keys as = Table.keys bs := by
  induction as generalizing bs with
  | nil => rw [List.length_eq_zero_iff.mp hlen.symm]
  | cons e as ih =>
    cases bs with
    | nil => cases hlen
    | cons f bs =>
      rw [sameOrderEntries, Bool.and_eq_true, Bool.and_eq_true, beq_iff_eq] at h
      have hrest := ih (Nat.succ.inj hlen) h.2
      exact List.cons_eq_cons.mpr ⟨h.1.1, hrest⟩

mutual

/-- **Equal values with their keys in one order are the same.** -/
theorem eq_of_equal : ∀ {a b : Value}, a.equal b = true → a.sameOrder b = true →
    b.distinctKeys = true → a = b
  | .null, b, h, _, _ => by cases b <;> simp [equal] at h; rfl
  | .bool _, b, h, _, _ => by cases b <;> simp [equal] at h; rw [h]
  | .int _, b, h, _, _ => by cases b <;> simp [equal] at h; rw [h]
  | .float _, b, h, _, _ => by cases b <;> simp [equal] at h; rw [h]
  | .str _, b, h, _, _ => by cases b <;> simp [equal] at h; rw [h]
  | .ident _, b, h, _, _ => by cases b <;> simp [equal] at h; rw [h]
  | .seq as, .seq bs, h, ho, hd => congrArg Value.seq (eq_of_equalItems h ho hd)
  | .map as, .map bs, h, ho, hd => by
    rw [equal, Bool.and_eq_true, beq_iff_eq] at h
    exact congrArg Value.map (eq_of_equalEntries h.1 h.2 ho hd)

theorem eq_of_equalItems : ∀ {as bs : List Value}, equalItems as bs = true →
    sameOrderItems as bs = true → distinctItems bs = true → as = bs
  | [], [], _, _, _ => rfl
  | a :: as, b :: bs, h, ho, hd => by
    rw [equalItems, Bool.and_eq_true] at h
    rw [sameOrderItems, Bool.and_eq_true] at ho
    rw [distinctItems, Bool.and_eq_true] at hd
    rw [eq_of_equal h.1 ho.1 hd.1, eq_of_equalItems h.2 ho.2 hd.2]

theorem eq_of_equalEntries : ∀ {as bs : List (String × Value)}, as.length = bs.length →
    equalEntries as bs = true → sameOrderEntries as bs = true → distinctEntries bs = true →
    as = bs
  | [], bs, hlen, _, _, _ => (List.length_eq_zero_iff.mp hlen.symm).symm
  | (k, a) :: as, (l, b) :: bs, hlen, h, ho, hd => by
    rw [equalEntries, Bool.and_eq_true] at h
    rw [sameOrderEntries, Bool.and_eq_true, Bool.and_eq_true, beq_iff_eq] at ho
    rw [distinctEntries, Bool.and_eq_true, Bool.and_eq_true] at hd
    obtain ⟨⟨rfl, horder⟩, horders⟩ := ho
    obtain ⟨⟨hnew, hdistinct⟩, hdistincts⟩ := hd
    -- The key does not come again, so the other entries are found among the rest.
    have hlength : as.length = bs.length := Nat.succ.inj hlen
    have hkeys : k ∉ Table.keys as := by
      rw [keys_of_sameOrder hlength horders, Table.mem_keys_iff_has]
      simpa using hnew
    have hentry : a.equal b = true := by simpa [Table.get?] using h.1
    rw [eq_of_equal hentry horder hdistinct,
      eq_of_equalEntries hlength (equalEntries_cons hkeys h.2) horders hdistincts]

end

end Value
end Clausal
