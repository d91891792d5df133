/-!
# Tables

Entries under string keys, in the order in which the keys first came. Storing under a key that is
there replaces the entry where it stands. `get?_put`, `keys_put` and `keys_erase` say what the
operations do to the two views of a table: look-up and list of keys.
-/

namespace Clausal

/-- Entries under string keys, in order. -/
abbrev Table (α : Type) := List (String × α)

namespace Table

variable {α : Type}

/-- The entry under a key. -/
def get? (k : String) : Table α → Option α
  | [] => none
  | (k', v) :: t => if k' = k then some v else get? k t

/-- There is an entry under the key. -/
def has (k : String) (t : Table α) : Bool := (get? k t).isSome

/-- The keys in order. -/
def keys (t : Table α) : List String := t.map Prod.fst

/-- Replaces the entry under a key, or adds it at the end. -/
def put (k : String) (v : α) : Table α → Table α
  | [] => [(k, v)]
  | (k', v') :: t => if k' = k then (k', v) :: t else (k', v') :: put k v t

/-- Takes the entry under a key out and keeps the order of the others. -/
def erase (k : String) : Table α → Table α
  | [] => []
  | (k', v) :: t => if k' = k then t else (k', v) :: erase k t

/-- Stores the entries of `new` one by one. -/
def putAll (t new : Table α) : Table α := new.foldl (fun t e => put e.1 e.2 t) t

@[simp]
theorem get?_nil (k : String) : get? k ([] : Table α) = none := rfl

theorem get?_put (t : Table α) (k l : String) (v : α) :
    get? l (put k v t) = if k = l then some v else get? l t := by
  induction t with
  | nil => simp [put, get?]
  | cons e t ih =>
    obtain ⟨k', v'⟩ := e
    by_cases h : k' = k
    · subst h
      by_cases hl : k' = l <;> simp [put, get?, hl]
    · by_cases hl : k' = l
      · subst hl
        simp [put, get?, h, Ne.symm h]
      · simp [put, get?, h, hl, ih]

theorem get?_append (k : String) (s t : Table α) : get? k (s ++ t) = (get? k s).or (get? k t) := by
  induction s with
  | nil => rfl
  | cons e s ih =>
    by_cases h : e.1 = k
    · simp [get?, h]
    · simp [get?, h, ih]

theorem get?_map {β : Type} (f : String → α → β) (k : String) (t : Table α) :
    get? k (t.map fun e => (e.1, f e.1 e.2)) = (get? k t).map (f k) := by
  induction t with
  | nil => rfl
  | cons e t ih =>
    by_cases h : e.1 = k
    · simp [get?, h]
    · simp [get?, h, ih]

theorem mem_keys_iff_has (t : Table α) (k : String) : k ∈ keys t ↔ has k t = true := by
  induction t with
  | nil => simp [keys, has, get?]
  | cons e t ih =>
    obtain ⟨k', v'⟩ := e
    by_cases h : k' = k
    · simp [keys, has, get?, h]
    · simp only [keys, has] at ih
      simp [keys, has, get?, h, Ne.symm h, ih]

theorem keys_put (t : Table α) (k : String) (v : α) :
    keys (put k v t) = if k ∈ keys t then keys t else keys t ++ [k] := by
  induction t with
  | nil => simp [put, keys]
  | cons e t ih =>
    obtain ⟨k', v'⟩ := e
    by_cases h : k' = k
    · simp [put, keys, h]
    · simp only [keys] at ih
      by_cases hk : k ∈ List.map Prod.fst t <;> simp [put, keys, h, Ne.symm h, ih, hk]

theorem put_of_notMem {t : Table α} {k : String} (h : k ∉ keys t) (v : α) :
    put k v t = t ++ [(k, v)] := by
  induction t with
  | nil => rfl
  | cons e t ih =>
    have hne : e.1 ≠ k := fun heq => h (heq ▸ List.mem_cons_self)
    rw [put, if_neg hne, ih fun hmem => h (List.mem_cons_of_mem _ hmem), List.cons_append]

theorem keys_erase (t : Table α) (k : String) : keys (erase k t) = (keys t).erase k := by
  induction t with
  | nil => simp [erase, keys]
  | cons e t ih =>
    obtain ⟨k', v'⟩ := e
    by_cases h : k' = k
    · simp [erase, keys, h]
    · simp only [keys] at ih
      simp [erase, keys, h, ih]

end Table

end Clausal
