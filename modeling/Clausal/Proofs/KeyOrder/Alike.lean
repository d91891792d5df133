import Clausal.Clause.Change
import Clausal.Evaluate
import Clausal.Proofs.Draft.Plain
import Clausal.Proofs.Equality
import Mathlib.Data.List.Forall2
import Mathlib.Data.List.Perm.Basic

/-! # Alike values

Equal statements may list their clauses in different orders.  Where a map gives columns,
their order is the order in which they are written, so it belongs to what is written
(`listedColumns`).  Two values are *alike* when they differ at most in the order of clauses
(`Value.Alike`): they are equal and list the same columns in the same order.
-/
namespace Clausal

/-- The columns that a clause lists, in the order in which it writes them. -/
def listedColumns (s : Statement) (tag : String) (payload : Value) : List String :=
  if tag = "set" ∨ tag = "on-duplicate-key-update" then Statement.tags (payload.map?.getD [])
  else if tag = "do-update-set" then
    match payload.map? with
    | none => []
    | some spec =>
      match Statement.get? spec "fields" with
      | some fields => Statement.tags (fields.map?.getD [])
      | none => Statement.tags spec
  else if tag = "values" then
    match payload.rows?.bind Clause.rowMaps? with
    | none => []
    | some rows =>
      match Clause.rowColumns rows (s.get? "columns") with
      | .ok columns => columns
      | .error _ => []
  else []

mutual

/-- Where the values have clauses in common, these list the same columns in the same order.
Every map counts as a statement here, wherever it stands. -/
def Value.sameColumns : Value → Value → Bool
  | .seq a, .seq b => Value.sameColumnsItems a b
  | .map s, .map t => Value.sameColumnsEntries s t s
  | _, _ => true
termination_by structural a => a

/-- The same of lists, item by item. -/
def Value.sameColumnsItems : List Value → List Value → Bool
  | a :: as, b :: bs => Value.sameColumns a b && Value.sameColumnsItems as bs
  | _, _ => true

/-- The same of some entries of the first statement, by key. -/
def Value.sameColumnsEntries (s t : List (String × Value)) : List (String × Value) → Bool
  | [] => true
  | (k, a) :: rest =>
    (match Table.get? k t with
      | some b => listedColumns s k a == listedColumns t k b && Value.sameColumns a b
      | none => true) && Value.sameColumnsEntries s t rest

end

namespace Value

/-- The value is neither a list nor a map. -/
def isAtom : Value → Bool
  | .seq _ => false
  | .map _ => false
  | _ => true

/-- The values differ at most in the order of clauses. -/
inductive Alike : Value → Value → Prop where
  | null : Alike .null .null
  | bool (b : Bool) : Alike (.bool b) (.bool b)
  | int (n : Int64) : Alike (.int n) (.int n)
  | float (x : Decimal.Binary64) : Alike (.float x) (.float x)
  | str (s : String) : Alike (.str s) (.str s)
  | ident (name : String) : Alike (.ident name) (.ident name)
  | seq {as bs : List Value} (h : List.Forall₂ Alike as bs) : Alike (.seq as) (.seq bs)
  | map {s t : Statement} (hs : (Table.keys s).Nodup) (ht : (Table.keys t).Nodup)
      (hkeys : ∀ k, Table.has k s = Table.has k t)
      (hcolumns : ∀ k a b, Table.get? k s = some a → Table.get? k t = some b →
        listedColumns s k a = listedColumns t k b)
      (h : ∀ k a b, Table.get? k s = some a → Table.get? k t = some b → Alike a b) :
      Alike (.map s) (.map t)

attribute [simp] Alike.null Alike.bool Alike.int Alike.float Alike.str Alike.ident

/-- Induction on alike values; all that are neither lists nor maps are one case. -/
theorem Alike.induction {P : Value → Value → Prop}
    (atom : ∀ v : Value, v.isAtom = true → P v v)
    (seq : ∀ as bs : List Value, List.Forall₂ P as bs → P (.seq as) (.seq bs))
    (map : ∀ s t : Statement, (Table.keys s).Nodup → (Table.keys t).Nodup →
      (∀ k, Table.has k s = Table.has k t) →
      (∀ k a b, Table.get? k s = some a → Table.get? k t = some b → P a b) → P (.map s) (.map t))
    {v w : Value} (h : Alike v w) : P v w := by
  refine Alike.rec (motive_1 := fun v w _ => P v w)
    (motive_2 := fun as bs _ => List.Forall₂ P as bs) (atom _ rfl) (fun _ => atom _ rfl)
    (fun _ => atom _ rfl) (fun _ => atom _ rfl) (fun _ => atom _ rfl) (fun _ => atom _ rfl)
    ?_ ?_ ?_ ?_ h
  · intro as bs _ ih
    exact seq as bs ih
  · intro s t hs ht hkeys _ _ ih
    exact map s t hs ht hkeys ih
  · exact .nil
  · intro a b as bs _ _ hab ih
    exact .cons hab ih

end Value

/-! ### Look-up in tables with distinct keys -/

namespace Table
variable {α : Type}

theorem get?_of_mem {k : String} {v : α} {t : Table α} (ht : (keys t).Nodup) (h : (k, v) ∈ t) :
    get? k t = some v := by
  induction t with
  | nil => cases h
  | cons e t ih =>
    obtain ⟨hnew, ht⟩ := List.nodup_cons.mp ht
    rcases List.mem_cons.mp h with heq | h
    · rw [← heq]
      exact if_pos rfl
    · have hne : e.1 ≠ k := by
        rintro rfl
        exact hnew (List.mem_map.mpr ⟨_, h, rfl⟩)
      rw [get?, if_neg hne]
      exact ih ht h

theorem exists_get? {k : String} {t : Table α} (h : k ∈ keys t) : ∃ v, get? k t = some v := by
  rw [mem_keys_iff_has] at h
  exact Option.isSome_iff_exists.mp h

/-- Tables with distinct keys that have the same keys have them in some order. -/
theorem perm_keys {s t : Table α} (hs : (keys s).Nodup) (ht : (keys t).Nodup)
    (h : ∀ k, has k s = has k t) : (keys s).Perm (keys t) := by
  refine (List.perm_ext_iff_of_nodup hs ht).mpr fun k => ?_
  rw [mem_keys_iff_has, mem_keys_iff_has, h]

end Table

namespace Value

/-- Entries weigh what is found under their keys. -/
theorem weightEntries_eq {s : Statement} (hs : (Table.keys s).Nodup) :
    weightEntries s =
      ((Table.keys s).map fun k => ((Table.get? k s).map weight).getD 0).foldr Nat.add 0 := by
  induction s with
  | nil => rfl
  | cons e s ih =>
    obtain ⟨hnew, hs⟩ := List.nodup_cons.mp hs
    have hkeys : Table.keys (e :: s) = e.1 :: Table.keys s := rfl
    have hfirst : Table.get? e.1 (e :: s) = some e.2 := if_pos rfl
    have hrest : ∀ k ∈ Table.keys s, Table.get? k (e :: s) = Table.get? k s := by
      rintro k hk
      refine if_neg ?_
      rintro rfl
      exact hnew hk
    rw [weightEntries, ih hs, hkeys, List.map_cons, List.foldr_cons, hfirst]
    refine congrArg _ (congrArg (List.foldr Nat.add 0) (List.map_congr_left fun k hk => ?_))
    rw [hrest k hk]

/-- Alike values have the same weight. -/
theorem Alike.weight_eq {v w : Value} (h : Alike v w) : v.weight = w.weight := by
  refine Alike.induction (P := fun v w => v.weight = w.weight) ?atom ?seq ?map h
  case atom =>
    intro v _
    rfl
  case seq =>
    intro as bs hitems
    have hsum : weightItems as = weightItems bs := by
      induction hitems with
      | nil => rfl
      | cons hab _ ih => rw [weightItems, weightItems, hab, ih]
    rw [weight, weight, hsum]
  case map =>
    intro s t hs ht hkeys ih
    have hcomm : LeftCommutative Nat.add := ⟨Nat.add_left_comm⟩
    have hsum : weightEntries s = weightEntries t := by
      rw [weightEntries_eq hs, weightEntries_eq ht,
        ← ((Table.perm_keys hs ht hkeys).map _).foldr_eq 0]
      refine congrArg (List.foldr Nat.add 0) (List.map_congr_left fun k hk => ?_)
      obtain ⟨a, ha⟩ := Table.exists_get? hk
      obtain ⟨b, hb⟩ := Table.exists_get? ((Table.perm_keys hs ht hkeys).subset hk)
      rw [ha, hb, Option.map_some, Option.map_some, ih k a b ha hb]
    rw [weight, weight, hsum]

theorem equalEntries_of_forall {as bs : List (String × Value)}
    (h : ∀ e ∈ as, ∃ b, Table.get? e.1 bs = some b ∧ e.2.equal b = true) :
    equalEntries as bs = true := by
  induction as with
  | nil => rfl
  | cons e as ih =>
    obtain ⟨b, hb, heq⟩ := h e List.mem_cons_self
    have hrest := ih fun f hf => h f (List.mem_cons_of_mem e hf)
    rw [equalEntries, hb, hrest]
    simpa using heq

/-- Alike values are equal. -/
theorem Alike.equal {v w : Value} (h : Alike v w) : v.equal w = true := by
  refine Alike.induction (P := fun v w => v.equal w = true) ?atom ?seq ?map h
  case atom =>
    intro v hv
    cases v with
    | seq items => cases hv
    | map entries => cases hv
    | _ => simp [Value.equal]
  case seq =>
    intro as bs hitems
    rw [Value.equal]
    induction hitems with
    | nil => rfl
    | cons hab _ ih => rw [equalItems, hab, ih, Bool.and_true]
  case map =>
    intro s t hs ht hkeys ih
    have hperm := Table.perm_keys hs ht hkeys
    have hlength : s.length = t.length := by
      simpa [Table.keys] using hperm.length_eq
    rw [Value.equal, Bool.and_eq_true, beq_iff_eq]
    refine ⟨hlength, equalEntries_of_forall fun e he => ?_⟩
    have ha : Table.get? e.1 s = some e.2 := Table.get?_of_mem hs he
    obtain ⟨b, hb⟩ := Table.exists_get? (hperm.subset (List.mem_map.mpr ⟨e, he, rfl⟩))
    exact ⟨b, hb, ih e.1 e.2 b ha hb⟩

/-! ### Parts of alike values -/

section
variable {v w : Value} {s t : Statement}

/-- What looks neither into lists nor into maps sees no difference between alike values. -/
theorem Alike.congr {α : Type} {f : Value → α} (h : Alike v w)
    (hseq : ∀ as bs, f (.seq as) = f (.seq bs)) (hmap : ∀ s t, f (.map s) = f (.map t)) :
    f v = f w := by
  cases h with
  | seq => exact hseq _ _
  | map => exact hmap _ _
  | _ => rfl

theorem Alike.text? (h : Alike v w) : v.text? = w.text? :=
  h.congr (fun _ _ => rfl) (fun _ _ => rfl)

theorem Alike.ident? (h : Alike v w) : v.ident? = w.ident? :=
  h.congr (fun _ _ => rfl) (fun _ _ => rfl)

theorem Alike.isNull (h : Alike v w) : v.isNull = w.isNull :=
  h.congr (fun _ _ => rfl) (fun _ _ => rfl)

theorem Alike.isWord (h : Alike v w) (word : String) : v.isWord word = w.isWord word :=
  h.congr (f := Value.isWord word) (fun _ _ => rfl) (fun _ _ => rfl)

theorem Alike.items (h : Alike v w) : List.Forall₂ Alike v.items w.items := by
  cases h with
  | seq h => exact h
  | map hs ht hkeys hcolumns h => exact .cons (.map hs ht hkeys hcolumns h) .nil
  | _ => simp [Value.items]

theorem Alike.isEmpty_items (h : Alike v w) : v.items.isEmpty = w.items.isEmpty := by
  have hitems := h.items
  generalize v.items = as, w.items = bs at hitems
  cases hitems <;> rfl

theorem Alike.rows? (h : Alike v w) : v.rows? = none ∧ w.rows? = none ∨
    ∃ as bs, v.rows? = some as ∧ w.rows? = some bs ∧ List.Forall₂ Alike as bs := by
  cases h with
  | seq h =>
    cases h with
    | nil => exact .inl ⟨rfl, rfl⟩
    | cons hab h => exact .inr ⟨_, _, rfl, rfl, .cons hab h⟩
  | _ => exact .inl ⟨rfl, rfl⟩

theorem Alike.evenItems? (h : Alike v w) : v.evenItems? = none ∧ w.evenItems? = none ∨
    ∃ as bs, v.evenItems? = some as ∧ w.evenItems? = some bs ∧ List.Forall₂ Alike as bs := by
  cases h with
  | @seq as bs h =>
    unfold Value.evenItems?
    dsimp only
    rw [h.length_eq]
    split
    · exact .inr ⟨as, bs, rfl, rfl, h⟩
    · exact .inl ⟨rfl, rfl⟩
  | _ => exact .inl ⟨rfl, rfl⟩

theorem Alike.get? (h : Alike (.map s) (.map t)) (k : String) :
    Table.get? k s = none ∧ Table.get? k t = none ∨
      ∃ a b, Table.get? k s = some a ∧ Table.get? k t = some b ∧ Alike a b ∧
        listedColumns s k a = listedColumns t k b := by
  cases h with
  | map hs ht hkeys hcolumns h =>
    have hk : (Table.get? k s).isSome = (Table.get? k t).isSome := hkeys k
    cases ha : Table.get? k s with
    | none =>
      rw [ha] at hk
      exact .inl ⟨rfl, Option.not_isSome_iff_eq_none.mp (by simp [← hk])⟩
    | some a =>
      rw [ha] at hk
      obtain ⟨b, hb⟩ := Option.isSome_iff_exists.mp hk.symm
      exact .inr ⟨a, b, rfl, hb, h k a b ha hb, hcolumns k a b ha hb⟩

/-- The payloads under a key are alike, if there are any. -/
theorem Alike.payload (h : Alike (.map s) (.map t)) (key : String) :
    s.get? key = none ∧ t.get? key = none ∨
      ∃ a b, s.get? key = some a ∧ t.get? key = some b ∧ Alike a b := by
  rcases h.get? (Statement.tagOf key) with hnone | ⟨a, b, ha, hb, hab, -⟩
  · exact .inl hnone
  · exact .inr ⟨a, b, ha, hb, hab⟩

theorem Alike.has (h : Alike (.map s) (.map t)) (k : String) : Table.has k s = Table.has k t := by
  cases h with
  | map _ _ hkeys => exact hkeys k

/-- Alike maps that list their keys in one order correspond entry by entry. -/
theorem Alike.entries (h : Alike (.map s) (.map t)) (hkeys : Table.keys s = Table.keys t) :
    List.Forall₂ (fun e f => e.1 = f.1 ∧ Alike e.2 f.2) s t := by
  cases h with
  | map hs ht _ _ h =>
    have hlength : s.length = t.length := by
      simpa [Table.keys] using congrArg List.length hkeys
    refine List.forall₂_iff_get.mpr ⟨hlength, fun i hi hj => ?_⟩
    have hkey : (s.get ⟨i, hi⟩).1 = (t.get ⟨i, hj⟩).1 := by
      have hget := congrArg (fun keys : List String => keys[i]?) hkeys
      simpa [Table.keys, hi, hj] using hget
    have ha := Table.get?_of_mem hs (List.get_mem s ⟨i, hi⟩)
    have hb := Table.get?_of_mem ht (List.get_mem t ⟨i, hj⟩)
    rw [← hkey] at hb
    exact ⟨hkey, h _ _ _ ha hb⟩

end

/-! ### Equal values that list the same columns -/

theorem nodup_keys {s : Statement} (h : distinctEntries s = true) : (Table.keys s).Nodup := by
  induction s with
  | nil => exact List.nodup_nil
  | cons e s ih =>
    rw [distinctEntries, Bool.and_eq_true, Bool.and_eq_true] at h
    refine List.nodup_cons.mpr ⟨?_, ih h.2⟩
    intro hmem
    have hhas := (Table.mem_keys_iff_has s e.1).mp hmem
    simp [hhas] at h

/-- As many distinct keys as another map has, all found there, are all of its keys. -/
theorem keys_perm_of_length {s t : Statement} (hlength : s.length = t.length)
    (hs : (Table.keys s).Nodup) (h : ∀ e ∈ s, ∃ b, Table.get? e.1 t = some b) :
    (Table.keys s).Perm (Table.keys t) := by
  have hsub : Table.keys s ⊆ Table.keys t := by
    intro k hk
    obtain ⟨e, he, rfl⟩ := List.mem_map.mp hk
    obtain ⟨b, hb⟩ := h e he
    exact List.mem_map.mpr ⟨_, Table.mem_of_get? hb, rfl⟩
  refine (List.subperm_of_subset hs hsub).perm_of_length_le ?_
  simp [Table.keys, hlength]

/-- What is found for each entry of the first map makes maps of one size alike. -/
theorem alike_of_entries {s t : Statement} (hlength : s.length = t.length)
    (hs : (Table.keys s).Nodup)
    (h : ∀ e ∈ s, ∃ b, Table.get? e.1 t = some b ∧ Alike e.2 b ∧
      listedColumns s e.1 e.2 = listedColumns t e.1 b) :
    Alike (.map s) (.map t) := by
  have hperm := keys_perm_of_length hlength hs fun e he => (h e he).imp fun _ hb => hb.1
  have hentry : ∀ k a b, Table.get? k s = some a → Table.get? k t = some b →
      Alike a b ∧ listedColumns s k a = listedColumns t k b := by
    intro k a b ha hb
    obtain ⟨b', hb', hab⟩ := h (k, a) (Table.mem_of_get? ha)
    rw [hb] at hb'
    cases hb'
    exact hab
  refine .map hs (hperm.nodup_iff.mp hs) ?_ (fun k a b ha hb => (hentry k a b ha hb).2)
    (fun k a b ha hb => (hentry k a b ha hb).1)
  intro k
  rw [Bool.eq_iff_iff, ← Table.mem_keys_iff_has, ← Table.mem_keys_iff_has]
  exact hperm.mem_iff

mutual

/-- **Equal values that list the same columns are alike.** -/
theorem alike_of_equal : ∀ {a b : Value}, a.equal b = true → a.distinctKeys = true →
    a.sameColumns b = true → Alike a b
  | .null, b, h, _, _ => by cases b <;> simp [equal] at h; constructor
  | .bool _, b, h, _, _ => by cases b <;> simp [equal] at h; rw [h]; constructor
  | .int _, b, h, _, _ => by cases b <;> simp [equal] at h; rw [h]; constructor
  | .float _, b, h, _, _ => by cases b <;> simp [equal] at h; rw [h]; constructor
  | .str _, b, h, _, _ => by cases b <;> simp [equal] at h; rw [h]; constructor
  | .ident _, b, h, _, _ => by cases b <;> simp [equal] at h; rw [h]; constructor
  | .seq as, .seq bs, h, hd, hc => .seq (alike_of_equalItems h hd hc)
  | .map s, .map t, h, hd, hc => by
    rw [equal, Bool.and_eq_true, beq_iff_eq] at h
    exact alike_of_entries h.1 (nodup_keys hd) (alike_of_equalEntries s t h.2 hd hc)

theorem alike_of_equalItems : ∀ {as bs : List Value}, equalItems as bs = true →
    distinctItems as = true → sameColumnsItems as bs = true → List.Forall₂ Alike as bs
  | [], [], _, _, _ => .nil
  | a :: as, b :: bs, h, hd, hc => by
    rw [equalItems, Bool.and_eq_true] at h
    rw [distinctItems, Bool.and_eq_true] at hd
    rw [sameColumnsItems, Bool.and_eq_true] at hc
    exact .cons (alike_of_equal h.1 hd.1 hc.1) (alike_of_equalItems h.2 hd.2 hc.2)

theorem alike_of_equalEntries (s t : Statement) : ∀ {rest : List (String × Value)},
    equalEntries rest t = true → distinctEntries rest = true →
    sameColumnsEntries s t rest = true →
    ∀ e ∈ rest, ∃ b, Table.get? e.1 t = some b ∧ Alike e.2 b ∧
      listedColumns s e.1 e.2 = listedColumns t e.1 b
  | [], _, _, _, _, he => by cases he
  | (k, a) :: rest, h, hd, hc, e, he => by
    rw [equalEntries, Bool.and_eq_true] at h
    rw [distinctEntries, Bool.and_eq_true, Bool.and_eq_true] at hd
    rw [sameColumnsEntries, Bool.and_eq_true] at hc
    rcases List.mem_cons.mp he with rfl | he
    · cases hb : Table.get? k t with
      | none =>
        rw [hb] at h
        cases h.1
      | some b =>
        rw [hb] at h hc
        simp only [Bool.and_eq_true, beq_iff_eq] at hc
        exact ⟨b, rfl, alike_of_equal h.1 hd.1.2 hc.1.2, hc.1.1⟩
    · exact alike_of_equalEntries s t h.2 hd.2 hc.2 e he

end

end Value

end Clausal
