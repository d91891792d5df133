import Clausal.Proofs.Registry.Registration

/-! # Registrations that absorb one another or commute

A registration takes its clause out of the order first, so that nothing is left of an earlier
registration of the same clause.  Registrations of two clauses commute, if neither is put before the
other one and they are not put in the same place: where both are put before one clause, or both at
the end, the later one comes second.

The order after a registration is the order of the other clauses with the clause put in among them
(`ClauseTable.placed_eq`), and so both facts are about `ClauseTable.putAmong`.
-/
namespace Clausal

namespace Table
variable {α : Type}

theorem put_put (t : Table α) (k : String) (v w : α) : put k w (put k v t) = put k w t := by
  induction t with
  | nil => simp [put]
  | cons e t ih =>
    by_cases h : e.1 = k
    · simp [put, h]
    · simp [put, h, ih]

theorem get?_put_comm (t : Table α) {k l : String} (h : k ≠ l) (v w : α) (m : String) :
    get? m (put k v (put l w t)) = get? m (put l w (put k v t)) := by
  rw [get?_put, get?_put, get?_put, get?_put]
  by_cases hk : k = m
  · rw [if_pos hk, if_pos hk, if_neg fun hl => h (hk.trans hl.symm)]
  · rw [if_neg hk, if_neg hk]

end Table

/-! ### Tags put before others -/

section
variable {tag tag₁ tag₂ before before₁ before₂ other : String} {order : List String}

theorem filter_insertBefore_of_ne (htag : tag ≠ other) (hbefore : before ≠ other)
    (order : List String) :
    (insertBefore tag before order).filter (· != other) =
      insertBefore tag before (order.filter (· != other)) := by
  induction order with
  | nil => simp [insertBefore, htag]
  | cons t ts ih =>
    by_cases ht : t = before
    · simp [insertBefore, ht, htag, hbefore]
    · by_cases hother : t = other
      · simp [insertBefore, hother, Ne.symm hbefore, ih]
      · simp [insertBefore, ht, hother, ih]

theorem insertBefore_append (h : before ∈ order) (rest : List String) :
    insertBefore tag before (order ++ rest) = insertBefore tag before order ++ rest := by
  induction order with
  | nil => cases h
  | cons t ts ih =>
    by_cases ht : t = before
    · simp [insertBefore, ht]
    · have hts : before ∈ ts := (List.mem_cons.mp h).resolve_left (Ne.symm ht)
      simp [insertBefore, ht, ih hts]

/-- Tags that are put before different ones do not get in each other's way. -/
theorem insertBefore_comm (hne : before₁ ≠ before₂) (h₁ : tag₁ ≠ before₂) (h₂ : tag₂ ≠ before₁)
    (hmem₁ : before₁ ∈ order) (hmem₂ : before₂ ∈ order) :
    insertBefore tag₂ before₂ (insertBefore tag₁ before₁ order) =
      insertBefore tag₁ before₁ (insertBefore tag₂ before₂ order) := by
  induction order with
  | nil => cases hmem₁
  | cons t ts ih =>
    by_cases ht₁ : t = before₁
    · subst ht₁
      simp [insertBefore, h₁, hne]
    · by_cases ht₂ : t = before₂
      · subst ht₂
        simp [insertBefore, h₂, ht₁]
      · have hts₁ : before₁ ∈ ts := (List.mem_cons.mp hmem₁).resolve_left (Ne.symm ht₁)
        have hts₂ : before₂ ∈ ts := (List.mem_cons.mp hmem₂).resolve_left (Ne.symm ht₂)
        simp [insertBefore, ht₁, ht₂, ih hts₁ hts₂]

end

namespace ClauseTable

variable {t t₁ t₂ : ClauseTable} {key key₁ key₂ : String} {place place₁ place₂ : Option String}

/-! ### The order after two registrations -/

/-- A tag put in among others: before one of them, or at the end. -/
def putAmong (tag : String) : Option String → List String → List String
  | none, others => others ++ [tag]
  | some before, others => insertBefore tag before others

theorem placed_eq (key : String) (place : Option String) (order : List String) :
    placed key place order = putAmong key place (order.filter (· != key)) := by
  cases place with
  | none => exact List.insertIdx_length_self
  | some before => exact insertIdx_placeAmong key before _

theorem filter_putAmong {other : String} (hkey : key ≠ other) (hplace : place ≠ some other)
    (others : List String) :
    (putAmong key place others).filter (· != other) =
      putAmong key place (others.filter (· != other)) := by
  cases place with
  | none => simp [putAmong, hkey]
  | some before => exact filter_insertBefore_of_ne hkey (fun h => hplace (congrArg some h)) others

theorem putAmong_comm {others : List String} (hplaces : place₁ ≠ place₂)
    (h₁ : place₁ ≠ some key₂) (h₂ : place₂ ≠ some key₁) (hmem₁ : ∀ b ∈ place₁, b ∈ others)
    (hmem₂ : ∀ b ∈ place₂, b ∈ others) :
    putAmong key₂ place₂ (putAmong key₁ place₁ others) =
      putAmong key₁ place₁ (putAmong key₂ place₂ others) := by
  cases place₁ with
  | none =>
    cases place₂ with
    | none => exact absurd rfl hplaces
    | some before₂ => exact insertBefore_append (hmem₂ before₂ rfl) _
  | some before₁ =>
    cases place₂ with
    | none => exact (insertBefore_append (hmem₁ before₁ rfl) _).symm
    | some before₂ =>
      exact insertBefore_comm (fun h => hplaces (congrArg some h))
        (fun h => h₂ (congrArg some h.symm)) (fun h => h₁ (congrArg some h.symm))
        (hmem₁ before₁ rfl) (hmem₂ before₂ rfl)

theorem placed_placed (key : String) (place₁ place₂ : Option String) (order : List String) :
    placed key place₂ (placed key place₁ order) = placed key place₂ order := by
  rw [placed_eq, filter_placed, ← placed_eq]

theorem placed_comm {order : List String} (hkeys : key₁ ≠ key₂) (hplaces : place₁ ≠ place₂)
    (h₁ : ∀ b ∈ place₁, b ∈ order ∧ b ≠ key₁ ∧ b ≠ key₂)
    (h₂ : ∀ b ∈ place₂, b ∈ order ∧ b ≠ key₁ ∧ b ≠ key₂) :
    placed key₂ place₂ (placed key₁ place₁ order) =
      placed key₁ place₁ (placed key₂ place₂ order) := by
  have hother₁ : place₁ ≠ some key₂ := fun h => (h₁ key₂ h).2.2 rfl
  have hother₂ : place₂ ≠ some key₁ := fun h => (h₂ key₁ h).2.1 rfl
  -- The clauses that both registrations leave alone; each clause is put in among them.
  have hothers : (order.filter (· != key₂)).filter (· != key₁) =
      (order.filter (· != key₁)).filter (· != key₂) := by
    rw [List.filter_filter, List.filter_filter]
    simp only [Bool.and_comm]
  have hmem : ∀ b, b ∈ order ∧ b ≠ key₁ ∧ b ≠ key₂ →
      b ∈ (order.filter (· != key₁)).filter (· != key₂) := by
    rintro b ⟨hb, hb₁, hb₂⟩
    exact List.mem_filter.mpr ⟨List.mem_filter.mpr ⟨hb, by simpa using hb₁⟩, by simpa using hb₂⟩
  rw [placed_eq key₂, placed_eq key₁ place₁ order, filter_putAmong hkeys hother₁,
    placed_eq key₁, placed_eq key₂ place₂ order, filter_putAmong (Ne.symm hkeys) hother₂, hothers]
  exact putAmong_comm hplaces hother₁ hother₂ (fun b hb => hmem b (h₁ b hb))
    (fun b hb => hmem b (h₂ b hb))

/-! ### Registrations one after the other -/

section
variable {tag : String} {rule : ClauseRule} {before : Option String}

theorem map_registryKey_of_checkBefore (h : t.checkBefore key before = .ok place) :
    before.map registryKey = place.map .ok := by
  rcases checkBefore_cases h with ⟨rfl, rfl⟩ | ⟨b, b', rfl, rfl, hb, -⟩
  · rw [Option.map_none, Option.map_none]
  · rw [Option.map_some, Option.map_some, hb]

theorem mem_of_checkBefore (h : t.checkBefore key before = .ok place) :
    ∀ b ∈ place, b ∈ t.order ∧ b ≠ key := by
  rcases checkBefore_cases h with ⟨-, rfl⟩ | ⟨_, b', -, rfl, -, hne, hmem⟩
  · intro b hb
    cases hb
  · intro b hb
    cases hb
    exact ⟨hmem, hne⟩

/-- The place of a clause is found again as long as no clause is lost. -/
theorem checkBefore_of_subset (h : t.checkBefore key before = .ok place)
    (hsubset : t.order ⊆ t₁.order) : t₁.checkBefore key before = .ok place := by
  rcases checkBefore_cases h with ⟨rfl, rfl⟩ | ⟨b, b', rfl, rfl, hb, hne, hmem⟩
  · rfl
  · rw [checkBefore, hb]
    dsimp only
    rw [if_neg hne, if_pos (hsubset hmem)]

end

/-- **Registrations absorb one another and commute**, in every registry.  Of two registrations of
one clause the later one alone counts.  Two of different clauses lead to the same order and the same
rules, whichever comes first, if neither clause is the one that the other is put before, and they
are put before different clauses or only one of them at the end.  Tags are compared as they are
registered. -/
theorem registrations_absorb_and_commute {tag₁ tag₂ : String} {rule₁ rule₂ : ClauseRule}
    {before₁ before₂ : Option String} {entry₁ entry₂ : ClauseEntry}
    (h₁ : (register tag₁ rule₁ before₁).run t = (.ok entry₁, t₁))
    (h₂ : (register tag₂ rule₂ before₂).run t = (.ok entry₂, t₂)) :
    (registryKey tag₁ = registryKey tag₂ →
      (register tag₂ rule₂ before₂).run t₁ = (.ok entry₂, t₂)) ∧
    (registryKey tag₁ ≠ registryKey tag₂ →
      before₁.map registryKey ≠ some (registryKey tag₂) →
      before₂.map registryKey ≠ some (registryKey tag₁) →
      before₁.map registryKey ≠ before₂.map registryKey →
      ∃ entry₁' entry₂' t₁₂ t₂₁,
        (register tag₂ rule₂ before₂).run t₁ = (.ok entry₂', t₁₂) ∧
        (register tag₁ rule₁ before₁).run t₂ = (.ok entry₁', t₂₁) ∧
        t₁₂.order = t₂₁.order ∧ ∀ tag, t₁₂.rule? tag = t₂₁.rule? tag) := by
  obtain ⟨key₁, place₁, hkey₁, hplace₁, -, rfl⟩ := of_register_eq_ok h₁
  obtain ⟨key₂, place₂, hkey₂, hplace₂, rfl, rfl⟩ := of_register_eq_ok h₂
  have hagain₁ : ClauseTable.checkBefore ⟨placed key₂ place₂ t.order, Table.put key₂ rule₂ t.rules⟩
      key₁ before₁ = .ok place₁ := checkBefore_of_subset hplace₁ fun _ h => mem_placed.mpr (.inr h)
  have hagain₂ : ClauseTable.checkBefore ⟨placed key₁ place₁ t.order, Table.put key₁ rule₁ t.rules⟩
      key₂ before₂ = .ok place₂ := checkBefore_of_subset hplace₂ fun _ h => mem_placed.mpr (.inr h)
  rw [run_register hkey₂ hagain₂, run_register hkey₁ hagain₁]
  rw [hkey₁, hkey₂, map_registryKey_of_checkBefore hplace₁, map_registryKey_of_checkBefore hplace₂]
  constructor
  · intro hsame
    cases hsame
    rw [filter_placed, placed_placed, Table.put_put]
  · intro hkeys hbefore₁ hbefore₂ hbefores
    refine ⟨_, _, _, _, rfl, rfl, placed_comm ?_ ?_ ?_ ?_, ?_⟩
    · exact fun h => hkeys (congrArg _ h)
    · exact fun h => hbefores (congrArg _ h)
    · intro b hb
      obtain ⟨hmem, hne⟩ := mem_of_checkBefore hplace₁ b hb
      refine ⟨hmem, hne, ?_⟩
      rintro rfl
      exact hbefore₁ (congrArg (Option.map Except.ok) hb)
    · intro b hb
      obtain ⟨hmem, hne⟩ := mem_of_checkBefore hplace₂ b hb
      refine ⟨hmem, ?_, hne⟩
      rintro rfl
      exact hbefore₂ (congrArg (Option.map Except.ok) hb)
    · exact Table.get?_put_comm t.rules (fun h => hkeys (congrArg _ h.symm)) rule₂ rule₁

/-- A new clause is put before `order-by`.  It makes no difference that it was at the end before,
nor whether the assignments go to the end before or after that. -/
theorem registrations_absorb_and_commute_qualify :
    let first := register "qualify" Clause.expressions none
    let second := register ":Qualify " Clause.condition (some " ORDER-BY")
    let third := register "set" Clause.assignment none
    second.run (first.run builtin).2 = second.run builtin ∧
      (third.run (second.run builtin).2).2.order = (second.run (third.run builtin).2).2.order := by
  intro first second third
  have hfirst : first.run builtin = (.ok ⟨"qualify", 47⟩, (first.run builtin).2) :=
    Prod.ext (eq_ok_of_toOption (by decide +kernel)) rfl
  have hsecond : second.run builtin = (.ok ⟨"qualify", 34⟩, (second.run builtin).2) :=
    Prod.ext (eq_ok_of_toOption (by decide +kernel)) rfl
  have hthird : third.run builtin = (.ok ⟨"set", 46⟩, (third.run builtin).2) :=
    Prod.ext (eq_ok_of_toOption (by decide +kernel)) rfl
  have hqualify : registryKey "qualify" = .ok "qualify" := eq_ok_of_toOption (by decide +kernel)
  have hspaced : registryKey ":Qualify " = .ok "qualify" := eq_ok_of_toOption (by decide +kernel)
  have hset : registryKey "set" = .ok "set" := eq_ok_of_toOption (by decide +kernel)
  have horderBy : registryKey " ORDER-BY" = .ok "order-by" := eq_ok_of_toOption (by decide +kernel)
  obtain ⟨habsorb, -⟩ := registrations_absorb_and_commute hfirst hsecond
  obtain ⟨-, hcommute⟩ := registrations_absorb_and_commute hsecond hthird
  obtain ⟨_, _, _, _, hthen, hthen', horder, -⟩ :=
    hcommute (by simp [hspaced, hset]) (by simp [horderBy, hset]) (by simp) (by simp)
  refine ⟨(habsorb (hqualify.trans hspaced.symm)).trans hsecond.symm, ?_⟩
  rw [hthen, hthen', horder]

end ClauseTable
end Clausal
