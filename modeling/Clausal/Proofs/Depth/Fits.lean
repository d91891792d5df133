import Clausal.Evaluate
import Clausal.Proofs.Draft.Plain

/-! # How deep a layout goes

A layout *fits* in `n` levels when no expression or statement inside it needs more than `n`
(`Layout.Fits`).  A rule of the standard grammar only lays out values that lie inside what it was
asked about, so its layout fits in the weight of that (`Grammar.standard_bounded`).  The one rule
that makes a new value is the call sigil: `%f.a.b` becomes the list of `f`, `a` and `b`, and the
dots that are dropped pay for the list (`Value.weight_sigilCall`).

The predicate also says whether a layout asks if it stands inside an operator.  Forms and
operators do, because they may need parentheses; clauses do not.
-/
namespace Clausal

/-! ### Weights -/

namespace Value

theorem weight_pos (v : Value) : 0 < v.weight := by
  cases v <;> simp only [weight] <;> omega

theorem weight_le_of_mem {v : Value} {vs : List Value} (h : v ∈ vs) :
    v.weight ≤ weightItems vs := by
  induction vs with
  | nil => cases h
  | cons w vs ih =>
    rw [weightItems]
    rcases List.mem_cons.mp h with rfl | h
    · omega
    · have hrest := ih h
      omega

theorem weight_le_of_mem_seq {v : Value} {vs : List Value} (h : v ∈ vs) :
    v.weight ≤ (Value.seq vs).weight := by
  have hv := weight_le_of_mem h
  simp only [weight]
  omega

theorem weight_le_of_mem_items {v w : Value} (h : w ∈ v.items) : w.weight ≤ v.weight := by
  cases v with
  | seq vs => exact weight_le_of_mem_seq h
  | _ => exact Nat.le_of_eq (congrArg weight (List.mem_singleton.mp h))

theorem weight_le_of_mem_entries {s : Statement} {e : String × Value} (h : e ∈ s) :
    e.2.weight ≤ weightEntries s := by
  induction s with
  | nil => cases h
  | cons f s ih =>
    rw [weightEntries]
    rcases List.mem_cons.mp h with rfl | h
    · omega
    · have hrest := ih h
      omega

theorem weight_le_of_get? {s : Statement} {k : String} {v : Value} (h : Table.get? k s = some v) :
    v.weight ≤ weightEntries s :=
  weight_le_of_mem_entries (Table.mem_of_get? h)

theorem weightEntries_lt {s : Statement} {n : Nat} (h : (Value.map s).weight ≤ n) :
    weightEntries s < n := by
  simp only [weight] at h
  omega

theorem weightItems_filter_le {α : Type} (f : α → Value) (p : α → Bool) (xs : List α) :
    weightItems ((xs.filter p).map f) ≤ weightItems (xs.map f) := by
  induction xs with
  | nil => exact Nat.le_refl _
  | cons x xs ih =>
    rw [List.filter_cons, List.map_cons, weightItems]
    split
    · rw [List.map_cons, weightItems]
      omega
    · omega

end Value

namespace Layout

/-- Every value inside the layout can be evaluated in `n` levels.  Unless `asks`, the layout does
not ask whether it stands inside an operator. -/
@[simp] def Fits (n : Nat) (asks : Bool) : Layout → Prop
  | .expr nesting v => (nesting = .same → asks = true) ∧ v.weight ≤ n
  | .aliased v => v.weight ≤ n
  | .statement s => Value.weightEntries s < n
  | .append a b => a.Fits n asks ∧ b.Fits n asks
  | .beside _ a b => a.Fits n asks ∧ b.Fits n asks
  | .lead _ body => body.Fits n asks
  | .wrap body => asks = true ∧ body.Fits n asks
  | .within _ body => body.Fits n asks
  | _ => True

variable {n : Nat} {asks : Bool}

theorem Fits.mono {m : Nat} (hmn : m ≤ n) {l : Layout} (h : l.Fits m asks) : l.Fits n asks := by
  induction l with
  | expr nesting v => exact ⟨h.1, Nat.le_trans h.2 hmn⟩
  | aliased v => exact Nat.le_trans h hmn
  | statement s => exact Nat.lt_of_lt_of_le h hmn
  | append a b iha ihb => exact ⟨iha h.1, ihb h.2⟩
  | beside sep a b iha ihb => exact ⟨iha h.1, ihb h.2⟩
  | lead s body ih => exact ih h
  | wrap body ih => exact ⟨h.1, ih h.2⟩
  | within tag body ih => exact ih h
  | _ => trivial

/-! ### Phrases -/

@[simp] theorem fits_append (a b : Layout) :
    (a ++ b).Fits n asks ↔ a.Fits n asks ∧ b.Fits n asks := Iff.rfl

@[simp] theorem fits_empty : empty.Fits n asks := trivial

@[simp] theorem fits_top (v : Value) : (top v).Fits n asks ↔ v.weight ≤ n := by
  simp [top]

@[simp] theorem fits_inner (v : Value) : (inner v).Fits n asks ↔ v.weight ≤ n := by
  simp [inner]

@[simp] theorem fits_parens (l : Layout) : (parens l).Fits n asks ↔ l.Fits n asks := by
  simp [parens]

theorem fits_join (sep : String) (ls : List Layout) :
    (join sep ls).Fits n asks ↔ ∀ l ∈ ls, l.Fits n asks := by
  fun_induction join sep ls with
  | case1 => simp
  | case2 l => simp
  | case3 l ls hne ih => simp [ih]

@[simp] theorem fits_join_map {α : Type} (sep : String) (f : α → Layout) (xs : List α) :
    (join sep (xs.map f)).Fits n asks ↔ ∀ x ∈ xs, (f x).Fits n asks := by
  rw [fits_join, List.forall_mem_map]

@[simp] theorem fits_commas_map {α : Type} (f : α → Layout) (xs : List α) :
    (commas (xs.map f)).Fits n asks ↔ ∀ x ∈ xs, (f x).Fits n asks :=
  fits_join_map ", " f xs

@[simp] theorem fits_joinKept (sep : String) (ls : List Layout) :
    (joinKept sep ls).Fits n asks ↔ ∀ l ∈ ls, l.Fits n asks := by
  induction ls with
  | nil => simp [joinKept]
  | cons l ls ih =>
    rw [joinKept] at ih
    simp [joinKept, ih]

@[simp] theorem fits_nestedStatement (s : Statement) :
    (nestedStatement s).Fits n asks ↔ Value.weightEntries s < n := by
  simp [nestedStatement]

@[simp] theorem fits_column (v : Value) : (column v).Fits n asks := by
  unfold column
  split <;> trivial

@[simp] theorem fits_columns (vs : List Value) : (columns vs).Fits n asks := by
  simp [columns]

section
variable {v : Value} (h : v.weight ≤ n)
include h

theorem fits_withAlias (name : Value) : (withAlias v name).Fits n asks := by
  unfold withAlias
  refine ⟨?_, ?_⟩
  · split
    · trivial
    · exact (fits_top _).mpr h
  · split <;> simp

theorem fits_table : (table v).Fits n asks := by
  unfold table
  split
  · trivial
  · exact h

/-- What is laid out item by item fits if the list does. -/
theorem fits_items {f : Value → Layout} (hf : ∀ w, w.weight ≤ n → (f w).Fits n asks) :
    (commas (v.items.map f)).Fits n asks := by
  rw [fits_commas_map]
  intro w hw
  exact hf w (Nat.le_trans (Value.weight_le_of_mem_items hw) h)

theorem fits_aliasedList : (aliasedList v).Fits n asks := fits_items h fun _ hw => hw

theorem fits_tables : (tables v).Fits n asks := fits_items h fun _ hw => fits_table hw

theorem fits_exprs : (exprs v).Fits n asks := fits_items h fun w hw => (fits_top w).mpr hw

theorem fits_nest : (nest v).Fits n asks := by
  unfold nest
  split
  · exact (fits_nestedStatement _).mpr (Value.weightEntries_lt h)
  · simpa using h

theorem fits_orderItem : (orderItem v).Fits n asks := by
  unfold orderItem
  split
  · have hfirst := Nat.le_trans (Value.weight_le_of_mem_seq List.mem_cons_self) h
    exact ⟨(fits_top _).mpr hfirst, trivial⟩
  · have hfirst := Nat.le_trans (Value.weight_le_of_mem_seq List.mem_cons_self) h
    exact ⟨(fits_top _).mpr hfirst, trivial, trivial⟩
  · exact ⟨(fits_top _).mpr h, trivial⟩

theorem fits_orderItems : (orderItems v.items).Fits n asks :=
  fits_items h fun _ hw => fits_orderItem hw

theorem fits_raw : (raw v).Fits n asks := by
  unfold raw
  split
  · trivial
  · rename_i parts
    have hparts : ∀ part ∈ parts, part.weight ≤ n := fun part hpart =>
      Nat.le_trans (Value.weight_le_of_mem_seq hpart) h
    clear h
    induction parts with
    | nil => trivial
    | cons part parts ih =>
      refine ⟨?_, ih fun w hw => hparts w (List.mem_cons_of_mem _ hw)⟩
      split
      · trivial
      · exact (fits_top _).mpr (hparts _ List.mem_cons_self)
  · trivial

end

theorem fits_valueList {vs : List Value} (h : ∀ v ∈ vs, v.weight ≤ n) :
    (valueList vs).Fits n asks := by
  simpa [valueList] using h

theorem fits_assignments {s : Statement} (h : Value.weightEntries s ≤ n) :
    (assignments s).Fits n asks := by
  unfold assignments
  split
  · trivial
  · rw [fits_commas_map]
    intro e he
    have hvalue := Value.weight_le_of_mem_entries he
    refine ⟨⟨trivial, trivial⟩, (fits_top _).mpr ?_⟩
    omega

theorem fits_call (name : String) {args : List Value} (h : ∀ v ∈ args, v.weight ≤ n) :
    (call name args).Fits n asks := by
  unfold call
  rw [fits_append, fits_parens]
  refine ⟨trivial, ?_⟩
  split
  · exact Value.weightEntries_lt (h _ List.mem_cons_self)
  · simpa using h

end Layout

/-! ### Clauses -/

namespace Clause
open Layout

variable (tag : String) (statement : Statement) {payload : Value} {n : Nat} {asks : Bool}

theorem mem_pairs {α : Type} {p : α × α} : ∀ {xs : List α}, p ∈ pairs xs → p.1 ∈ xs ∧ p.2 ∈ xs
  | a :: b :: rest, h => by
    rcases List.mem_cons.mp h with rfl | h
    · simp
    · obtain ⟨hfst, hsnd⟩ := mem_pairs h
      exact ⟨by simp [hfst], by simp [hsnd]⟩

theorem weight_of_rows? {rows : List Value} (h : payload.rows? = some rows) :
    ∀ v ∈ rows, v.weight ≤ payload.weight := by
  unfold Value.rows? at h
  split at h
  · cases h
    exact fun v hv => Value.weight_le_of_mem_seq hv
  · cases h

theorem weight_of_evenItems? {items : List Value} (h : payload.evenItems? = some items) :
    ∀ v ∈ items, v.weight ≤ payload.weight := by
  unfold Value.evenItems? at h
  split at h
  · split at h
    · cases h
      exact fun v hv => Value.weight_le_of_mem_seq hv
    · cases h
  · cases h

theorem weight_of_rowMaps? {rows : List Value} {maps : List Statement}
    (h : rowMaps? rows = some maps) {row : Statement} (hrow : row ∈ maps) :
    Value.map row ∈ rows := by
  fun_induction rowMaps? rows generalizing maps with
  | case1 =>
    cases h
    cases hrow
  | case2 first rest ih =>
    obtain ⟨others, hothers, rfl⟩ := Option.map_eq_some_iff.mp h
    rcases List.mem_cons.mp hrow with rfl | hrow
    · exact List.mem_cons_self
    · exact List.mem_cons_of_mem _ (ih hothers hrow)
  | case3 => cases h

theorem fits_select (payload : Value) :
    (select tag payload statement).Fits payload.weight asks := by
  unfold select
  dsimp only
  split
  · exact ⟨trivial, fits_aliasedList (Nat.le_refl _)⟩
  · trivial

theorem fits_selectDistinctOn (payload : Value) :
    (selectDistinctOn tag payload statement).Fits payload.weight asks := by
  unfold selectDistinctOn
  split
  · rename_i on items
    simp only [fits_append, fits_parens]
    refine ⟨⟨⟨trivial, fits_exprs ?_⟩, trivial⟩, fits_aliasedList ?_⟩
    · exact Value.weight_le_of_mem_seq List.mem_cons_self
    · simp only [Value.weight, Value.weightItems]
      omega
  · trivial

theorem fits_joinCondition {v : Value} (h : v.weight ≤ n) : (joinCondition v).Fits n asks := by
  unfold joinCondition
  split
  · trivial
  · split
    · simp
    · exact (fits_top _).mpr h
  · exact (fits_top _).mpr h

theorem fits_joins (payload : Value) : (joins tag payload statement).Fits payload.weight asks := by
  unfold joins
  dsimp only
  split
  · rename_i items hitems
    rw [fits_join_map]
    intro pair hpair
    obtain ⟨hsource, hcondition⟩ := mem_pairs hpair
    have hweight := weight_of_evenItems? hitems
    exact ⟨⟨⟨trivial, trivial⟩, fits_table (hweight _ hsource)⟩,
      fits_joinCondition (hweight _ hcondition)⟩
  · trivial

theorem fits_condition (payload : Value) :
    (condition tag payload statement).Fits payload.weight asks := by
  unfold condition
  split
  · trivial
  · exact (fits_top _).mpr (Nat.le_refl _)

theorem fits_windows (payload : Value) :
    (windows tag payload statement).Fits payload.weight asks := by
  unfold windows
  split
  · rename_i items _ hitems
    refine ⟨trivial, ?_⟩
    rw [fits_commas_map]
    intro pair hpair
    have hspec := weight_of_evenItems? hitems _ (mem_pairs hpair).2
    show (namedWindow pair.1 pair.2).Fits payload.weight asks
    unfold namedWindow
    split
    · rename_i spec hmap
      rw [hmap] at hspec
      simpa using Value.weightEntries_lt hspec
    · simp
  · trivial

theorem fits_rowLock (payload : Value) : (rowLock tag payload statement).Fits n asks := by
  unfold rowLock
  split
  · simp only [fits_append]
    refine ⟨⟨⟨trivial, trivial⟩, ?_⟩, ?_⟩
    · split <;> simp
    · split <;> trivial
  · trivial

theorem fits_tableLock (payload : Value) : (tableLock tag payload statement).Fits n asks := by
  unfold tableLock
  split
  · split <;> trivial
  · trivial

theorem fits_insertTarget {v : Value} (h : v.weight ≤ n) : (insertTarget v).Fits n asks := by
  have hfirst : ∀ {w : Value} {rest : List Value}, v = .seq (w :: rest) → w.weight ≤ n := by
    rintro w rest rfl
    exact Nat.le_trans (Value.weight_le_of_mem_seq List.mem_cons_self) h
  unfold insertTarget
  split
  · trivial
  · trivial
  · simp
  · simp
  · exact fits_withAlias (hfirst rfl) _
  · exact fits_withAlias (hfirst rfl) _
  · trivial

theorem fits_insertion (payload : Value) :
    (insertion tag payload statement).Fits payload.weight asks := by
  unfold insertion
  dsimp only
  split
  · rename_i target query
    have htarget : target.weight ≤ (Value.seq [target, .map query]).weight :=
      Value.weight_le_of_mem_seq List.mem_cons_self
    have hquery : (Value.map query).weight ≤ (Value.seq [target, .map query]).weight :=
      Value.weight_le_of_mem_seq (List.mem_cons_of_mem _ List.mem_cons_self)
    exact ⟨⟨⟨trivial, fits_insertTarget htarget⟩, trivial⟩, Value.weightEntries_lt hquery⟩
  · exact ⟨trivial, fits_insertTarget (Nat.le_refl _)⟩

theorem fits_mapRow (cols : List String) {row : Statement} (h : (Value.map row).weight ≤ n) :
    (mapRow cols row).Fits n asks := by
  unfold mapRow
  rw [fits_parens, fits_commas_map]
  intro column _
  split
  · rename_i v hv
    have hvalue := Value.weight_le_of_get? hv
    have hrow := Value.weightEntries_lt h
    rw [fits_top]
    omega
  · trivial

theorem fits_rows (payload : Value) : (rows tag payload statement).Fits payload.weight asks := by
  unfold rows
  split
  · trivial
  · split
    · trivial
    · rename_i rows hrows
      have hweight := weight_of_rows? hrows
      split
      · rename_i maps hmaps
        have hrow : ∀ cols, ∀ row ∈ maps, (mapRow cols row).Fits payload.weight asks :=
          fun cols row hrow => fits_mapRow cols (hweight _ (weight_of_rowMaps? hmaps hrow))
        unfold mapRows
        dsimp only
        split
        · trivial
        · split <;> simpa using hrow _
      · refine ⟨trivial, ?_⟩
        rw [fits_commas_map]
        intro v hv
        unfold listRow
        split
        · exact fits_valueList fun w hw =>
            Nat.le_trans (Value.weight_le_of_mem_seq hw) (hweight _ hv)
        · trivial

theorem fits_assignment (payload : Value) :
    (assignment tag payload statement).Fits payload.weight asks := by
  unfold assignment
  split
  · exact ⟨trivial, fits_assignments (Nat.le_of_lt (Value.weightEntries_lt (Nat.le_refl _)))⟩
  · trivial

theorem fits_conflict (payload : Value) : (conflict tag payload statement).Fits n asks := by
  unfold conflict
  split <;> simp

theorem fits_conflictFields (payload : Value) {v : Value} (h : v.weight ≤ n) :
    (conflictFields payload v).Fits n asks := by
  unfold conflictFields
  split
  · exact fits_assignments (Nat.le_of_lt (Value.weightEntries_lt h))
  · split <;> simp [excluded]

theorem fits_conflictUpdate (payload : Value) :
    (conflictUpdate tag payload statement).Fits payload.weight asks := by
  unfold conflictUpdate
  dsimp only
  split
  · rename_i spec
    have hspec := Value.weightEntries_lt (Nat.le_refl (Value.map spec).weight)
    split
    · rename_i fields hfields
      have hweight := Value.weight_le_of_get? hfields
      refine ⟨⟨trivial, fits_conflictFields _ (by omega)⟩, ?_⟩
      split
      · rename_i predicate hpredicate
        have hlight := Value.weight_le_of_get? hpredicate
        exact (fits_top _).mpr (by omega)
      · trivial
    · exact ⟨trivial, fits_conflictFields _ (Nat.le_refl _)⟩
  · exact ⟨trivial, fits_conflictFields _ (Nat.le_refl _)⟩

theorem fits_duplicateUpdate (payload : Value) :
    (duplicateUpdate tag payload statement).Fits payload.weight asks := by
  unfold duplicateUpdate
  refine ⟨trivial, ?_⟩
  split
  · exact fits_assignments (Nat.le_of_lt (Value.weightEntries_lt (Nat.le_refl _)))
  · simp [inserted]

theorem fits_bindings (payload : Value) :
    (bindings tag payload statement).Fits payload.weight asks := by
  unfold bindings
  split
  · rename_i items hitems
    refine ⟨⟨trivial, trivial⟩, ?_⟩
    rw [fits_commas_map]
    intro v hv
    have hbinding := weight_of_rows? hitems v hv
    unfold binding
    split
    · rename_i name query
      refine ⟨⟨?_, trivial⟩, fits_nest ?_⟩
      · unfold bindingName
        split <;> simp
      · have hquery : query ∈ [name, query] := List.mem_cons_of_mem _ List.mem_cons_self
        exact Nat.le_trans (Value.weight_le_of_mem_seq hquery) hbinding
    · trivial
  · trivial

theorem fits_setOperation (payload : Value) :
    (setOperation tag payload statement).Fits payload.weight asks := by
  unfold setOperation
  split
  · rename_i items hitems
    rw [fits_join_map]
    intro v hv
    have hmember := weight_of_rows? hitems v hv
    unfold member
    split
    · exact Value.weightEntries_lt hmember
    · exact (fits_top _).mpr hmember
  · trivial

/-- Every built-in clause lays out values from inside its payload, and does not ask whether it
stands inside an operator. -/
theorem fits_builtin (payload : Value) :
    ∀ e ∈ builtin, (e.2 tag payload statement).Fits payload.weight asks := by
  have hself : payload.weight ≤ payload.weight := Nat.le_refl _
  simp [builtin, fits_select, fits_selectDistinctOn, fits_joins, fits_condition, fits_windows,
    fits_rowLock, fits_tableLock, fits_insertion, fits_rows, fits_assignment, fits_conflict,
    fits_conflictUpdate, fits_duplicateUpdate, fits_bindings, fits_setOperation, verbatim, nested,
    columnNames, sources, crossJoin, expressions, orderBy, limit, offset, fetch, returning, update,
    deletion, deletionFrom, truncation, constraint, nothing, fits_raw hself, fits_nest hself,
    fits_table hself, fits_tables hself, fits_exprs hself, fits_orderItems hself,
    fits_aliasedList hself]

end Clause
end Clausal
