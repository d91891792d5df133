import Clausal.Proofs.KeyOrder.Layouts

/-! # Clauses of alike statements

Every built-in clause makes alike layouts of alike payloads that list the same columns
(`Clause.like_builtin`).  Assignments and rows are written column by column; every other
clause reads maps by look-up, and what it asks of its neighbours in the statement does not
depend on where they stand.
-/
namespace Clausal

open Value (Alike)

/-- Related results, or none from either. -/
def Concur {ε α : Type} (R : α → α → Prop) (x y : Except ε α) : Prop :=
  (∃ a b, x = .ok a ∧ y = .ok b ∧ R a b) ∨ ∃ e f, x = .error e ∧ y = .error f

theorem Concur.same {ε α : Type} (x : Except ε α) : Concur (· = ·) x x := by
  cases x with
  | ok a => exact .inl ⟨a, a, rfl, rfl, rfl⟩
  | error e => exact .inr ⟨e, e, rfl, rfl⟩

namespace Clause
variable {tag : String} {v w : Value} {s t : Statement} {as bs : List Value}

open Layout

theorem modifiers_concur (head : String) (h : List.Forall₂ Alike as bs) :
    Concur (· = ·) (modifiers head as) (modifiers head bs) := by
  induction h generalizing head with
  | nil => exact .same _
  | cons hab _ ih =>
    cases hab with
    | ident name => exact ih (head ++ " " ++ keyword name)
    | _ => exact .inr ⟨_, _, rfl, rfl⟩

theorem like_select (hs : Alike (.map s) (.map t)) (h : Alike v w) :
    (select tag v s).Like (select tag w t) := by
  have hlist := like_aliasedList h
  unfold select
  dsimp only
  rcases hs.payload "modifiers" with ⟨hs, ht⟩ | ⟨a, b, hs, ht, hab⟩
  · rw [hs, ht]
    simp [hlist]
  · rw [hs, ht]
    by_cases htag : tag = "select"
    · subst htag
      rcases modifiers_concur (keyword "select") hab.items with
        ⟨head, _, ha, hb, rfl⟩ | ⟨_, _, ha, hb⟩
      · simp [ha, hb, hlist]
      · simp [ha, hb]
    · simp [htag, hlist]

theorem like_selectDistinctOn (h : Alike v w) :
    (selectDistinctOn tag v s).Like (selectDistinctOn tag w t) := by
  cases h with
  | seq h =>
    cases h with
    | nil => trivial
    | cons hab h => simp [selectDistinctOn, like_exprs hab, like_aliasedList (Alike.seq h)]
  | _ => simp [selectDistinctOn]

theorem like_joinCondition (h : Alike v w) : (joinCondition v).Like (joinCondition w) := by
  have hwhole := h
  cases h with
  | seq h =>
    cases h with
    | nil => simp [joinCondition, hwhole]
    | cons hab h =>
      unfold joinCondition
      dsimp only
      rw [hab.isWord]
      split
      · simp [like_columns h]
      · simp [hwhole]
  | _ => simp [joinCondition, hwhole]

theorem forall₂_pairs (h : List.Forall₂ Alike as bs) :
    List.Forall₂ (fun p q => Alike p.1 q.1 ∧ Alike p.2 q.2) (pairs as) (pairs bs) := by
  fun_induction pairs as generalizing bs with
  | case1 a a' as ih =>
    cases h with
    | cons hab h =>
      cases h with
      | cons hab' h => exact .cons ⟨hab, hab'⟩ (ih h)
  | case2 as hne =>
    cases h with
    | nil => exact .nil
    | cons hab h =>
      cases h with
      | nil => exact .nil
      | cons hab' h => exact absurd rfl (hne _ _ _)

theorem like_joins (h : Alike v w) : (joins tag v s).Like (joins tag w t) := by
  unfold joins
  dsimp only
  rcases h.evenItems? with ⟨hv, hw⟩ | ⟨as, bs, hv, hw, hab⟩
  · rw [hv, hw]
    trivial
  · rw [hv, hw]
    refine like_congruence.join_map " " (forall₂_pairs hab) fun p q hpq => ?_
    simp [like_table hpq.1, like_joinCondition hpq.2]

theorem like_condition (h : Alike v w) : (condition tag v s).Like (condition tag w t) := by
  have hwhole := h
  cases h <;> simp [condition, hwhole]

theorem like_namedWindow {name name' : Value} (hname : Alike name name') (h : Alike v w) :
    (namedWindow name v).Like (namedWindow name' w) := by
  have hwhole := h
  cases h <;> simp [namedWindow, like_column hname, hwhole]

theorem like_windows (h : Alike v w) : (windows tag v s).Like (windows tag w t) := by
  unfold windows
  rcases h.rows? with ⟨hv, hw⟩ | ⟨_, _, hv, hw, -⟩
  · rw [hv, hw]
    trivial
  · rw [hv, hw]
    rcases h.evenItems? with ⟨hv, hw⟩ | ⟨as, bs, hv, hw, hab⟩
    · rw [hv, hw]
      trivial
    · rw [hv, hw]
      exact ⟨rfl, like_congruence.join_map ", " (forall₂_pairs hab)
        fun _ _ hpq => like_namedWindow hpq.1 hpq.2⟩

theorem waitPolicy?_eq (h : Alike v w) : waitPolicy? v = waitPolicy? w :=
  h.congr (fun _ _ => rfl) (fun _ _ => rfl)

theorem forall₂_locked (h : List.Forall₂ Alike as bs) :
    List.Forall₂ Alike (as.filter fun v => (waitPolicy? v).isNone)
      (bs.filter fun v => (waitPolicy? v).isNone) := by
  refine List.rel_filter ?_ h
  intro v w hvw
  simp only [waitPolicy?_eq hvw]

theorem filterMap_waitPolicy (h : List.Forall₂ Alike as bs) :
    as.filterMap waitPolicy? = bs.filterMap waitPolicy? := by
  induction h with
  | nil => rfl
  | cons hab _ ih => rw [List.filterMap_cons, List.filterMap_cons, waitPolicy?_eq hab, ih]

theorem like_lockedColumns (h : List.Forall₂ Alike as bs) :
    (if as.isEmpty then empty else " OF " ++ commas (as.map column)).Like
      (if bs.isEmpty then empty else " OF " ++ commas (bs.map column)) := by
  have hcommas := like_commas (fun _ _ => like_column) h
  cases h with
  | nil => exact like_empty
  | cons => exact ⟨rfl, hcommas⟩

theorem like_rowLock (h : Alike v w) : (rowLock tag v s).Like (rowLock tag w t) := by
  have hitems := h.items
  unfold rowLock
  generalize v.items = as, w.items = bs at hitems
  cases hitems with
  | nil => trivial
  | cons hab h =>
    cases hab with
    | ident strength =>
      dsimp only
      rw [filterMap_waitPolicy h]
      refine ⟨⟨⟨rfl, rfl⟩, ?_⟩, ?_⟩
      · exact like_lockedColumns (forall₂_locked h)
      · split <;> simp
    | _ => trivial

theorem like_tableLock (h : Alike v w) : (tableLock tag v s).Like (tableLock tag w t) := by
  unfold tableLock
  rw [h.isEmpty_items]
  rcases modifiers_concur "LOCK" h.items with ⟨words, _, hv, hw, rfl⟩ | ⟨a, b, hv, hw⟩
  · rw [hv, hw]
    dsimp only
    split <;> simp
  · rw [hv, hw]
    trivial

theorem like_insertTarget (h : Alike v w) : (insertTarget v).Like (insertTarget w) := by
  cases h with
  | seq h =>
    cases h with
    | nil => trivial
    | cons hab h =>
      cases h with
      | nil => exact like_column hab
      | cons hcd h =>
        cases h with
        | nil =>
          cases hcd with
          | seq h => simp [insertTarget, like_column hab, like_columns h]
          | ident name => exact like_withAlias hab (.ident name)
          | str name => exact like_withAlias hab (.str name)
          | _ => trivial
        | cons => simp [insertTarget]
  | _ => simp [insertTarget]

theorem like_insertion (h : Alike v w) : (insertion tag v s).Like (insertion tag w t) := by
  have htarget := like_insertTarget h
  cases h with
  | seq h =>
    cases h with
    | nil => simp [insertion, htarget]
    | cons hab h =>
      cases h with
      | nil => simp [insertion, htarget]
      | cons hcd h =>
        cases h with
        | nil =>
          have hquery := hcd
          cases hcd <;> simp [insertion, htarget, like_insertTarget hab, hquery]
        | cons => simp [insertion, htarget]
  | _ => simp [insertion, htarget]

/-- Rows that are maps are alike as maps, and rows that are not stay so. -/
theorem rowMaps?_cases (h : List.Forall₂ Alike as bs) :
    rowMaps? as = none ∧ rowMaps? bs = none ∨
      ∃ rows rows', rowMaps? as = some rows ∧ rowMaps? bs = some rows' ∧
        List.Forall₂ (fun s t => Alike (.map s) (.map t)) rows rows' := by
  induction h with
  | nil => exact .inr ⟨[], [], rfl, rfl, .nil⟩
  | cons hab _ ih =>
    have hrow := hab
    cases hab with
    | map =>
      rcases ih with ⟨has, hbs⟩ | ⟨rows, rows', has, hbs, hrows⟩
      · exact .inl ⟨by simp [rowMaps?, has], by simp [rowMaps?, hbs]⟩
      · exact .inr ⟨_, _, by rw [rowMaps?, has]; rfl, by rw [rowMaps?, hbs]; rfl,
          .cons hrow hrows⟩
    | _ => exact .inl ⟨rfl, rfl⟩

theorem nameTexts_concur (h : List.Forall₂ Alike as bs) :
    Concur (· = ·) (nameTexts as) (nameTexts bs) := by
  induction h with
  | nil => exact .same _
  | @cons a b _ _ hab _ ih =>
    unfold nameTexts
    rw [hab.text?]
    cases b.text? with
    | none => exact .inr ⟨_, _, rfl, rfl⟩
    | some name =>
      rcases ih with ⟨names, _, ha, hb, rfl⟩ | ⟨e, f, ha, hb⟩
      · rw [ha, hb]
        exact .same _
      · exact .inr ⟨e, f, by simp [ha], by simp [hb]⟩

/-- The columns of alike rows concur, as a clause names them or as the statements list them. -/
theorem rowColumns_concur {rows rows' : List Statement}
    (hs : Alike (.map s) (.map t)) (hv : v.rows?.bind rowMaps? = some rows)
    (hw : w.rows?.bind rowMaps? = some rows')
    (hlisted : listedColumns s "values" v = listedColumns t "values" w) :
    Concur (· = ·) (rowColumns rows (s.get? "columns"))
      (rowColumns rows' (t.get? "columns")) := by
  simp only [listedColumns, hv, hw] at hlisted
  rcases hs.payload "columns" with ⟨hs, ht⟩ | ⟨a, b, hs, ht, hab⟩
  · rw [hs, ht] at hlisted ⊢
    exact .inl ⟨_, _, rfl, rfl, hlisted⟩
  · rw [hs, ht] at hlisted ⊢
    -- Only a list of names can be wrong, and it is wrong in both or in none.
    cases hab with
    | seq h => exact nameTexts_concur h
    | _ => exact .inl ⟨_, _, rfl, rfl, hlisted⟩

theorem like_mapRow (cols : List String) (h : Alike (.map s) (.map t)) :
    (mapRow cols s).Like (mapRow cols t) := by
  refine (like_parens _ _).mpr (like_congruence.join ", " ?_)
  rw [List.forall₂_map_left_iff, List.forall₂_map_right_iff, List.forall₂_same]
  intro column _
  rcases h.payload column with ⟨hs, ht⟩ | ⟨a, b, hs, ht, hab⟩
  · simp [hs, ht]
  · simp [hs, ht, hab]

theorem like_mapRows {rows rows' : List Statement} (hs : Alike (.map s) (.map t))
    (hrows : List.Forall₂ (fun s t => Alike (.map s) (.map t)) rows rows')
    (hcolumns : Concur (· = ·) (rowColumns rows (s.get? "columns"))
      (rowColumns rows' (t.get? "columns"))) :
    (mapRows rows s).Like (mapRows rows' t) := by
  have hnamed : (s.get? "columns").isSome = (t.get? "columns").isSome := hs.has _
  unfold mapRows
  dsimp only
  rcases hcolumns with ⟨cols, _, hleft, hright, rfl⟩ | ⟨_, _, hleft, hright⟩
  · rw [hleft, hright, hnamed]
    have hbody := like_congruence.join_map ", " hrows fun _ _ => like_mapRow cols
    dsimp only
    split
    · exact ⟨rfl, hbody⟩
    · refine ⟨⟨(like_parens _ _).mpr (like_congruence.join ", " ?_), rfl⟩, rfl, hbody⟩
      rw [List.forall₂_map_left_iff, List.forall₂_map_right_iff, List.forall₂_same]
      intro column _
      rfl
  · rw [hleft, hright]
    trivial

theorem like_listRow (h : Alike v w) : (listRow v).Like (listRow w) := by
  cases h with
  | seq h => exact like_congruence.valueList h
  | _ => trivial

theorem like_rows (hs : Alike (.map s) (.map t)) (h : Alike v w)
    (hlisted : listedColumns s "values" v = listedColumns t "values" w) :
    (rows tag v s).Like (rows tag w t) := by
  unfold rows
  rw [h.isWord]
  split
  · simp
  · rcases h.rows? with ⟨hv, hw⟩ | ⟨as, bs, hv, hw, hab⟩
    · rw [hv, hw]
      trivial
    · rw [hv, hw]
      dsimp only
      rcases rowMaps?_cases hab with ⟨has, hbs⟩ | ⟨rows, rows', has, hbs, hrows⟩
      · rw [has, hbs]
        exact ⟨rfl, like_commas (fun _ _ => like_listRow) hab⟩
      · rw [has, hbs]
        refine like_mapRows hs hrows (rowColumns_concur hs ?_ ?_ hlisted)
        · rw [hv]
          exact has
        · rw [hw]
          exact hbs

theorem like_assignment (h : Alike v w)
    (hlisted : listedColumns s "set" v = listedColumns t "set" w) :
    (assignment tag v s).Like (assignment tag w t) := by
  have hwhole := h
  cases h with
  | map => exact ⟨rfl, like_assignments hwhole (by simpa [listedColumns, Value.map?] using hlisted)⟩
  | _ => simp [assignment]

theorem like_conflict (h : Alike v w) : (conflict tag v s).Like (conflict tag w t) := by
  have hitems := like_columns h.items
  cases h with
  | seq h =>
    cases h with
    | nil => simp [conflict]
    | cons => simp [conflict, hitems]
  | _ => simp [conflict, hitems]

theorem like_excluded (h : Alike v w) : (excluded v).Like (excluded w) := by
  simp [excluded, like_column h]

theorem like_inserted (h : Alike v w) : (inserted v).Like (inserted w) := by
  simp [inserted, like_column h]

theorem like_conflictFields {payload payload' : Value} (h : Alike v w)
    (htags : Statement.tags (v.map?.getD []) = Statement.tags (w.map?.getD [])) :
    (conflictFields payload v).Like (conflictFields payload' w) := by
  have hcommas := like_commas (fun _ _ => like_excluded) h.items
  have hempty := h.isEmpty_items
  have hwhole := h
  cases h with
  | map => exact like_assignments hwhole htags
  | _ =>
    unfold conflictFields
    dsimp only
    rw [hempty]
    split
    · trivial
    · exact hcommas

theorem like_conflictUpdate (h : Alike v w)
    (hlisted : listedColumns s "do-update-set" v = listedColumns t "do-update-set" w) :
    (conflictUpdate tag v s).Like (conflictUpdate tag w t) := by
  have hwhole := h
  cases h with
  | map =>
    unfold conflictUpdate
    simp only [listedColumns, Value.map?] at hlisted
    dsimp only
    rcases hwhole.payload "fields" with ⟨hs, ht⟩ | ⟨a, b, hs, ht, hab⟩
    · simp only [hs, ht] at hlisted ⊢
      exact ⟨rfl, like_conflictFields hwhole hlisted⟩
    · simp only [hs, ht] at hlisted ⊢
      refine ⟨⟨rfl, like_conflictFields hab hlisted⟩, ?_⟩
      rcases hwhole.payload "where" with ⟨hs, ht⟩ | ⟨_, _, hs, ht, hpredicate⟩
      · rw [hs, ht]
        exact like_empty
      · rw [hs, ht]
        exact ⟨rfl, like_top.mpr hpredicate⟩
  | _ => exact ⟨rfl, like_conflictFields hwhole rfl⟩

theorem like_duplicateUpdate (h : Alike v w)
    (hlisted : listedColumns s "on-duplicate-key-update" v =
      listedColumns t "on-duplicate-key-update" w) :
    (duplicateUpdate tag v s).Like (duplicateUpdate tag w t) := by
  have hcommas := like_commas (fun _ _ => like_inserted) h.items
  have hwhole := h
  cases h with
  | map => exact ⟨rfl, like_assignments hwhole (by simpa [listedColumns, Value.map?] using hlisted)⟩
  | _ => exact ⟨rfl, hcommas⟩

theorem like_bindingName (h : Alike v w) : (bindingName v).Like (bindingName w) := by
  have hcolumn := like_column h
  cases h with
  | seq h =>
    cases h with
    | nil => exact hcolumn
    | cons hab h =>
      cases h with
      | nil => exact like_column hab
      | cons hcd h => simp [bindingName, like_column hab, like_columns (.cons hcd h)]
  | _ => exact hcolumn

theorem like_binding (h : Alike v w) : (binding v).Like (binding w) := by
  cases h with
  | seq h =>
    cases h with
    | nil => trivial
    | cons hab h =>
      cases h with
      | nil => trivial
      | cons hcd h =>
        cases h with
        | nil => simp [binding, like_bindingName hab, like_congruence.nest hcd]
        | cons => trivial
  | _ => trivial

theorem like_bindings (h : Alike v w) : (bindings tag v s).Like (bindings tag w t) := by
  unfold bindings
  rcases h.rows? with ⟨hv, hw⟩ | ⟨as, bs, hv, hw, hab⟩
  · rw [hv, hw]
    trivial
  · rw [hv, hw]
    exact ⟨⟨rfl, rfl⟩, like_commas (fun _ _ => like_binding) hab⟩

theorem like_member (h : Alike v w) : (member v).Like (member w) := by
  have hwhole := h
  cases h <;> simp [member, hwhole]

theorem like_setOperation (h : Alike v w) :
    (setOperation tag v s).Like (setOperation tag w t) := by
  unfold setOperation
  rcases h.rows? with ⟨hv, hw⟩ | ⟨as, bs, hv, hw, hab⟩
  · rw [hv, hw]
    trivial
  · rw [hv, hw]
    exact like_congruence.join_map _ hab fun _ _ => like_member

theorem like_sources (h : Alike v w) : (sources tag v s).Like (sources tag w t) :=
  ⟨⟨rfl, rfl⟩, like_tables h⟩

theorem like_expressions (h : Alike v w) : (expressions tag v s).Like (expressions tag w t) :=
  ⟨⟨rfl, rfl⟩, like_exprs h⟩

theorem like_offset (hs : Alike (.map s) (.map t)) (h : Alike v w) :
    (offset tag v s).Like (offset tag w t) := by
  have hfetch : s.contains "fetch" = t.contains "fetch" := hs.has _
  unfold offset
  rw [hfetch]
  split <;> simp [h]

theorem like_fetch (hs : Alike (.map s) (.map t)) (h : Alike v w) :
    (fetch tag v s).Like (fetch tag w t) := by
  have hoffset : s.contains "offset" = t.contains "offset" := hs.has _
  unfold fetch
  rw [hoffset]
  split <;> simp [h]

/-- Every built-in clause makes alike layouts of alike payloads that list the same columns. -/
theorem like_builtin (hs : Alike (.map s) (.map t)) (h : Alike v w) :
    ∀ e ∈ builtin, listedColumns s e.1 v = listedColumns t e.1 w →
      (e.2 e.1 v s).Like (e.2 e.1 w t) := by
  -- Each clause by its rule, in the order of the table.
  simp only [builtin, List.forall_mem_cons, List.not_mem_nil, false_imp_iff, implies_true, and_true]
  refine ⟨fun _ => like_raw h, fun _ => like_congruence.nest h, fun _ => like_bindings h,
    fun _ => like_bindings h, fun _ => like_setOperation h, fun _ => like_setOperation h,
    fun _ => like_setOperation h, fun _ => like_setOperation h, fun _ => like_setOperation h,
    fun _ => like_select hs h, fun _ => like_select hs h, fun _ => like_selectDistinctOn h,
    fun _ => like_insertion h, fun _ => like_insertion h, fun _ => ⟨rfl, like_table h⟩,
    fun _ => ⟨rfl, like_tables h⟩, fun _ => ⟨rfl, like_table h⟩, fun _ => ⟨rfl, like_tables h⟩,
    fun _ => like_columns h.items, like_assignment h, fun _ => like_sources h,
    fun _ => like_sources h, fun _ => like_joins h, fun _ => like_joins h, fun _ => like_joins h,
    fun _ => like_joins h, fun _ => like_joins h, fun _ => like_joins h,
    fun _ => ⟨rfl, like_tables h⟩, fun _ => like_condition h, fun _ => like_expressions h,
    fun _ => like_condition h, fun _ => like_windows h, fun _ => like_expressions h,
    fun _ => ⟨rfl, like_orderItems h.items⟩, fun _ => ⟨rfl, like_top.mpr h⟩,
    fun _ => like_offset hs h, fun _ => like_fetch hs h, fun _ => like_rowLock h,
    fun _ => like_tableLock h, like_rows hs h, fun _ => like_conflict h,
    fun _ => ⟨rfl, like_column h⟩, fun _ => rfl, like_conflictUpdate h, like_duplicateUpdate h,
    fun _ => ⟨rfl, like_aliasedList h⟩⟩

end Clause

end Clausal
