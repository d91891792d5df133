import Clausal.Proofs.Lint.Exactness
import Mathlib.Logic.Equiv.Basic

/-! # Column names and the linter

Maps of columns and statements are the same kind of value, and the linter goes into every map as
into a statement.  A map with a column called `delete`, `update` or `select` can so be *mistaken*
for a statement that is refused (`Lint.Mistaken`).

That is the only way in which column names matter.  Renaming the columns of a statement
leaves the verdict as it was, as long as no map of columns is mistaken before or after; and
a statement that passes still passes after the renaming exactly when none is mistaken then
(`Lint.renamed_columns`).  The column `delete` shows that the condition is needed
(`Lint.columns_mistaken`).
-/
namespace Clausal

/-! ### Renaming columns -/

/-- Renames the keys of a map and leaves any other value alone. -/
def Value.renameKeys (f : String → String) : Value → Value
  | .map columns => .map (columns.map fun e => (f e.1, e.2))
  | v => v

/-- The payload of a clause with its columns renamed: those of an assignment, and those of each
row of values. -/
def renamePayload (f : String → String) (tag : String) (payload : Value) : Value :=
  if tag = "set" ∨ tag = "on-duplicate-key-update" then payload.renameKeys f
  else if tag = "values" then
    match payload with
    | .seq rows => .seq (rows.map (Value.renameKeys f))
    | v => v
  else payload

namespace Statement

/-- The statement with the columns of its assignments and rows renamed. -/
def renameColumns (f : String → String) (s : Statement) : Statement :=
  s.map fun e => (e.1, renamePayload f e.1 e.2)

/-- The maps of columns in the payload of a clause. -/
def payloadColumns (tag : String) (payload : Value) : List Statement :=
  if tag = "set" ∨ tag = "on-duplicate-key-update" then payload.map?.toList
  else if tag = "values" then (payload.seq?.getD []).filterMap Value.map?
  else []

/-- The maps of columns in the assignments and rows of a statement. -/
def columnMaps (s : Statement) : List Statement := s.flatMap fun e => payloadColumns e.1 e.2

theorem get?_renameColumns (f : String → String) (s : Statement) (key : String) :
    (s.renameColumns f).get? key = (s.get? key).map (renamePayload f (tagOf key)) :=
  Table.get?_map (renamePayload f) (tagOf key) s

/-- Where a clause has no columns, its payload stays. -/
theorem get?_renameColumns_of_ne (f : String → String) (s : Statement) {key : String}
    (hset : tagOf key ≠ "set") (hupdate : tagOf key ≠ "on-duplicate-key-update")
    (hvalues : tagOf key ≠ "values") : (s.renameColumns f).get? key = s.get? key := by
  have hid : renamePayload f (tagOf key) = id := by
    funext payload
    simp [renamePayload, hset, hupdate, hvalues]
  rw [get?_renameColumns, hid, Option.map_id_fun, id]

/-- A map of columns stands in the statement. -/
theorem reaches_of_mem_columnMaps {s m : Statement} (h : m ∈ s.columnMaps) :
    (Value.map s).Reaches (.map m) := by
  have hmap : ∀ {v : Value}, v.map? = some m → v.Reaches (.map m) := by
    intro v hv
    cases v <;> cases hv
    exact .self _
  obtain ⟨e, he, hm⟩ := List.mem_flatMap.mp h
  refine .entry he ?_
  unfold payloadColumns at hm
  split at hm
  · exact hmap (Option.mem_toList.mp hm)
  · split at hm
    · obtain ⟨row, hrow, hm⟩ := List.mem_filterMap.mp hm
      cases hpayload : e.2 with
      | seq rows =>
        rw [hpayload] at hrow
        exact .item hrow (hmap hm)
      | _ =>
        rw [hpayload] at hrow
        cases hrow
    · cases hm

end Statement

namespace Lint
variable {level : LintLevel} {params : Table Value}

/-- Taken for a statement, the map of columns is refused. -/
def Mistaken (columns : Statement) : Prop := Unguarded columns ∨ SelectsNothing columns

/-- Both pass, or both are refused for the same reason. -/
def SameVerdict : Except Fault Unit → Except Fault Unit → Prop
  | .ok _, .ok _ => True
  | .error (.lint reason _), .error (.lint reason' _) => reason = reason'
  | _, _ => False

/-- A map without the names of guarded clauses and selections is not mistaken. -/
theorem not_mistaken_of_names {columns : Statement}
    (h : ∀ tag ∈ ["delete", "delete-from", "update", "select", "select-distinct"],
      tag ∉ Table.keys columns) : ¬ Mistaken columns := by
  have hplain : ∀ tag ∈ ["delete", "delete-from", "update"], Statement.tagOf tag = tag := by
    decide +kernel
  rintro (⟨⟨tag, htag, hhas⟩, -⟩ | hselect | hselect)
  · rw [Statement.contains, hplain tag htag, ← Table.mem_keys_iff_has] at hhas
    exact h tag (List.mem_append_left ["select", "select-distinct"] htag) hhas
  · exact h "select" (by simp) (List.mem_map_of_mem hselect)
  · exact h "select-distinct" (by simp) (List.mem_map_of_mem hselect)

theorem passes_of_not_mistaken {columns : Statement} (h : ¬ Mistaken columns) :
    Passes level params (.map columns) := by
  rw [passes_map, unguarded?_eq_none_iff, emptySelection?_entries_iff, ← not_or]
  exact h

/-! ### Violations in maps of columns -/

/-- In a map that is not mistaken only the values count. -/
theorem value?_columns {columns : Statement} (h : ¬ Mistaken columns) :
    value? level params (.map columns) = items? level params (columns.map Prod.snd) := by
  have hpasses : Passes level params (.map columns) := passes_of_not_mistaken h
  obtain ⟨hguard, hselect⟩ := passes_map.mp hpasses
  rw [value?, hguard, Option.none_or]
  clear h hpasses hguard
  induction columns with
  | nil => rfl
  | cons e columns ih =>
    rw [List.forall_mem_cons] at hselect
    rw [entries?, hselect.1, Option.none_or, ih hselect.2, List.map_cons, items?]

theorem value?_renameKeys {f : String → String} {v : Value}
    (hbefore : ∀ m, v.map? = some m → ¬ Mistaken m)
    (hafter : ∀ m, (v.renameKeys f).map? = some m → ¬ Mistaken m) :
    value? level params (v.renameKeys f) = value? level params v := by
  cases v with
  | map columns =>
    rw [Value.renameKeys, value?_columns (hafter _ rfl), value?_columns (hbefore _ rfl),
      List.map_map]
    rfl
  | _ => rfl

theorem items?_renameKeys {f : String → String} {rows : List Value}
    (hbefore : ∀ m ∈ rows.filterMap Value.map?, ¬ Mistaken m)
    (hafter : ∀ m ∈ (rows.map (Value.renameKeys f)).filterMap Value.map?, ¬ Mistaken m) :
    items? level params (rows.map (Value.renameKeys f)) = items? level params rows := by
  induction rows with
  | nil => rfl
  | cons row rows ih =>
    have hmem : ∀ {m : Statement} {vs : List Value} {v : Value}, v.map? = some m →
        m ∈ (v :: vs).filterMap Value.map? :=
      fun hv => List.mem_filterMap.mpr ⟨_, List.mem_cons_self, hv⟩
    have hrest : ∀ {m : Statement} {vs : List Value} (v : Value), m ∈ vs.filterMap Value.map? →
        m ∈ (v :: vs).filterMap Value.map? := by
      intro m vs v hm
      exact (List.Sublist.filterMap _ (List.sublist_cons_self v vs)).mem hm
    rw [List.map_cons, items?, items?, value?_renameKeys (fun m hm => hbefore m (hmem hm))
      fun m hm => hafter m (hmem hm), ih (fun m hm => hbefore m (hrest row hm))
      fun m hm => hafter m (hrest _ hm)]

/-- A row that is a map is neither the head nor the list of a membership test. -/
theorem reason_membership?_renameKeys (f : String → String) (rows : List Value) :
    (membership? level params (rows.map (Value.renameKeys f))).map Violation.reason =
      (membership? level params rows).map Violation.reason := by
  have hword : ∀ (word : String) (v : Value), (v.renameKeys f).isWord word = v.isWord word := by
    intro word v
    cases v <;> rfl
  have hset : ∀ v : Value, candidates? params (v.renameKeys f) = candidates? params v := by
    intro v
    cases v <;> rfl
  match rows with
  | [] => rfl
  | [_] => rfl
  | [_, _] => rfl
  | [head, subject, set] =>
    simp only [List.map_cons, List.map_nil, membership?, hword, hset]
    split
    · split
      · rfl
      · split
        · rfl
        · split <;> rfl
    · rfl
  | _ :: _ :: _ :: _ :: _ => rfl

theorem reason_value?_renamePayload {f : String → String} {tag : String} {payload : Value}
    (hbefore : ∀ m ∈ Statement.payloadColumns tag payload, ¬ Mistaken m)
    (hafter : ∀ m ∈ Statement.payloadColumns tag (renamePayload f tag payload), ¬ Mistaken m) :
    (value? level params (renamePayload f tag payload)).map Violation.reason =
      (value? level params payload).map Violation.reason := by
  by_cases hassign : tag = "set" ∨ tag = "on-duplicate-key-update"
  · simp only [renamePayload, Statement.payloadColumns, if_pos hassign, Option.mem_toList] at *
    rw [value?_renameKeys hbefore hafter]
  · by_cases hvalues : tag = "values"
    · cases payload with
      | seq rows =>
        simp only [renamePayload, Statement.payloadColumns, if_neg hassign, if_pos hvalues,
          Value.seq?, Option.getD_some] at *
        rw [value?, value?, Option.map_or, Option.map_or, reason_membership?_renameKeys,
          items?_renameKeys hbefore hafter]
      | _ => simp only [renamePayload, if_neg hassign, if_pos hvalues]
    · simp only [renamePayload, if_neg hassign, if_neg hvalues]

theorem emptySelection?_renamePayload (f : String → String) (tag : String) (payload : Value) :
    emptySelection? tag (renamePayload f tag payload) = emptySelection? tag payload := by
  by_cases htag : tag = "select" ∨ tag = "select-distinct"
  · have hid : renamePayload f tag payload = payload := by
      rcases htag with rfl | rfl <;> simp [renamePayload]
    rw [hid]
  · simp [emptySelection?, htag]

theorem unguarded?_renameColumns (f : String → String) (s : Statement) :
    unguarded? (s.renameColumns f) = unguarded? s := by
  have hwhere : (s.renameColumns f).get? "where" = s.get? "where" :=
    s.get?_renameColumns_of_ne f (by decide +kernel) (by decide +kernel) (by decide +kernel)
  have htags : ∀ tag ∈ guardedTags, (s.renameColumns f).get? tag = s.get? tag := by
    have hplain : ∀ tag ∈ guardedTags, Statement.tagOf tag ≠ "set" ∧
        Statement.tagOf tag ≠ "on-duplicate-key-update" ∧ Statement.tagOf tag ≠ "values" := by
      decide +kernel
    intro tag htag
    obtain ⟨hset, hupdate, hvalues⟩ := hplain tag htag
    exact s.get?_renameColumns_of_ne f hset hupdate hvalues
  have htarget : guardedTags.findSome? (fun tag => (s.renameColumns f).get? tag) =
      guardedTags.findSome? fun tag => s.get? tag := by
    simp only [guardedTags, List.findSome?_cons, List.findSome?_nil, htags "delete" (by decide),
      htags "delete-from" (by decide), htags "update" (by decide)]
  rw [unguarded?, unguarded?, hasCondition, hasCondition, hwhere, htarget]

theorem reason_entries?_renameColumns {f : String → String} {s : Statement}
    (hbefore : ∀ m ∈ s.columnMaps, ¬ Mistaken m)
    (hafter : ∀ m ∈ (s.renameColumns f).columnMaps, ¬ Mistaken m) :
    (entries? level params (s.renameColumns f)).map Violation.reason =
      (entries? level params s).map Violation.reason := by
  induction s with
  | nil => rfl
  | cons e s ih =>
    have hcons : Statement.renameColumns f (e :: s) =
        (e.1, renamePayload f e.1 e.2) :: Statement.renameColumns f s := rfl
    rw [hcons] at hafter ⊢
    simp only [Statement.columnMaps, List.flatMap_cons, List.forall_mem_append] at hbefore hafter
    rw [entries?, entries?, emptySelection?_renamePayload, Option.map_or, Option.map_or,
      Option.map_or, Option.map_or, reason_value?_renamePayload hbefore.1 hafter.1,
      ih hbefore.2 hafter.2]

theorem reason_value?_renameColumns {f : String → String} {s : Statement}
    (hbefore : ∀ m ∈ s.columnMaps, ¬ Mistaken m)
    (hafter : ∀ m ∈ (s.renameColumns f).columnMaps, ¬ Mistaken m) :
    (value? level params (.map (s.renameColumns f))).map Violation.reason =
      (value? level params (.map s)).map Violation.reason := by
  rw [value?, value?, unguarded?_renameColumns, Option.map_or, Option.map_or,
    reason_entries?_renameColumns hbefore hafter]

/-! ### Verdicts -/

theorem sameVerdict_of_reason {s t : Statement}
    (h : (value? level params (.map s)).map Violation.reason =
      (value? level params (.map t)).map Violation.reason) :
    SameVerdict (check level s params) (check level t params) := by
  cases level with
  | off => trivial
  | _ =>
    unfold check
    dsimp only
    split
    · rename_i hs
      rw [hs] at h
      split
      · rename_i ht
        rw [ht] at h
        exact Option.some.inj h
      · rename_i ht
        rw [ht] at h
        cases h
    · rename_i hs
      rw [hs] at h
      rw [Option.map_eq_none_iff.mp h.symm]
      trivial

/-- **Column names matter only where a map of columns is mistaken for a statement.**  Renaming the
columns leaves the verdict as it was if no map of columns is mistaken before or after; what passes
still passes after the renaming exactly when none is mistaken then. -/
theorem renamed_columns (level : LintLevel) (s : Statement) (params : Table Value)
    (f : String → String) :
    ((∀ m ∈ s.columnMaps, ¬ Mistaken m) → (∀ m ∈ (s.renameColumns f).columnMaps, ¬ Mistaken m) →
      SameVerdict (check level s params) (check level (s.renameColumns f) params)) ∧
    (level ≠ .off → check level s params = .ok () →
      (check level (s.renameColumns f) params = .ok () ↔
        ∀ m ∈ (s.renameColumns f).columnMaps, ¬ Mistaken m)) := by
  have hsame : (∀ m ∈ s.columnMaps, ¬ Mistaken m) →
      (∀ m ∈ (s.renameColumns f).columnMaps, ¬ Mistaken m) →
      SameVerdict (check level s params) (check level (s.renameColumns f) params) :=
    fun hbefore hafter => sameVerdict_of_reason (reason_value?_renameColumns hbefore hafter).symm
  -- What passes has been looked at whole, its maps of columns included.
  have hpasses : ∀ {t : Statement}, level ≠ .off → check level t params = .ok () →
      ∀ m ∈ t.columnMaps, ¬ Mistaken m := by
    intro t hlevel ht m hm hmistaken
    have hreached := (check_eq_ok_iff hlevel).mp ht _ (Statement.reaches_of_mem_columnMaps hm)
    exact hreached.1 (.inl ⟨m, rfl, hmistaken⟩)
  refine ⟨hsame, fun hlevel hs => ⟨hpasses hlevel, fun hafter => ?_⟩⟩
  have hverdict := hsame (hpasses hlevel hs) hafter
  rw [hs] at hverdict
  cases hcheck : check level (s.renameColumns f) params with
  | ok u => rfl
  | error e =>
    rw [hcheck] at hverdict
    exact hverdict.elim

/-- Columns may even be called `delete` and `where`, since the one guards the other. -/
theorem renamed_columns_guarded :
    SameVerdict
        (check .basic [("update", .ident "t"), ("set", .map [("a", .int 1), ("b", .int 2)]),
          ("where", .ident "c")] [])
        (check .basic
          [("update", .ident "t"), ("set", .map [("delete", .int 1), ("where", .int 2)]),
          ("where", .ident "c")] []) ∧
      check .basic [("update", .ident "t"), ("set", .map [("delete", .int 1), ("where", .int 2)]),
        ("where", .ident "c")] [] = .ok () := by
  have hbefore : ¬ Mistaken [("a", .int 1), ("b", .int 2)] := not_mistaken_of_names (by decide)
  have hafter : ¬ Mistaken [("delete", .int 1), ("where", .int 2)] := by
    rintro (⟨-, hvacuous⟩ | hselect | hselect)
    · cases hvacuous (.int 2) rfl
    · simp at hselect
    · simp at hselect
  obtain ⟨hsame, hpasses⟩ := renamed_columns .basic
    [("update", .ident "t"), ("set", .map [("a", .int 1), ("b", .int 2)]), ("where", .ident "c")] []
    fun name => if name = "a" then "delete" else "where"
  constructor
  · refine hsame (fun m hm => ?_) fun m hm => ?_
    · rwa [List.mem_singleton.mp hm]
    · rwa [List.mem_singleton.mp hm]
  · refine (hpasses (by decide) rfl).mpr fun m hm => ?_
    rwa [List.mem_singleton.mp hm]

/-- A column that is called `delete` makes the linter take the columns for a deletion without a
condition. -/
theorem columns_mistaken :
    ∃ (f : String → String) (s : Statement), Function.Injective f ∧
      (∀ m ∈ s.columnMaps, ∀ e ∈ m, e.2.isAtom = true) ∧
      ¬ SameVerdict (check .basic s []) (check .basic (s.renameColumns f) []) := by
  refine ⟨Equiv.swap "a" "delete",
    [("update", .ident "t"), ("set", .map [("a", .int 1)]), ("where", .ident "c")],
    Equiv.injective _, ?_, ?_⟩
  · intro m hm e he
    obtain rfl : m = [("a", .int 1)] := List.mem_singleton.mp hm
    obtain rfl : e = ("a", .int 1) := List.mem_singleton.mp he
    rfl
  · have hrenamed : Statement.renameColumns (Equiv.swap "a" "delete")
        [("update", .ident "t"), ("set", .map [("a", .int 1)]), ("where", .ident "c")] =
        [("update", .ident "t"), ("set", .map [("delete", .int 1)]), ("where", .ident "c")] := rfl
    rw [hrenamed]
    exact id

end Lint
end Clausal
