import Clausal.Grammar.Arrangement
import Clausal.Grammar.Expression

/-! # Plain layouts

A layout is *plain* when it neither looks at the session nor changes it: it says
what to write, and where a parameter stands the context decides what becomes of
it.  Every rule of the standard grammar gives plain layouts only
(`Grammar.standard_plain`); templates can give others.

Plainness goes from the shared phrases to the clauses, forms and operators built
from them, and from there to expressions and statements under any grammar with
plain rules.
-/
namespace Clausal

namespace Layout

/-- The layout neither looks at the session nor changes it. -/
@[simp] def Plain : Layout → Prop
  | .observe _ => False
  | .bind _ => False
  | .setAlias _ => False
  | .append a b => a.Plain ∧ b.Plain
  | .beside _ a b => a.Plain ∧ b.Plain
  | .lead _ body => body.Plain
  | .wrap body => body.Plain
  | .within _ body => body.Plain
  | _ => True

/-! ### Phrases -/

@[simp] theorem plain_append (a b : Layout) : (a ++ b).Plain ↔ a.Plain ∧ b.Plain := Iff.rfl

@[simp] theorem plain_empty : empty.Plain := trivial

@[simp] theorem plain_top (v : Value) : (top v).Plain := trivial

@[simp] theorem plain_inner (v : Value) : (inner v).Plain := trivial

@[simp] theorem plain_parens (l : Layout) : (parens l).Plain ↔ l.Plain := by
  simp [parens]

theorem plain_join (sep : String) (ls : List Layout) :
    (join sep ls).Plain ↔ ∀ l ∈ ls, l.Plain := by
  fun_induction join sep ls with
  | case1 => simp
  | case2 l => simp
  | case3 l ls hne ih => simp [ih]

@[simp] theorem plain_join_map {α : Type} (sep : String) (f : α → Layout) (xs : List α) :
    (join sep (xs.map f)).Plain ↔ ∀ x ∈ xs, (f x).Plain := by
  rw [plain_join, List.forall_mem_map]

@[simp] theorem plain_commas_map {α : Type} (f : α → Layout) (xs : List α) :
    (commas (xs.map f)).Plain ↔ ∀ x ∈ xs, (f x).Plain :=
  plain_join_map ", " f xs

@[simp] theorem plain_joinKept (sep : String) (ls : List Layout) :
    (joinKept sep ls).Plain ↔ ∀ l ∈ ls, l.Plain := by
  induction ls with
  | nil => simp [joinKept]
  | cons l ls ih =>
    rw [joinKept] at ih
    simp [joinKept, ih]

@[simp] theorem plain_nestedStatement (s : Statement) : (nestedStatement s).Plain := by
  simp [nestedStatement]

@[simp] theorem plain_column (v : Value) : (column v).Plain := by
  unfold column
  split <;> trivial

@[simp] theorem plain_columns (vs : List Value) : (columns vs).Plain := by
  simp [columns]

@[simp] theorem plain_withAlias (target name : Value) : (withAlias target name).Plain := by
  unfold withAlias
  refine ⟨?_, ?_⟩
  · split <;> trivial
  · split <;> simp

@[simp] theorem plain_table (v : Value) : (table v).Plain := by
  unfold table
  split <;> trivial

@[simp] theorem plain_aliasedList (v : Value) : (aliasedList v).Plain := by
  simp [aliasedList]

@[simp] theorem plain_tables (v : Value) : (tables v).Plain := by
  simp [tables]

@[simp] theorem plain_exprs (v : Value) : (exprs v).Plain := by
  simp [exprs]

@[simp] theorem plain_valueList (vs : List Value) : (valueList vs).Plain := by
  simp [valueList]

@[simp] theorem plain_orderItem (v : Value) : (orderItem v).Plain := by
  unfold orderItem
  split <;> simp

@[simp] theorem plain_orderItems (vs : List Value) : (orderItems vs).Plain := by
  simp [orderItems]

@[simp] theorem plain_assignments (s : Statement) : (assignments s).Plain := by
  unfold assignments
  split
  · trivial
  · rw [plain_commas_map]
    intro e _
    simp

@[simp] theorem plain_call (name : String) (args : List Value) : (call name args).Plain := by
  unfold call
  simp only [plain_append, plain_parens]
  refine ⟨trivial, ?_⟩
  split <;> simp

@[simp] theorem plain_nest (v : Value) : (nest v).Plain := by
  unfold nest
  split <;> simp

@[simp] theorem plain_raw (v : Value) : (raw v).Plain := by
  unfold raw
  split
  · trivial
  · rename_i parts
    induction parts with
    | nil => trivial
    | cons part parts ih =>
      refine ⟨?_, ih⟩
      split <;> trivial
  · trivial

end Layout

/-! ### Clauses -/

namespace Clause
variable (tag : String) (payload : Value) (statement : Statement)

theorem plain_select : (select tag payload statement).Plain := by
  unfold select
  dsimp only
  split <;> simp

theorem plain_selectDistinctOn : (selectDistinctOn tag payload statement).Plain := by
  unfold selectDistinctOn
  split <;> simp

theorem plain_joinCondition (v : Value) : (joinCondition v).Plain := by
  unfold joinCondition
  split
  · simp
  · split <;> simp
  · simp

theorem plain_joins : (joins tag payload statement).Plain := by
  unfold joins
  dsimp only
  split
  · rw [Layout.plain_join_map]
    intro pair _
    simp [plain_joinCondition]
  · trivial

theorem plain_condition : (condition tag payload statement).Plain := by
  unfold condition
  split <;> simp

theorem plain_namedWindow (name spec : Value) : (namedWindow name spec).Plain := by
  unfold namedWindow
  split <;> simp

theorem plain_windows : (windows tag payload statement).Plain := by
  unfold windows
  split
  · rw [Layout.plain_append, Layout.plain_commas_map]
    exact ⟨trivial, fun pair _ => plain_namedWindow pair.1 pair.2⟩
  · trivial

theorem plain_rowLock : (rowLock tag payload statement).Plain := by
  unfold rowLock
  split
  · simp only [Layout.plain_append]
    refine ⟨⟨⟨trivial, trivial⟩, ?_⟩, ?_⟩
    · split <;> simp
    · split <;> trivial
  · trivial

theorem plain_tableLock : (tableLock tag payload statement).Plain := by
  unfold tableLock
  split
  · split <;> trivial
  · trivial

theorem plain_insertTarget (v : Value) : (insertTarget v).Plain := by
  unfold insertTarget
  split <;> simp

theorem plain_insertion : (insertion tag payload statement).Plain := by
  unfold insertion
  dsimp only
  split <;> simp [plain_insertTarget]

theorem plain_mapRow (cols : List String) (row : Statement) : (mapRow cols row).Plain := by
  unfold mapRow
  rw [Layout.plain_parens, Layout.plain_commas_map]
  intro column _
  split <;> trivial

theorem plain_mapRows (rows : List Statement) : (mapRows rows statement).Plain := by
  unfold mapRows
  dsimp only
  split
  · trivial
  · split <;> simp [plain_mapRow]

theorem plain_listRow (v : Value) : (listRow v).Plain := by
  unfold listRow
  split <;> simp

theorem plain_rows : (rows tag payload statement).Plain := by
  unfold rows
  split
  · trivial
  · split
    · trivial
    · split
      · exact plain_mapRows statement _
      · simp [plain_listRow]

theorem plain_assignment : (assignment tag payload statement).Plain := by
  unfold assignment
  split <;> simp

theorem plain_conflict : (conflict tag payload statement).Plain := by
  unfold conflict
  split <;> simp

theorem plain_conflictFields (v : Value) : (conflictFields payload v).Plain := by
  unfold conflictFields
  split
  · simp
  · split <;> simp [excluded]

theorem plain_conflictUpdate : (conflictUpdate tag payload statement).Plain := by
  unfold conflictUpdate
  dsimp only
  split
  · split
    · simp only [Layout.plain_append]
      refine ⟨⟨trivial, plain_conflictFields _ _⟩, ?_⟩
      split <;> trivial
    · exact ⟨trivial, plain_conflictFields _ _⟩
  · exact ⟨trivial, plain_conflictFields _ _⟩

theorem plain_duplicateUpdate : (duplicateUpdate tag payload statement).Plain := by
  unfold duplicateUpdate
  refine ⟨trivial, ?_⟩
  split <;> simp [inserted]

theorem plain_binding (v : Value) : (binding v).Plain := by
  unfold binding
  split
  · simp only [Layout.plain_append]
    refine ⟨⟨?_, trivial⟩, Layout.plain_nest _⟩
    unfold bindingName
    split <;> simp
  · trivial

theorem plain_bindings : (bindings tag payload statement).Plain := by
  unfold bindings
  split <;> simp [plain_binding]

theorem plain_setOperation : (setOperation tag payload statement).Plain := by
  unfold setOperation
  split
  · rw [Layout.plain_join_map]
    intro v _
    unfold member
    split <;> trivial
  · trivial

/-- Every built-in clause has a plain layout, whatever its payload and neighbours. -/
theorem plain_builtin : ∀ e ∈ builtin, (e.2 tag payload statement).Plain := by
  simp [builtin, plain_select, plain_selectDistinctOn, plain_joins, plain_condition, plain_windows,
    plain_rowLock, plain_tableLock, plain_insertion, plain_rows, plain_assignment, plain_conflict,
    plain_conflictUpdate, plain_duplicateUpdate, plain_bindings, plain_setOperation, verbatim,
    nested, columnNames, sources, crossJoin, expressions, orderBy, limit, offset, fetch, returning,
    update, deletion, deletionFrom, truncation, constraint, nothing]

end Clause

/-! ### Forms -/

namespace Form
variable (op : String) (args : List Value)

/-- What holds of every failure and of what the body gives holds of a rule for one argument. -/
theorem unary_of {P : Layout → Prop} {body : String → Value → Layout}
    (hfail : ∀ complaint fragment, P (.fail complaint fragment))
    (h : ∀ a ∈ args, P (body op a)) : P (unary body op args) := by
  unfold unary
  split
  · exact h _ (by simp)
  · exact hfail _ _

theorem binary_of {P : Layout → Prop} {body : String → Value → Value → Layout}
    (hfail : ∀ complaint fragment, P (.fail complaint fragment))
    (h : ∀ a ∈ args, ∀ b ∈ args, P (body op a b)) : P (binary body op args) := by
  unfold binary
  split
  · exact h _ (by simp) _ (by simp)
  · exact hfail _ _

theorem ternary_of {P : Layout → Prop} {body : String → Value → Value → Value → Layout}
    (hfail : ∀ complaint fragment, P (.fail complaint fragment))
    (h : ∀ a ∈ args, ∀ b ∈ args, ∀ c ∈ args, P (body op a b c)) : P (ternary body op args) := by
  unfold ternary
  split
  · exact h _ (by simp) _ (by simp) _ (by simp)
  · exact hfail _ _

theorem plain_unary {body : String → Value → Layout} (h : ∀ a, (body op a).Plain) :
    (unary body op args).Plain :=
  unary_of op args (fun _ _ => trivial) fun a _ => h a

theorem plain_binary {body : String → Value → Value → Layout} (h : ∀ a b, (body op a b).Plain) :
    (binary body op args).Plain :=
  binary_of op args (fun _ _ => trivial) fun a _ b _ => h a b

theorem plain_ternary {body : String → Value → Value → Value → Layout}
    (h : ∀ a b c, (body op a b c).Plain) : (ternary body op args).Plain :=
  ternary_of op args (fun _ _ => trivial) fun a _ b _ c _ => h a b c

theorem plain_candidates (v : Value) : (candidates v).Plain := by
  unfold candidates
  split
  · trivial
  · split <;> simp

theorem plain_membership : (membership op args).Plain :=
  plain_binary op args fun _ set => by simp [plain_candidates set]

theorem plain_existence : (existence op args).Plain := by
  refine plain_unary op args fun v => ?_
  split <;> simp

theorem plain_branches (args : List Value) : (branches args).Plain := by
  fun_induction branches args with
  | case1 condition result rest ih =>
    refine ⟨?_, ih⟩
    split <;> simp
  | case2 => trivial

theorem plain_distinction : (distinction op args).Plain := by
  unfold distinction
  split
  · trivial
  · exact ⟨⟨trivial, plain_branches args⟩, trivial⟩

theorem plain_keywordArgument (v : Value) : (keywordArgument v).Plain := by
  unfold keywordArgument
  split <;> trivial

theorem plain_interval : (interval op args).Plain := by
  unfold interval
  split
  · simp
  · simp [plain_keywordArgument]
  · trivial

theorem plain_parameter : (parameter op args).Plain := by
  refine plain_unary op args fun v => ?_
  split <;> trivial

theorem plain_array : (array op args).Plain := by
  refine plain_unary op args fun v => ?_
  split <;> simp

theorem plain_entity : (entity op args).Plain := by
  refine plain_unary op args fun v => ?_
  split <;> trivial

theorem plain_window (v : Value) : (window v).Plain := by
  unfold window
  split <;> simp

theorem plain_ordered : (ordered op args).Plain := by
  unfold ordered
  split <;> simp [wrongArguments]

theorem plain_negation : (negation op args).Plain :=
  plain_unary op args fun _ => by simp

theorem plain_range : (range op args).Plain :=
  plain_ternary op args fun _ _ _ => by simp

theorem plain_escaping : (escaping op args).Plain :=
  plain_binary op args fun _ _ => by simp

theorem plain_cast : (cast op args).Plain :=
  plain_binary op args fun _ type => by simp [plain_keywordArgument type]

theorem plain_filtered : (filtered op args).Plain :=
  plain_binary op args fun _ _ => by simp

theorem plain_withinGroup : (withinGroup op args).Plain :=
  plain_binary op args fun _ _ => by simp

theorem plain_windowed : (windowed op args).Plain :=
  plain_binary op args fun _ spec => by simp [plain_window spec]

theorem plain_atTimeZone : (atTimeZone op args).Plain :=
  plain_binary op args fun _ _ => by simp

/-- Every built-in form has a plain layout, whatever its arguments. -/
theorem plain_builtin : ∀ e ∈ builtin, (e.2 op args).Plain := by
  have hverbatim : (verbatim op args).Plain := plain_unary op args Layout.plain_raw
  have hnested : (nested op args).Plain := plain_unary op args Layout.plain_nest
  have hlifted : (lifted op args).Plain := plain_unary op args fun _ => trivial
  have hdistinct : (distinct op args).Plain := plain_unary op args fun _ => ⟨trivial, trivial⟩
  simp [builtin, inlined, composite, hverbatim, hnested, hlifted, hdistinct, plain_membership,
    plain_negation, plain_existence, plain_range, plain_distinction, plain_cast, plain_interval,
    plain_parameter, plain_array, plain_entity, plain_escaping, plain_filtered, plain_withinGroup,
    plain_windowed, plain_atTimeZone, plain_ordered]

end Form

/-! ### Operators -/

theorem plain_comparison (op sql : String) (lhs rhs : Value) :
    (comparison op sql lhs rhs).Plain := by
  unfold comparison
  dsimp only
  split
  · simp
  · split
    · simp
    · split <;> simp

theorem OperatorPolicy.plain_joined (p : OperatorPolicy) (op sql : String) (operands : List Value)
    (whole : Value) : (p.joined op sql operands whole).Plain := by
  unfold joined
  split
  · split
    · exact plain_comparison op sql _ _
    · trivial
  · simp [plain_comparison]
  · simp

theorem OperatorPolicy.plain_layout (p : OperatorPolicy) (op : String) (args : List Value)
    (whole : Value) : (p.layout op args whole).Plain := by
  unfold layout
  dsimp only
  split
  · split <;> trivial
  · split <;> trivial
  · exact p.plain_joined op _ _ whole

/-! ### Grammars -/

theorem Table.mem_of_get? {α : Type} {k : String} {v : α} {t : Table α}
    (h : Table.get? k t = some v) : (k, v) ∈ t := by
  fun_induction Table.get? k t with
  | case1 => simp at h
  | case2 w t => simp_all
  | case3 k' w t hne ih => exact List.mem_cons_of_mem _ (ih h)

namespace Grammar

/-- The rules of the grammar give plain layouts only. -/
structure Plain (g : Grammar) : Prop where
  clause : ∀ tag rule, g.clauses.rule? tag = some rule →
    ∀ payload s, (rule tag payload s).Plain
  form : ∀ key rule, g.form? key = some rule → ∀ args, (rule key args).Plain

/-- **The standard grammar is plain.** -/
theorem standard_plain : standard.Plain where
  clause tag rule h payload s :=
    Clause.plain_builtin tag payload s (tag, rule) (Table.mem_of_get? h)
  form key rule h args := Form.plain_builtin key args (key, rule) (Table.mem_of_get? h)

theorem plain_nameLayout (name : String) : (nameLayout name).Plain := by
  unfold nameLayout
  split
  · split <;> trivial
  · split <;> trivial

theorem plain_plainList (aliasPosition : Bool) (head : Value) (args : List Value) :
    (plainList aliasPosition head args).Plain := by
  unfold plainList
  split
  · simp
  · simp
  · split <;> simp

variable {g : Grammar}

theorem Plain.headed (hg : g.Plain) {op : String} {args : List Value} {l : Layout}
    (h : g.headed? op args = some l) : l.Plain := by
  unfold headed? at h
  dsimp only at h
  split at h
  · rename_i rule hrule
    cases h
    exact hg.form _ rule hrule args
  · obtain ⟨p, -, rfl⟩ := Option.map_eq_some_iff.mp h
    exact p.plain_layout _ _ _

theorem Plain.exprLayout (hg : g.Plain) (aliasPosition : Bool) (v : Value) :
    (g.exprLayout aliasPosition v).Plain := by
  cases v with
  | ident name => exact plain_nameLayout name
  | seq items =>
    cases items with
    | nil => trivial
    | cons head args =>
      unfold Grammar.exprLayout listLayout
      dsimp only
      split
      · rename_i l hl
        obtain ⟨op, -, h⟩ := Option.bind_eq_some_iff.mp hl
        exact hg.headed h
      · exact plain_plainList aliasPosition head args
  | map s => exact Layout.plain_nestedStatement s
  | _ => trivial

theorem Plain.statementLayout (hg : g.Plain) (c : Context) (s : Statement) :
    (g.statementLayout c s).Plain := by
  unfold Grammar.statementLayout
  rw [Layout.plain_joinKept]
  intro l hl
  obtain ⟨e, -, he⟩ := List.mem_filterMap.mp hl
  obtain ⟨rule, hrule, rfl⟩ := Option.map_eq_some_iff.mp he
  exact hg.clause e.1 rule hrule e.2 s

end Grammar
end Clausal
