import Clausal.Proofs.MapRows
import Clausal.Proofs.Places.Expressions

/-! # Places for expressions in statements

The payload of a clause is, or lists, what the clause lays out as expressions: conditions, items,
sources, rows, assignments.  What stands for one another there makes clauses that do
(`Grammar.ClauseStandsFor`), and such clauses make statements that do
(`Grammar.exchangedIn_of_clauses`).

The rule of a clause may look at its neighbours, but never at an expression in them: at words and
names (`modifiers`, `columns`), or at whether there is such a clause (`Clause.Agree`).
-/
namespace Clausal

/-! ### Entries under the same keys -/

/-- The entries are related one by one, under the same keys. -/
def Statement.Entrywise (Q : String → Value → Value → Prop) (s t : Statement) : Prop :=
  List.Forall₂ (fun e f => e.1 = f.1 ∧ Q e.1 e.2 f.2) s t

namespace Statement.Entrywise
variable {Q : String → Value → Value → Prop} {s t : Statement} (h : Entrywise Q s t)
include h

theorem tags_eq : s.tags = t.tags := by
  have hkeys : List.Forall₂ (· = ·) (s.map Prod.fst) (t.map Prod.fst) := by
    rw [List.forall₂_map_left_iff, List.forall₂_map_right_iff]
    exact h.imp fun _ _ hef => hef.1
  rwa [List.forall₂_eq_eq_eq] at hkeys

theorem contains_eq (k : String) : s.contains k = t.contains k := by
  have hmem (u : Statement) : u.contains k = true ↔ tagOf k ∈ u.tags :=
    (Table.mem_keys_iff_has u (tagOf k)).symm
  rw [Bool.eq_iff_iff, hmem, hmem, h.tags_eq]

theorem get?_cases (k : String) :
    s.get? k = none ∧ t.get? k = none ∨
      ∃ v w, s.get? k = some v ∧ t.get? k = some w ∧ Q (tagOf k) v w := by
  unfold get?
  induction h with
  | nil => exact .inl ⟨rfl, rfl⟩
  | @cons e f s t hef _ ih =>
    obtain ⟨k', v⟩ := e
    obtain ⟨_, w⟩ := f
    obtain ⟨rfl, hvw⟩ := hef
    by_cases hk : k' = tagOf k
    · exact .inr ⟨v, w, if_pos hk, if_pos hk, hk ▸ hvw⟩
    · rwa [Table.get?, Table.get?, if_neg hk, if_neg hk]

/-- Clauses are arranged by their tags only. -/
theorem arranged (c : Context) :
    Entrywise Q (Grammar.arranged c s) (Grammar.arranged c t) := by
  -- Both are arranged as the list of their pairs is.
  let ps := s.zip t
  let left (p : (String × Value) × (String × Value)) : Grammar.Ranked := (c.rank? p.1.1, p.1)
  let right (p : (String × Value) × (String × Value)) : Grammar.Ranked := (c.rank? p.2.1, p.2)
  let sorted := ps.mergeSort fun p q => Grammar.Ranked.le (left p) (left q)
  have htag : ∀ p ∈ ps, p.1.1 = p.2.1 := fun p hp => (List.forall₂_zip h hp).1
  have hs : Grammar.arranged c s = sorted.map Prod.fst := by
    have hsort : sorted.map left = (ps.map left).mergeSort Grammar.Ranked.le :=
      List.map_mergeSort fun _ _ _ _ => rfl
    have hzip : ps.map left = s.map fun e => (c.rank? e.1, e) := by
      rw [← List.map_fst_zip (Nat.le_of_eq h.length_eq), List.map_map]
      rfl
    rw [Grammar.arranged, ← hzip, ← hsort, List.map_map]
    rfl
  have ht : Grammar.arranged c t = sorted.map Prod.snd := by
    have hsort : sorted.map right = (ps.map right).mergeSort Grammar.Ranked.le := by
      refine List.map_mergeSort fun p hp q hq => ?_
      simp only [Grammar.Ranked.le, left, right, htag p hp, htag q hq]
    have hzip : ps.map right = t.map fun e => (c.rank? e.1, e) := by
      rw [← List.map_snd_zip (Nat.le_of_eq h.length_eq.symm), List.map_map]
      rfl
    rw [Grammar.arranged, ← hzip, ← hsort, List.map_map]
    rfl
  rw [Entrywise, hs, ht, List.forall₂_map_left_iff, List.forall₂_map_right_iff, List.forall₂_same]
  intro p hp
  exact List.forall₂_zip h (List.mem_mergeSort.mp hp)

end Statement.Entrywise

namespace Grammar

variable {g : Grammar} {c : Context} {R : Value → Value → Prop} {v w : Value}
  {as bs : List Value} {tag : String}

/-! ### Clauses -/

/-- The payloads of the clause are the same but for expressions that are exchanged: so the clause is
laid out, beside the same neighbours. -/
def ClauseStandsFor (g : Grammar) (c : Context) (R : Value → Value → Prop) (tag : String)
    (v w : Value) : Prop :=
  ∀ rule, g.clauses.rule? tag = some rule → ∀ s t, Clause.Agree s t →
    ExchangedIn g c R (rule tag v s) (rule tag w t)

namespace ClauseStandsFor

theorem same (tag : String) (v : Value) : ClauseStandsFor standard c R tag v v := by
  intro rule hrule s t hst
  have hsame : rule tag v s = rule tag v t :=
    Clause.builtin_congr hst tag v (tag, rule) (Table.mem_of_get? hrule)
  rw [hsame]
  exact .same _

theorem of_rule {rule : ClauseRule} (hrule : g.clauses.rule? tag = some rule)
    (h : ∀ s t, Clause.Agree s t → ExchangedIn g c R (rule tag v s) (rule tag w t)) :
    ClauseStandsFor g c R tag v w := by
  intro rule' hrule'
  cases hrule.symm.trans hrule'
  exact h

/-- **Conditions.** -/
theorem condition (hrule : g.clauses.rule? tag = some Clause.condition)
    (h : StandsFor g c R v w) : ClauseStandsFor g c R tag v w := by
  refine of_rule hrule fun _ _ _ => ?_
  cases h with
  | same v => exact .same _
  | call h => exact .lead _ (.expr .top h)
  | statement h => exact .lead _ (.expr .top (StandsFor.statement h).exchanged)

theorem nested (hrule : g.clauses.rule? tag = some Clause.nested) (h : StandsFor g c R v w) :
    ClauseStandsFor g c R tag v w :=
  of_rule hrule fun _ _ _ => exchangedIn_congruence.nest h

theorem limit (hrule : g.clauses.rule? tag = some Clause.limit) (h : StandsFor g c R v w) :
    ClauseStandsFor g c R tag v w :=
  of_rule hrule fun _ _ _ => .append (.same _) (.expr .top h.exchanged)

theorem offset (hrule : g.clauses.rule? tag = some Clause.offset) (h : StandsFor g c R v w) :
    ClauseStandsFor g c R tag v w := by
  refine of_rule hrule fun s t hst => ?_
  unfold Clause.offset
  rw [hst.fetch]
  exact .append (.append (.same _) (.expr .top h.exchanged)) (.same _)

theorem fetch (hrule : g.clauses.rule? tag = some Clause.fetch) (h : StandsFor g c R v w) :
    ClauseStandsFor g c R tag v w := by
  refine of_rule hrule fun s t hst => ?_
  unfold Clause.fetch
  rw [hst.offset]
  exact .append (.append (.same _) (.expr .top h.exchanged)) (.same _)

/-- **What a change is made under**, where a row is in conflict. -/
theorem conflictUpdate (hrule : g.clauses.rule? tag = some Clause.conflictUpdate)
    {s t : Statement} {fields : Value} (hs : s.get? "fields" = some fields)
    (ht : t.get? "fields" = some fields) (hv : s.get? "where" = some v)
    (hw : t.get? "where" = some w) (hfields : fields.items ≠ []) (h : StandsFor g c R v w) :
    ClauseStandsFor g c R tag (.map s) (.map t) := by
  have hsame (p q : Value) : Clause.conflictFields p fields = Clause.conflictFields q fields := by
    unfold Clause.conflictFields
    split
    · rfl
    · rw [if_neg (by simpa using hfields), if_neg (by simpa using hfields)]
  refine of_rule hrule fun _ _ _ => ?_
  simp only [Clause.conflictUpdate, hs, ht, hv, hw]
  rw [hsame (.map s) (.map t)]
  exact .append (.same _) (.lead _ (.expr .top h.exchanged))

/-- **Lists of expressions.** -/
theorem expressions (hrule : g.clauses.rule? tag = some Clause.expressions)
    (h : List.Forall₂ (StandsFor g c R) as bs) :
    ClauseStandsFor g c R tag (.seq as) (.seq bs) :=
  of_rule hrule fun _ _ _ => .append (.same _) (exchangedIn_congruence.commas_top h)

section Items
variable (h : List.Forall₂ (ItemStandsFor g c R) as bs)
include h

theorem aliasedList : ExchangedIn g c R (.aliasedList (.seq as)) (.aliasedList (.seq bs)) :=
  exchangedIn_congruence.join_map ", " h fun _ _ hab => hab.exchangedIn

theorem tables : ExchangedIn g c R (.tables (.seq as)) (.tables (.seq bs)) :=
  exchangedIn_congruence.join_map ", " h fun _ _ hab => hab.table

/-- **The items of a selection.** -/
theorem select (hrule : g.clauses.rule? tag = some Clause.select) :
    ClauseStandsFor g c R tag (.seq as) (.seq bs) := by
  refine of_rule hrule fun s t hst => ?_
  unfold Clause.select
  rw [hst.modifiers]
  dsimp only
  split
  · exact .append (.same _) (.lead _ (aliasedList h))
  · exact .same _

theorem returning (hrule : g.clauses.rule? tag = some Clause.returning) :
    ClauseStandsFor g c R tag (.seq as) (.seq bs) :=
  of_rule hrule fun _ _ _ => .append (.same _) (aliasedList h)

/-- **Tables**, which may be statements with an alias. -/
theorem sources {rule : ClauseRule} (hrule : g.clauses.rule? tag = some rule)
    (htables : ∃ word : Layout, ∀ payload s, rule tag payload s = word ++ .tables payload) :
    ClauseStandsFor g c R tag (.seq as) (.seq bs) := by
  obtain ⟨word, htables⟩ := htables
  refine of_rule hrule fun s t _ => ?_
  rw [htables, htables]
  exact .append (.same _) (tables h)

end Items

/-- What a join is on: no columns of the same name. -/
theorem joinCondition (h : StandsFor g c R v w)
    (hon : ∀ head rest, v = .seq (head :: rest) → head.isWord "using" = false) :
    ExchangedIn g c R (Clause.joinCondition v) (Clause.joinCondition w) := by
  cases h with
  | same => exact .same _
  | @call op as bs h =>
    have hjoin (args : List Value) :
        Clause.joinCondition (.call op args) = .lead " ON " (.top (.call op args)) := by
      simp only [Value.call, Clause.joinCondition, hon _ as rfl, Bool.false_eq_true, if_false]
    rw [hjoin, hjoin]
    exact .lead _ (.expr .top h)
  | statement h => exact .lead _ (.expr .top (StandsFor.statement h).exchanged)

/-- **Joins.** -/
theorem joins (hrule : g.clauses.rule? tag = some Clause.joins) (hlength : as.length = bs.length)
    (heven : as.length % 2 = 0)
    (h : List.Forall₂ (fun p q => ItemStandsFor g c R p.1 q.1 ∧
      ExchangedIn g c R (Clause.joinCondition p.2) (Clause.joinCondition q.2))
        (pairs as) (pairs bs)) :
    ClauseStandsFor g c R tag (.seq as) (.seq bs) := by
  refine of_rule hrule fun s t _ => ?_
  have hitems {items : List Value} (h : items.length % 2 = 0) :
      (Value.seq items).evenItems? = some items := if_pos h
  unfold Clause.joins
  rw [hitems heven, hitems (hlength ▸ heven)]
  exact exchangedIn_congruence.join_map " " h fun p q hpq =>
    .append (.append (.same _) hpq.1.table) hpq.2

/-- A common table. -/
theorem binding (name : Value) (h : StandsFor g c R v w) :
    ExchangedIn g c R (Clause.binding (.seq [name, v])) (Clause.binding (.seq [name, w])) :=
  .append (.same _) (exchangedIn_congruence.nest h)

/-- **Common tables.** -/
theorem bindings (hrule : g.clauses.rule? tag = some Clause.bindings)
    (h : List.Forall₂
      (fun v w => ExchangedIn g c R (Clause.binding v) (Clause.binding w)) as bs) :
    ClauseStandsFor g c R tag (.seq as) (.seq bs) := by
  have hbody := exchangedIn_congruence.join_map ", " h fun _ _ hab => hab
  refine of_rule hrule fun s t _ => ?_
  cases h with
  | nil => exact .same _
  | cons => exact .append (.same _) hbody

/-- **Members of a set operation.** -/
theorem setOperation (hrule : g.clauses.rule? tag = some Clause.setOperation)
    (h : List.Forall₂ (StandsFor g c R) as bs) :
    ClauseStandsFor g c R tag (.seq as) (.seq bs) := by
  have hmember {v w : Value} (h : StandsFor g c R v w) :
      ExchangedIn g c R (Clause.member v) (Clause.member w) := by
    cases h with
    | same => exact .same _
    | call h => exact .expr .top h
    | statement h => exact h
  refine of_rule hrule fun s t _ => ?_
  have hjoin := exchangedIn_congruence.join_map (" " ++ keyword tag ++ " ") h fun _ _ => hmember
  cases h with
  | nil => exact .same _
  | cons => exact hjoin

/-- **The statement whose rows are inserted.** -/
theorem insertion (hrule : g.clauses.rule? tag = some Clause.insertion) (target : Value)
    {s t : Statement} (h : StandsFor g c R (.map s) (.map t)) :
    ClauseStandsFor g c R tag (.seq [target, .map s]) (.seq [target, .map t]) :=
  of_rule hrule fun _ _ _ =>
    .append (.append (.append (.same _) (.same _)) (.same _)) h.exchangedIn_statement

section Entries
variable {s t : Statement} (h : Statement.Entrywise (fun _ => StandsFor g c R) s t)
include h

theorem assignments : ExchangedIn g c R (.assignments s) (.assignments t) := by
  have hentry : ∀ e f : String × Value, e.1 = f.1 ∧ StandsFor g c R e.2 f.2 →
      ExchangedIn g c R (.entity e.1 ++ Layout.text " = " ++ .top e.2)
        (.entity f.1 ++ Layout.text " = " ++ .top f.2) := by
    rintro ⟨column, v⟩ ⟨_, w⟩ ⟨rfl, hvw⟩
    exact .append (.same _) (.expr .top hvw.exchanged)
  have hbody := exchangedIn_congruence.join_map ", " h hentry
  cases h with
  | nil => exact .same _
  | cons => exact hbody

/-- **Assignments.** -/
theorem assignment (hrule : g.clauses.rule? tag = some Clause.assignment) :
    ClauseStandsFor g c R tag (.map s) (.map t) :=
  of_rule hrule fun _ _ _ => .append (.same _) (assignments h)

theorem duplicateUpdate (hrule : g.clauses.rule? tag = some Clause.duplicateUpdate) :
    ClauseStandsFor g c R tag (.map s) (.map t) :=
  of_rule hrule fun _ _ _ => .append (.same _) (assignments h)

end Entries

/-- **The order of rows**, by expressions with or without a direction. -/
theorem orderBy (hrule : g.clauses.rule? tag = some Clause.orderBy)
    (h : List.Forall₂ (fun v w => ExchangedIn g c R (.orderItem v) (.orderItem w)) as bs) :
    ClauseStandsFor g c R tag (.seq as) (.seq bs) :=
  of_rule hrule fun _ _ _ =>
    .append (.same _) (exchangedIn_congruence.join_map ", " h fun _ _ hab => hab)

theorem orderItem (h : StandsFor g c R v w) (direction : String) :
    ExchangedIn g c R (.orderItem (.seq [v, .ident direction]))
      (.orderItem (.seq [w, .ident direction])) :=
  .append (.expr .top h.exchanged) (.same _)

/-- **Rows that are not all maps.** -/
theorem rows (hrule : g.clauses.rule? tag = some Clause.rows) (has : Clause.rowMaps? as = none)
    (hbs : Clause.rowMaps? bs = none)
    (h : List.Forall₂ (fun v w => ExchangedIn g c R (Clause.listRow v) (Clause.listRow w)) as bs) :
    ClauseStandsFor g c R tag (.seq as) (.seq bs) := by
  have hbody := exchangedIn_congruence.join_map ", " h fun _ _ hab => hab
  refine of_rule hrule fun s t _ => ?_
  cases h with
  | nil => exact .same _
  | cons =>
    simp only [Clause.rows, Value.isWord, Value.rows?, has, hbs]
    exact .append (.same _) hbody

section MapRows
variable {rows rows' : List Statement}
  (h : List.Forall₂ (Statement.Entrywise fun _ => StandsFor g c R) rows rows')
include h

theorem rowColumns_eq (named : Option Value) :
    Clause.rowColumns rows named = Clause.rowColumns rows' named := by
  have htags : List.Forall₂ (· = ·) (rows.map Statement.tags) (rows'.map Statement.tags) := by
    rw [List.forall₂_map_left_iff, List.forall₂_map_right_iff]
    exact h.imp fun _ _ hrow => hrow.tags_eq
  rw [List.forall₂_eq_eq_eq] at htags
  unfold Clause.rowColumns Clause.rowKeys
  rw [List.flatMap_def, List.flatMap_def, htags]

omit h in
theorem mapRow (cols : List String) {row row' : Statement}
    (h : row.Entrywise (fun _ => StandsFor g c R) row') :
    ExchangedIn g c R (Clause.mapRow cols row) (Clause.mapRow cols row') := by
  refine exchangedIn_congruence.parens (exchangedIn_congruence.join_map ", "
    (List.forall₂_same.mpr fun _ _ => rfl) ?_)
  rintro column _ rfl
  rcases h.get?_cases column with ⟨hv, hw⟩ | ⟨v, w, hv, hw, hvw⟩
  · rw [hv, hw]
    exact .same _
  · rw [hv, hw]
    exact .expr .top hvw.exchanged

/-- **Rows given as maps**, with the same keys. -/
theorem mapRows (hrule : g.clauses.rule? tag = some Clause.rows) :
    ClauseStandsFor g c R tag (.seq (rows.map .map)) (.seq (rows'.map .map)) := by
  refine of_rule hrule fun s t hst => ?_
  have hmaps : ExchangedIn g c R (Clause.mapRows rows s) (Clause.mapRows rows' t) := by
    simp only [Clause.mapRows, hst.columns, rowColumns_eq h]
    split
    · exact .same _
    · rename_i cols _
      have hbody := exchangedIn_congruence.join_map ", " h fun _ _ => mapRow cols
      split
      · exact .append (.same _) hbody
      · exact .append (.same _) (.append (.same _) hbody)
  have hrows := Clause.rowMaps?_map rows
  have hrows' := Clause.rowMaps?_map rows'
  cases h with
  | nil => exact .same _
  | cons =>
    simp only [Clause.rows, Value.isWord, Value.rows?, List.map_cons] at hrows hrows' ⊢
    rw [hrows, hrows']
    exact hmaps

end MapRows

end ClauseStandsFor

/-! ### Statements -/

/-- **Clauses of a statement**, of any number at once. -/
theorem exchangedIn_of_clauses {s t : Statement} (h : s.Entrywise (ClauseStandsFor g c R) t)
    (hnames : ∀ k ∈ ["modifiers", "columns"], s.get? k = t.get? k) :
    ExchangedIn g c R (.statement s) (.statement t) := by
  have hagree : Clause.Agree s t :=
    ⟨hnames _ (by decide), hnames _ (by decide), h.contains_eq _, h.contains_eq _⟩
  refine .statement (exchangedIn_congruence.joinKept " " ?_)
  refine List.rel_filterMap ?_ (h.arranged c)
  rintro ⟨tag, v⟩ ⟨_, w⟩ ⟨rfl, hclause⟩
  show Option.Rel _ (g.clauseLayout? s tag v) (g.clauseLayout? t tag w)
  unfold clauseLayout?
  cases hrule : g.clauses.rule? tag with
  | none => exact .none
  | some rule => exact .some (.within tag (hclause rule hrule s t hagree))

end Grammar
end Clausal
