import Clausal.Proofs.ClauseOrder.Formatting
import Clausal.Proofs.Condition.Hollow
import Clausal.Proofs.Draft.Format

/-! # Guarded deletions and changes

The text of a statement is made of the texts of its clauses, in the order of the dialect and
divided by blanks; clauses without text are left out (`Grammar.format_clauseTexts`).

A deletion or change that passes the linter has a condition that is not vacuous.  Its clause
has text, and so the statement is guarded, exactly when the condition is not hollow
(`Grammar.guarded_where_text`).  The linter knows only some of the hollow conditions: a call sigil
without arguments, as in `%and`, passes and is written as nothing.
-/
namespace Clausal

/-! ### The texts of clauses -/

namespace Grammar

/-- What each clause contributes to the text of a statement. -/
def clauseTexts (g : Grammar) (o : Options) (d : Dialect) (s : Statement) :
    Except Fault (List (String × String)) :=
  let c := g.context o d false
  let sub := g.evaluators c ((Value.map s).weight + spareDepth - 1)
  let clauses : Run (List (String × Sql)) :=
    (g.written c s).mapM fun e => return (e.1, ← g.clauseSql c sub s e)
  match clauses {} with
  | (.ok parts, _) => .ok (parts.map fun e => (e.1, e.2.render o.placeholder))
  | (.error e, _) => .error e

variable {g : Grammar}

/-- **The text of a statement is made of the texts of its clauses.** -/
theorem format_clauseTexts {s : Statement} {o : Options} {f : Formatted}
    (h : g.format s o = .ok f) :
    ∃ d texts, g.resolveDialect o = .ok d ∧ g.clauseTexts o d s = .ok texts ∧
      f.sql = String.intercalate " " ((texts.map Prod.snd).filter (· ≠ "")) := by
  obtain ⟨d, hd, h⟩ := bind_eq_ok.mp h
  obtain ⟨kept, hkept, h⟩ := bind_eq_ok.mp h
  obtain ⟨values, -, h⟩ := bind_eq_ok.mp h
  cases h
  unfold keep at hkept
  split at hkept
  · rename_i sql t hrun
    cases hkept
    rw [evalStatement_eq, eval_statementLayout, Run.mapM_eq_tagged Prod.fst] at hrun
    obtain ⟨parts, u, htagged, hpure⟩ := Run.of_bind_ok hrun
    obtain ⟨tagged, w, hparts, hsnd⟩ := Run.of_bind_ok htagged
    obtain ⟨rfl, rfl⟩ := Run.of_pure_ok hsnd
    obtain ⟨rfl, rfl⟩ := Run.of_pure_ok hpure
    refine ⟨d, tagged.map fun e => (e.1, e.2.render o.placeholder),
      resolveDialect_of_admissible hd, ?_, ?_⟩
    · simp only [clauseTexts, hparts]
    · dsimp only
      rw [Sql.render_beside, List.map_map, List.map_map]
      rfl
  · cases hkept

/-- A clause of the statement that has a rule is evaluated in some session. -/
theorem mem_clauseTexts {o : Options} {d : Dialect} {s : Statement}
    {texts : List (String × String)} (h : g.clauseTexts o d s = .ok texts) {tag : String}
    {v : Value} {rule : ClauseRule} (hrule : g.clauses.rule? tag = some rule)
    (hv : Table.get? tag s = some v) :
    ∃ u w sql, (Layout.within tag (rule tag v s)).eval (g.context o d false)
        (g.evaluators (g.context o d false) ((Value.map s).weight + spareDepth - 1)) u =
          (.ok sql, w) ∧
      (tag, sql.render o.placeholder) ∈ texts := by
  unfold clauseTexts at h
  dsimp only at h
  split at h
  · rename_i parts t hrun
    cases h
    obtain ⟨u, w, part, hpart, hmem⟩ := Run.of_mapM_ok hrun (mem_written _ hrule hv)
    obtain ⟨sql, w', hsql, hpure⟩ := Run.of_bind_ok hpart
    obtain ⟨rfl, rfl⟩ := Run.of_pure_ok hpure
    simp only [clauseSql, hrule] at hsql
    exact ⟨u, w', sql, hsql, List.mem_map.mpr ⟨_, hmem, rfl⟩⟩
  · cases h

/-! ### The linter -/

/-- A guarded statement that passes the linter has a condition that is not vacuous. -/
theorem condition_of_check {level : LintLevel} {s : Statement} {params : Table Value}
    (hlevel : level ≠ .off) (htag : ∃ tag ∈ Lint.guardedTags, s.contains tag = true)
    (h : Lint.check level s params = .ok ()) :
    ∃ v, s.get? "where" = some v ∧ isVacuous v = false := by
  have hnone : Lint.unguarded? s = none := by
    have hvalue : Lint.value? level params (.map s) = none := by
      cases level with
      | off => exact absurd rfl hlevel
      | _ =>
        unfold Lint.check at h
        dsimp only at h
        split at h
        · cases h
        · assumption
    rw [Lint.value?, Option.or_eq_none_iff] at hvalue
    exact hvalue.1
  have hcondition : Lint.hasCondition s = true := by
    obtain ⟨tag, htag, hhas⟩ := htag
    refine Classical.byContradiction fun hmissing => ?_
    rw [Lint.unguarded?, if_neg hmissing, Option.map_eq_none_iff,
      List.findSome?_eq_none_iff] at hnone
    rw [Statement.contains, Table.has, ← Statement.get?, hnone tag htag] at hhas
    cases hhas
  unfold Lint.hasCondition at hcondition
  split at hcondition
  · rename_i v hv
    exact ⟨v, hv, by simpa using hcondition⟩
  · cases hcondition

/-! ### Conditions that are written -/

theorem visible_of_builtin {d : Dialect} (hd : d ∈ Dialect.builtin) (quoted quotedSnake : Bool) :
    NameStyle.Visible ⟨d, quoted, quotedSnake⟩ := by
  have hquote : ∀ s, d.quote s ≠ "" := by
    intro s
    simp only [Dialect.builtin, List.mem_cons, List.not_mem_nil, or_false] at hd
    rcases hd with rfl | rfl | rfl | rfl <;>
      simp [Dialect.ansi, Dialect.mysql, Dialect.sqlserver, Dialect.oracle, delimit]
  intro s
  unfold NameStyle.part
  dsimp only
  split
  · rename_i hstar
    rw [hstar]
    decide
  · split
    · exact hquote _
    · split
      · rename_i hplain
        rintro hempty
        rw [hempty] at hplain
        cases hplain
      · exact hquote _

/-- A condition that is not null stands behind its keyword. -/
theorem condition_layout {v : Value} (hv : v ≠ .null) (tag : String) (statement : Statement) :
    Clause.condition tag v statement = .lead (keyword tag ++ " ") (.top v) := by
  cases v <;> first | rfl | exact absurd rfl hv

/-- The condition of a statement has text exactly when it is not hollow. -/
theorem isEmpty_condition {c : Context} (hstyle : c.style.Visible) (depth : Nat) {v : Value}
    (hv : v.isNull = false) {statement : Statement} {s t : Session} {sql : Sql}
    (h : (Layout.within "where" (Clause.condition "where" v statement)).eval c
      (standard.evaluators c depth) s = (.ok sql, t)) :
    (sql.isEmpty = true ↔ Hollow c v) ∧
      (sql.isEmpty = false →
        ∃ body : Sql, body.isEmpty = false ∧ sql = Sql.ofText "WHERE " ++ body) := by
  have hkeyword : keyword "where" = "WHERE" := by decide +kernel
  have hnull : v ≠ .null := by
    rintro rfl
    cases hv
  rw [condition_layout hnull, hkeyword] at h
  obtain ⟨u, hlead, -⟩ := Run.of_under_ok h
  obtain ⟨body, w, hbody, hpure⟩ := Run.of_bind_ok hlead
  obtain ⟨hsql, -⟩ := Run.of_pure_ok hpure
  obtain ⟨hhollow, -⟩ := tell_hollow hstyle depth rfl hbody
  by_cases hempty : body.isEmpty = true
  · rw [if_pos hempty] at hsql
    subst hsql
    exact ⟨iff_of_true rfl (hhollow.mp hempty), fun hfalse => by cases hfalse⟩
  · rw [if_neg hempty] at hsql
    subst hsql
    have hfalse : Sql.isEmpty (Sql.ofText ("WHERE" ++ " ") ++ body) = false := by
      simp [Bool.not_eq_true _ ▸ hempty]
    exact ⟨iff_of_false (ne_true_of_eq_false hfalse) fun h => hempty (hhollow.mpr h),
      fun _ => ⟨body, Bool.not_eq_true _ ▸ hempty, rfl⟩⟩

/-- **A guarded statement that passes the linter is written with its condition unless the condition
is hollow.** -/
theorem guarded_where_text {s : Statement} {o : Options} {level : LintLevel} {f : Formatted}
    (ho : o.isCustom = false) (hlevel : level ≠ .off)
    (htag : ∃ tag ∈ Lint.guardedTags, s.contains tag = true)
    (hcheck : Lint.check level s o.params = .ok ()) (hf : standard.format s o = .ok f) :
    ∃ d texts v text, standard.resolveDialect o = .ok d ∧
      standard.clauseTexts o d s = .ok texts ∧
      f.sql = String.intercalate " " ((texts.map Prod.snd).filter (· ≠ "")) ∧
      s.get? "where" = some v ∧ isVacuous v = false ∧ ("where", text) ∈ texts ∧
      (text = "" ↔ Hollow (standard.context o d false) v) ∧
      (text ≠ "" → ∃ predicate, predicate ≠ "" ∧ text = "WHERE " ++ predicate) := by
  obtain ⟨v, hv, hvacuous⟩ := condition_of_check hlevel htag hcheck
  obtain ⟨d, texts, hd, htexts, hsql⟩ := format_clauseTexts hf
  have hbuiltin := mem_builtin_of_resolveDialect ho hd
  have hnull : v.isNull = false := by cases v <;> first | rfl | cases hvacuous
  -- The clause is among those of the statement, so it was evaluated somewhere on the way.
  have hrule : standard.clauses.rule? "where" = some Clause.condition := rfl
  obtain ⟨u, w, sql, heval, hmem⟩ := mem_clauseTexts htexts hrule hv
  obtain ⟨hhollow, hbody⟩ := isEmpty_condition (visible_of_builtin hbuiltin _ _) _ hnull heval
  refine ⟨d, texts, v, sql.render o.placeholder, hd, htexts, hsql, hv, hvacuous, hmem, ?_, ?_⟩
  · rw [← Sql.isEmpty_iff_render]
    exact hhollow
  · intro hne
    have hfalse : sql.isEmpty = false := by
      rw [← Bool.not_eq_true, Sql.isEmpty_iff_render o.placeholder]
      exact hne
    obtain ⟨predicate, hpredicate, rfl⟩ := hbody hfalse
    refine ⟨predicate.render o.placeholder, ?_, ?_⟩
    · rw [ne_eq, ← Sql.isEmpty_iff_render, hpredicate]
      exact Bool.false_ne_true
    · rw [Sql.render_append]
      rfl

/-- The linter passes the sigil of a connective without operands, and the condition is written as
nothing. -/
theorem guarded_where_text_sigil :
    Lint.check .basic [("delete-from", .ident "users"), ("where", .ident "%and")] [] = .ok () ∧
    standard.format [("delete-from", .ident "users"), ("where", .ident "%and")] {} =
      .ok ⟨"DELETE FROM users", []⟩ ∧
    ∃ d texts,
      standard.clauseTexts {} d [("delete-from", .ident "users"), ("where", .ident "%and")] =
        .ok texts ∧ ("where", "") ∈ texts := by
  have hcheck : Lint.check .basic [("delete-from", .ident "users"), ("where", .ident "%and")] [] =
      .ok () := rfl
  have hformat : standard.format [("delete-from", .ident "users"), ("where", .ident "%and")] {} =
      .ok ⟨"DELETE FROM users", []⟩ := by
    have hkeep : keep {} (standard.evalStatement (standard.context {} .ansi false)
        [("delete-from", .ident "users"), ("where", .ident "%and")]) =
          .ok ⟨"DELETE FROM users", []⟩ := by
      rw [evalStatement_of_ordered (by decide +kernel)]
      decide +kernel
    rw [format_default, hkeep]
    rfl
  refine ⟨hcheck, hformat, ?_⟩
  obtain ⟨d, texts, v, text, -, htexts, -, hv, -, hmem, hempty, -⟩ :=
    guarded_where_text (o := {}) rfl (by decide) ⟨"delete-from", by decide, by decide⟩ hcheck
      hformat
  have hhollow : Hollow (standard.context {} d false) (.ident "%and") := by
    have hlower : Text.lower "and" = "and" := by decide +kernel
    have hop : Table.get? (Text.lower "and") OperatorPolicy.builtin = some .connective := by
      rw [hlower]
      rfl
    have hcall : sigilCall? "and" = some (.call "and" []) := rfl
    exact .sigil rfl hcall (.joined hop rfl (.inr ⟨rfl, rfl⟩) fun v hv => by cases hv)
  cases hv
  rw [hempty.mpr hhollow] at hmem
  exact ⟨d, texts, htexts, hmem⟩

end Grammar
end Clausal
