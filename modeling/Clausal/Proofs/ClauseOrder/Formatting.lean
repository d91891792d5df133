import Clausal.Proofs.ClauseOrder.Arranged
import Clausal.Proofs.ClosedEvaluation
import Clausal.Proofs.Condition.Wording
import Clausal.Proofs.Depth.Bounded

/-! # The order of clauses

The rules of a statement's clauses are run one after the other, in the order of the dialect, and
what they give is joined by blanks (`Grammar.run_statement`).  This holds for every grammar.

A built-in rule looks at few other clauses, and at those by name (`Clause.builtin_congr`).  Under
the standard grammar a statement is therefore written alike in whatever order its clauses are given,
and clauses without a rule make no difference (`Grammar.clauses_in_order`).
-/
namespace Clausal

/-! ### Clauses that look at others -/

namespace Clause

/-- The clauses that the rules of other clauses look at. -/
def consulted : List String := ["modifiers", "columns", "offset", "fetch"]

/-- What the rules of other clauses look at is the same in both statements. -/
structure Agree (s t : Statement) : Prop where
  modifiers : s.get? "modifiers" = t.get? "modifiers"
  columns : s.get? "columns" = t.get? "columns"
  offset : s.contains "offset" = t.contains "offset"
  fetch : s.contains "fetch" = t.contains "fetch"

theorem Agree.of_consulted {s t : Statement} (h : ∀ k ∈ consulted, s.get? k = t.get? k) :
    Agree s t where
  modifiers := h _ (by decide)
  columns := h _ (by decide)
  offset := congrArg Option.isSome (h "offset" (by decide))
  fetch := congrArg Option.isSome (h "fetch" (by decide))

theorem builtin_congr {s t : Statement} (h : Agree s t) (tag : String) (payload : Value) :
    ∀ e ∈ builtin, e.2 tag payload s = e.2 tag payload t := by
  have hselect : select tag payload s = select tag payload t := by
    simp only [select, h.modifiers]
  have hrows : rows tag payload s = rows tag payload t := by
    simp only [rows, mapRows, h.columns]
  have hoffset : offset tag payload s = offset tag payload t := by
    simp only [offset, h.fetch]
  have hfetch : fetch tag payload s = fetch tag payload t := by
    simp only [fetch, h.offset]
  simp [builtin, hselect, hrows, hoffset, hfetch, verbatim, nested, bindings, setOperation,
    selectDistinctOn, insertion, update, deletion, deletionFrom, truncation, columnNames,
    assignment, sources, joins, crossJoin, condition, expressions, windows, orderBy, limit, rowLock,
    tableLock, conflict, constraint, nothing, conflictUpdate, duplicateUpdate, returning]

end Clause

namespace Grammar

variable {g : Grammar} {c : Context} {s t : Statement}

/-! ### The clauses that are run -/

/-- The entries of a statement that have a rule, in the order in which they are written. -/
def written (g : Grammar) (c : Context) (s : Statement) : List (String × Value) :=
  (arranged c s).filter fun e => (g.clauses.rule? e.1).isSome

/-- The SQL of one clause of a statement. -/
def clauseSql (g : Grammar) (c : Context) (sub : Evaluators) (s : Statement) (e : String × Value) :
    Run Sql :=
  match g.clauses.rule? e.1 with
  | some rule => (Layout.within e.1 (rule e.1 e.2 s)).eval c sub
  | none => pure []

theorem eval_statementLayout (g : Grammar) (c : Context) (sub : Evaluators) (s : Statement) :
    (g.statementLayout c s).eval c sub = (do
      let parts ← (g.written c s).mapM (g.clauseSql c sub s)
      return parts.foldr (Sql.beside " ") (Sql.ofText "")) := by
  unfold statementLayout written
  generalize arranged c s = entries
  induction entries with
  | nil => simp [Layout.joinKept, Layout.empty, Layout.eval]
  | cons e entries ih =>
    cases hrule : g.clauses.rule? e.1 with
    | none =>
      rw [List.filterMap_cons_none (by simp [clauseLayout?, hrule]),
        List.filter_cons_of_neg (by simp [hrule]), ih]
    | some rule =>
      have hlayout : (e :: entries).filterMap (fun e => g.clauseLayout? s e.1 e.2) =
          .within e.1 (rule e.1 e.2 s) :: entries.filterMap fun e => g.clauseLayout? s e.1 e.2 :=
        List.filterMap_cons_some (by simp [clauseLayout?, hrule])
      have hcons : ∀ (l : Layout) (ls : List Layout), (Layout.joinKept " " (l :: ls)).eval c sub =
          (do
            let first ← l.eval c sub
            let second ← (Layout.joinKept " " ls).eval c sub
            return Sql.beside " " first second) := fun _ _ => rfl
      rw [hlayout, List.filter_cons_of_pos (by simp [hrule]),
        List.mapM_cons, hcons, ih]
      simp [clauseSql, hrule]

/-- A clause of the statement is run if it has a rule. -/
theorem mem_written (c : Context) {tag : String} {v : Value} {rule : ClauseRule}
    (hrule : g.clauses.rule? tag = some rule) (hv : Table.get? tag s = some v) :
    (tag, v) ∈ g.written c s :=
  List.mem_filter.mpr ⟨(arranged_perm c s).mem_iff.mpr (Table.mem_of_get? hv), by simp [hrule]⟩

/-- **A statement is written by running the rules of its clauses in order.**  A fault ends the
run; the text is what the clauses give, without empty texts, divided by blanks. -/
theorem run_statement (g : Grammar) (c : Context) (depth : Nat) (s : Statement)
    (before : Session) :
    match (g.written c s).mapM (g.clauseSql c (g.evaluators c depth) s) before with
    | (.ok parts, after) =>
      ∃ sql, (g.evaluators c (depth + 1)).statement s before = (.ok sql, after) ∧
        ∀ p, sql.render p = String.intercalate " " ((parts.map (Sql.render p)).filter (· ≠ ""))
    | (.error e, after) =>
      (g.evaluators c (depth + 1)).statement s before = (.error e, after) := by
  have hstatement : (g.evaluators c (depth + 1)).statement s =
      (g.statementLayout c s).eval c (g.evaluators c depth) := rfl
  rw [hstatement, eval_statementLayout]
  split
  · rename_i parts after hparts
    exact ⟨_, Run.bind_ok hparts _, fun p => Sql.render_beside p " " parts⟩
  · rename_i e after hparts
    exact Run.bind_error hparts _

theorem written_inOrder (g : Grammar) (c : Context) (hs : (Table.keys s).Nodup) :
    InOrder c.order (s.filter fun e => (g.clauses.rule? e.1).isSome) (g.written c s) :=
  (arranged_inOrder c hs).filter _

/-! ### Statements that are written alike -/

theorem statementLayout_written (g : Grammar) (c : Context) (s : Statement) :
    g.statementLayout c s =
      .joinKept " " ((g.written c s).filterMap fun e => g.clauseLayout? s e.1 e.2) := by
  unfold statementLayout written
  rw [List.filterMap_filter]
  refine congrArg _ (List.filterMap_congr fun e _ => ?_)
  unfold clauseLayout?
  cases g.clauses.rule? e.1 <;> rfl

/-- A clause is laid out alike in statements that have the same clauses that rules look at. -/
theorem clauseLayout?_congr (h : ∀ k ∈ Clause.consulted, s.get? k = t.get? k) (tag : String)
    (payload : Value) :
    standard.clauseLayout? s tag payload = standard.clauseLayout? t tag payload := by
  unfold clauseLayout?
  cases hrule : standard.clauses.rule? tag with
  | none => rfl
  | some rule =>
    have hsame :=
      Clause.builtin_congr (.of_consulted h) tag payload (tag, rule) (Table.mem_of_get? hrule)
    exact congrArg (fun l => some (Layout.within tag l)) hsame

/-- Statements whose clauses are run in the same order, and which have the same clauses that rules
look at, have the same layout. -/
theorem statementLayout_congr (hwritten : standard.written c s = standard.written c t)
    (h : ∀ k ∈ Clause.consulted, s.get? k = t.get? k) :
    standard.statementLayout c s = standard.statementLayout c t := by
  rw [statementLayout_written, statementLayout_written, hwritten]
  exact congrArg _ (List.filterMap_congr fun e _ => clauseLayout?_congr h e.1 e.2)

theorem Bounded.evalStatement_congr (hg : g.Bounded)
    (h : g.statementLayout c s = g.statementLayout c t) :
    g.evalStatement c s = g.evalStatement c t := by
  -- The weights may differ; a depth that covers both statements evaluates both.
  let depth := Value.weightEntries s + Value.weightEntries t
  have hcovers : ∀ u : Statement, Value.weightEntries u ≤ depth →
      g.evalStatement c u = (g.statementLayout c u).eval c (g.evaluators c depth) := by
    intro u hu
    have hown : Value.weightEntries u < (Value.map u).weight + spareDepth := by
      simp only [Value.weight]
      omega
    exact hg.statement_eq c hown (Nat.lt_succ_of_le hu)
  rw [hcovers s (Nat.le_add_right _ _), hcovers t (Nat.le_add_left _ _), h]

/-- The order in which clauses are run is settled by the clauses that have a rule, and by the order
in which those without a place are given. -/
theorem written_congr (hs : (Table.keys s).Nodup) (ht : (Table.keys t).Nodup)
    (hperm : (s.filter fun e => (g.clauses.rule? e.1).isSome).Perm
      (t.filter fun e => (g.clauses.rule? e.1).isSome))
    (hrest : (s.filter fun e => (g.clauses.rule? e.1).isSome ∧ e.1 ∉ c.order) =
      t.filter fun e => (g.clauses.rule? e.1).isSome ∧ e.1 ∉ c.order) :
    g.written c s = g.written c t := by
  refine (written_inOrder g c hs).unique (written_inOrder g c ht) hperm ?_
  rw [List.filter_filter, List.filter_filter]
  simpa [Bool.and_comm] using hrest

/-- A statement that passes the linter is written. -/
theorem format_of_check {o : Options} (h : Lint.check o.checking s o.params = .ok ()) :
    g.format s o = (g.resolveDialect o).bind fun d =>
      (keep o (g.evalStatement (g.context o d false) s)).bind (finish o) := by
  unfold format admissible
  rw [h]
  cases g.resolveDialect o <;> rfl

theorem format_unchecked {o : Options} (ho : o.checking = .off) :
    g.format s o = (g.resolveDialect o).bind fun d =>
      (keep o (g.evalStatement (g.context o d false) s)).bind (finish o) := by
  refine format_of_check ?_
  rw [ho]
  rfl

theorem format_congr {o : Options} (ho : o.checking = .off)
    (h : ∀ d, g.resolveDialect o = .ok d →
      g.evalStatement (g.context o d false) s = g.evalStatement (g.context o d false) t) :
    g.format s o = g.format t o := by
  rw [format_unchecked ho, format_unchecked ho]
  cases hd : g.resolveDialect o with
  | error e => simp only [Except.bind]
  | ok d => simp only [Except.bind, h d hd]

/-- The clauses that have a rule but no place in the order of a dialect, as they are given. -/
def unplaced (g : Grammar) (d : Dialect) (s : Statement) : List (String × Value) :=
  s.filter fun e => (g.clauses.rule? e.1).isSome ∧ e.1 ∉ g.clauseOrder d

theorem get?_of_perm (hs : (Table.keys s).Nodup) (h : s.Perm t) (k : String) :
    Table.get? k s = Table.get? k t := by
  have ht : (Table.keys t).Nodup := (h.map Prod.fst).nodup_iff.mp hs
  cases hk : Table.get? k s with
  | some v => exact (Table.get?_of_mem ht (h.subset (Table.mem_of_get? hk))).symm
  | none =>
    cases hk' : Table.get? k t with
    | none => rfl
    | some v =>
      rw [Table.get?_of_mem hs (h.symm.subset (Table.mem_of_get? hk'))] at hk
      cases hk

/-- Clauses in another order are written alike. -/
theorem format_of_perm {o : Options} (ho : o.checking = .off) (hs : (Table.keys s).Nodup)
    (h : s.Perm t)
    (hrest : ∀ d, standard.resolveDialect o = .ok d →
      standard.unplaced d s = standard.unplaced d t) :
    standard.format s o = standard.format t o := by
  refine format_congr ho fun d hd => standard_bounded.evalStatement_congr ?_
  have ht : (Table.keys t).Nodup := (h.map Prod.fst).nodup_iff.mp hs
  exact statementLayout_congr (written_congr hs ht (h.filter _) (hrest d hd))
    fun k _ => get?_of_perm hs h _

theorem ruled_of_consulted : ∀ k ∈ Clause.consulted,
    Statement.tagOf k = "modifiers" ∨
      (standard.clauses.rule? (Statement.tagOf k)).isSome = true := by
  decide +kernel

/-- A clause without a rule, other than `modifiers`, makes no difference. -/
theorem format_of_ruleless {o : Options} (ho : o.checking = .off) {a b : Statement} {k : String}
    {v : Value} (hs : (Table.keys (a ++ (k, v) :: b)).Nodup)
    (hrule : standard.clauses.rule? k = none) (hk : k ≠ "modifiers") :
    standard.format (a ++ (k, v) :: b) o = standard.format (a ++ b) o := by
  refine format_congr ho fun d hd => standard_bounded.evalStatement_congr ?_
  have hab : (Table.keys (a ++ b)).Nodup :=
    hs.sublist (((List.sublist_cons_self _ b).append_left a).map Prod.fst)
  refine statementLayout_congr (written_congr hs hab ?_ ?_) ?_
  · simp [hrule]
  · simp [hrule]
  · intro k' hk'
    have hne : k ≠ Statement.tagOf k' := by
      rintro rfl
      rcases ruled_of_consulted k' hk' with hmodifiers | hruled
      · exact hk hmodifiers
      · rw [hrule] at hruled
        cases hruled
    show Table.get? _ _ = Table.get? _ _
    rw [Table.get?_append, Table.get?_append, Table.get?, if_neg hne]

/-- **The clauses of a statement are run in order.**  Those that have a rule are run once each, by
the last position of their tags in the order of the dialect, and after them those without a
place, as they are given.  Under the standard grammar a statement that is not checked is therefore
written alike when its clauses are given in another order, as long as those without a place
keep theirs, and when a clause without a rule is added. -/
theorem clauses_in_order (hs : (Table.keys s).Nodup) :
    (∀ (g : Grammar) (c : Context) (depth : Nat) (before : Session),
      InOrder c.order (s.filter fun e => (g.clauses.rule? e.1).isSome) (g.written c s) ∧
        match (g.written c s).mapM (g.clauseSql c (g.evaluators c depth) s) before with
        | (.ok parts, after) =>
          ∃ sql, (g.evaluators c (depth + 1)).statement s before = (.ok sql, after) ∧
            ∀ p, sql.render p =
              String.intercalate " " ((parts.map (Sql.render p)).filter (· ≠ ""))
        | (.error e, after) =>
          (g.evaluators c (depth + 1)).statement s before = (.error e, after)) ∧
      ∀ o : Options, o.checking = .off →
        (∀ t, s.Perm t →
          (∀ d, standard.resolveDialect o = .ok d →
            standard.unplaced d s = standard.unplaced d t) →
          standard.format s o = standard.format t o) ∧
        ∀ a b k v, s = a ++ (k, v) :: b → standard.clauses.rule? k = none → k ≠ "modifiers" →
          standard.format s o = standard.format (a ++ b) o := by
  refine ⟨fun g c depth before => ⟨written_inOrder g c hs, run_statement g c depth s before⟩,
    fun o ho => ⟨fun t => format_of_perm ho hs, ?_⟩⟩
  rintro a b k v rfl hrule hk
  exact format_of_ruleless ho hs hrule hk

/-- Under a dialect that turns the order around and has no place for sources and conditions, the
selection can be given first or last, and a note can be left out. -/
theorem clauses_in_order_reversed :
    let d := ({ drop := ["from", "where"], reverse := true } : DialectSpec).toDialect
    let o : Options := { dialect := some (.custom d) }
    let given : Statement := [("where", .ident "x"), ("note", .int 1), ("from", .ident "t")]
    let selection : Statement := [("select", .seq [.ident "a"])]
    (Table.keys (given ++ selection)).Nodup ∧
      standard.unplaced d (given ++ selection) = [("where", .ident "x"), ("from", .ident "t")] ∧
      standard.clauses.rule? "note" = none ∧
      standard.format (given ++ selection) o = standard.format (selection ++ given) o ∧
      standard.format (given ++ selection) o =
        standard.format ([("where", .ident "x"), ("from", .ident "t")] ++ selection) o := by
  intro d o given selection
  have hnodup : (Table.keys (given ++ selection)).Nodup := by decide
  have hwhere : (standard.clauses.rule? "where").isSome ∧ "where" ∉ standard.clauseOrder d := by
    decide +kernel
  have hfrom : (standard.clauses.rule? "from").isSome ∧ "from" ∉ standard.clauseOrder d := by
    decide +kernel
  have hselect : "select" ∈ standard.clauseOrder d := by decide +kernel
  have hnote : standard.clauses.rule? "note" = none := rfl
  have hunplaced : standard.unplaced d (given ++ selection) =
      [("where", .ident "x"), ("from", .ident "t")] := by
    simp [unplaced, given, selection, hwhere, hfrom, hselect, hnote]
  have hunplaced' : standard.unplaced d (selection ++ given) =
      [("where", .ident "x"), ("from", .ident "t")] := by
    simp [unplaced, given, selection, hwhere, hfrom, hselect, hnote]
  obtain ⟨-, halike⟩ := clauses_in_order hnodup
  obtain ⟨hperm, hadded⟩ := halike o rfl
  refine ⟨hnodup, hunplaced, hnote, hperm _ List.perm_append_comm ?_,
    hadded [("where", .ident "x")] (("from", .ident "t") :: selection) _ _ rfl hnote (by decide)⟩
  intro d' hd'
  cases hd'
  exact hunplaced.trans hunplaced'.symm

end Grammar
end Clausal
