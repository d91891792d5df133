import Clausal.Proofs.ClauseOrder.Formatting
import Clausal.Proofs.Condition.Collapse
import Clausal.Proofs.Depth.Termination
import Clausal.Proofs.Interchange
import Clausal.Proofs.Lint.Exactness
import Clausal.Proofs.StatementLookup

/-! # Vacuous conditions

The linter takes a condition for none when it is null, an empty list, or a connective over such
conditions only.  The formatter has no such notion: it drops null operands, writes a single operand
for its connective, and leaves out operands without text.  The two agree nevertheless
(`Grammar.vacuous_condition_unwritten`): in every session a vacuous condition gives no text and
binds nothing, except that an empty list is no expression and is refused at whatever depth it
stands.

A run that gives no text, or is refused for an empty list, and leaves the session as it was
*vanishes* (`Run.Vanishes`).  What vanishes can be taken out of a statement, and the linter sees no
difference either.
-/
namespace Clausal

/-! ### Vacuous values -/

/-- A null, an empty list, or a connective over such values only. -/
inductive Vacuous : Value → Prop where
  | null : Vacuous .null
  | nil : Vacuous (.seq [])
  | connective {op : String} {args : List Value} (hop : IsConnective op)
      (h : ∀ v ∈ args, Vacuous v) : Vacuous (.call op args)

theorem isWord_connective_iff {head : Value} :
    (head.isWord "and" || head.isWord "or") = true ↔ ∃ op, head = .ident op ∧ IsConnective op := by
  have hand : Text.lower "and" = "and" := by decide +kernel
  have hor : Text.lower "or" = "or" := by decide +kernel
  cases head <;> simp [Value.isWord, Text.sameWord, IsConnective, hand, hor]

theorem allVacuous_iff {vs : List Value} :
    allVacuous vs = true ↔ ∀ v ∈ vs, isVacuous v = true := by
  induction vs with
  | nil => simp [allVacuous]
  | cons v vs ih => rw [allVacuous, Bool.and_eq_true, ih, List.forall_mem_cons]

theorem vacuous_of_isVacuous {v : Value} (h : isVacuous v = true) : Vacuous v := by
  induction v using Value.nested_induction with
  | atom v hatom =>
    cases v with
    | null => exact .null
    | seq items => cases hatom
    | map s => cases hatom
    | _ => cases h
  | seq items ih =>
    cases items with
    | nil => exact .nil
    | cons head rest =>
      rw [isVacuous, Bool.and_eq_true, isWord_connective_iff, allVacuous_iff] at h
      obtain ⟨⟨op, rfl, hop⟩, hrest⟩ := h
      exact .connective hop fun v hv => ih v (List.mem_cons_of_mem _ hv) (hrest v hv)
  | map s ih => cases h

/-- An empty list stands in a connective when it stands in an operand that is written. -/
theorem reaches_nil_call_iff {op : String} {args : List Value} :
    (Value.call op args).Reaches (.seq []) ↔ ∃ v ∈ operands args, v.Reaches (.seq []) := by
  constructor
  · intro h
    rcases h with _ | ⟨hv, h⟩ | _
    rename_i v
    rcases List.mem_cons.mp hv with rfl | hv
    · cases h
    · refine ⟨v, mem_operands.mpr ⟨hv, ?_⟩, h⟩
      rintro rfl
      cases h
  · rintro ⟨v, hv, h⟩
    exact .item (List.mem_cons_of_mem _ (mem_operands.mp hv).1) h

/-! ### Runs that vanish -/

namespace Run

/-- In every session the run gives no text, or is refused for an empty list if `refused` holds, and
the session is left as it was. -/
def Vanishes (x : Run Sql) (refused : Prop) : Prop :=
  ∀ s, (¬ refused ∧ ∃ sql, x s = (.ok sql, s) ∧ sql.isEmpty = true) ∨
    refused ∧ x s = (.error (.malformed .emptyExpression (.seq [])), s)

variable {x : Run Sql} {p q : Prop}

theorem Vanishes.congr (h : x.Vanishes p) (hpq : p ↔ q) : x.Vanishes q := propext hpq ▸ h

theorem vanishes_pure {sql : Sql} (h : sql.isEmpty = true) : (pure sql : Run Sql).Vanishes False :=
  fun _ => .inl ⟨id, sql, rfl, h⟩

theorem vanishes_throw :
    (throw (.malformed .emptyExpression (.seq [])) : Run Sql).Vanishes True :=
  fun _ => .inr ⟨trivial, rfl⟩

theorem Vanishes.bind {f : Sql → Run Sql} (hx : x.Vanishes p)
    (hf : ∀ sql : Sql, sql.isEmpty = true → (f sql).Vanishes q) : (x >>= f).Vanishes (p ∨ q) := by
  intro s
  rcases hx s with ⟨hp, sql, hok, hempty⟩ | ⟨hp, herror⟩
  · rw [bind_ok hok]
    exact (hf sql hempty s).imp (fun ⟨hq, hout⟩ => ⟨not_or.mpr ⟨hp, hq⟩, hout⟩)
      fun ⟨hq, hout⟩ => ⟨.inr hq, hout⟩
  · exact .inr ⟨.inl hp, bind_error herror f⟩

/-- What is made of empty SQL without further ado is empty. -/
theorem Vanishes.map {f : Sql → Run Sql} (hx : x.Vanishes p)
    (hf : ∀ sql : Sql, sql.isEmpty = true → (f sql).Vanishes False) : (x >>= f).Vanishes p :=
  (hx.bind hf).congr (or_iff_left id)

theorem Vanishes.under (h : x.Vanishes p) (change : Marker → Marker) :
    (under change x).Vanishes p := by
  intro s
  unfold Run.under ExceptT.run
  rcases h { s with marker := change s.marker } with ⟨hp, sql, hok, hempty⟩ | ⟨hp, herror⟩
  · rw [hok]
    exact .inl ⟨hp, sql, rfl, hempty⟩
  · rw [herror]
    exact .inr ⟨hp, rfl⟩

/-- Runs that vanish may be chosen by the session. -/
theorem vanishes_observing {f : Session → Run Sql} (h : ∀ s, (f s).Vanishes p) :
    Vanishes (do f (← get)) p :=
  fun s => h s s

end Run

/-! ### Layouts -/

namespace Layout
variable {c : Context} {sub : Evaluators} {body : Layout} {p : Prop}

theorem vanishes_lead (text : String) (h : (body.eval c sub).Vanishes p) :
    ((lead text body).eval c sub).Vanishes p :=
  h.map fun sql hempty => Run.vanishes_pure (by rw [if_pos hempty]; rfl)

/-- Nothing stands in parentheses that has no text. -/
theorem vanishes_wrap (h : (body.eval c sub).Vanishes p) :
    ((wrap body).eval c sub).Vanishes p := by
  refine h.map fun sql hempty => Run.vanishes_observing fun s => Run.vanishes_pure ?_
  rw [hempty]
  simpa using hempty

theorem vanishes_within (tag : String) (h : (body.eval c sub).Vanishes p) :
    ((within tag body).eval c sub).Vanishes p :=
  h.under _

theorem vanishes_operands (sep : String) {vs : List Value} {refused : Value → Prop}
    (h : ∀ v ∈ vs, (sub.expr true v).Vanishes (refused v)) :
    ((joinKept sep (vs.map .inner)).eval c sub).Vanishes (∃ v ∈ vs, refused v) := by
  induction vs with
  | nil => exact (Run.vanishes_pure rfl).congr (by simp)
  | cons v vs ih =>
    obtain ⟨hv, hvs⟩ := List.forall_mem_cons.mp h
    refine Run.Vanishes.congr (hv.bind fun first hfirst => (ih hvs).map fun rest hrest =>
      Run.vanishes_pure ?_) (List.exists_mem_cons_iff _ _ _).symm
    rw [Sql.isEmpty_beside, hfirst, hrest, Bool.and_self]

end Layout

/-! ### Expressions and clauses -/

namespace Grammar
variable {c : Context}

/-- An expression vanishes if its layouts do, at an alias position or not. -/
theorem vanishes_of_exprLayout {v : Value} {p : Prop}
    (h : ∀ aliased, ((standard.exprLayout aliased v).eval c (standard.unlimited c)).Vanishes p)
    (nested : Bool) : ((standard.unlimited c).expr nested v).Vanishes p := by
  rw [← standard_bounded.level_unlimited c]
  exact Run.vanishes_observing fun s => (h s.marker.aliasPosition).under _

theorem vanishes_connective {op : String} {args : List Value}
    (h : ∀ v ∈ operands args, ∀ nested,
      ((standard.unlimited c).expr nested v).Vanishes (v.Reaches (.seq []))) (whole : Value) :
    ((OperatorPolicy.connective.layout op args whole).eval c (standard.unlimited c)).Vanishes
      (∃ v ∈ operands args, v.Reaches (.seq [])) := by
  rcases hoperands : operands args with _ | ⟨v, _ | ⟨w, rest⟩⟩
  · rw [OperatorPolicy.layout_of_nil _ _ hoperands]
    exact (Run.vanishes_pure rfl).congr (by simp)
  · -- A single operand is written where the connective stands.
    rw [OperatorPolicy.layout_of_single _ _ hoperands]
    have hv := h v (hoperands ▸ List.mem_cons_self)
    exact (Run.vanishes_observing fun s => hv s.marker.nested).congr (by simp)
  · rw [OperatorPolicy.layout_of_many _ _ hoperands]
    rw [hoperands] at h
    exact Layout.vanishes_wrap (Layout.vanishes_operands _ fun v hv => h v hv true)

/-- **A vacuous expression vanishes**, unless it is null, which is written as an expression. -/
theorem vanishes_expr {v : Value} (hv : Vacuous v) (hnull : v ≠ .null) (nested : Bool) :
    ((standard.unlimited c).expr nested v).Vanishes (v.Reaches (.seq [])) := by
  -- By induction on the expression.  Null operands are dropped before they are evaluated, so that
  -- the hypothesis is there for all operands that are.
  induction hv generalizing nested with
  | null => exact absurd rfl hnull
  | nil =>
    refine vanishes_of_exprLayout (fun aliased => ?_) nested
    exact Run.vanishes_throw.congr (iff_of_true trivial (.self _))
  | @connective op args hop _ ih =>
    refine vanishes_of_exprLayout (fun aliased => ?_) nested
    rw [exprLayout_operator (get?_connective hop)]
    refine (vanishes_connective (fun v hv => ?_) _).congr reaches_nil_call_iff.symm
    obtain ⟨hmem, hne⟩ := mem_operands.mp hv
    exact ih v hmem hne

/-- A vacuous condition vanishes under the rule of conditions, if it is evaluated as without a bound
on the depth. -/
theorem vanishes_condition {w : Value} (hw : Vacuous w) {sub : Evaluators}
    (hsub : (standard.unlimited c).SameOn sub (.expr w)) (tag : String) (statement : Statement) :
    ((Clause.condition tag w statement).eval c sub).Vanishes (w.Reaches (.seq [])) := by
  by_cases hnull : w = .null
  · subst hnull
    refine (Run.vanishes_pure rfl).congr (iff_of_false id ?_)
    intro h
    cases h
  · rw [condition_layout hnull]
    refine Layout.vanishes_lead _ ?_
    show (sub.expr false w).Vanishes _
    rw [← hsub false]
    exact vanishes_expr hw hnull false

theorem rule?_condition {tag : String} (htag : tag = "where" ∨ tag = "having") :
    standard.clauses.rule? tag = some Clause.condition := by
  rcases htag with rfl | rfl <;> rfl

end Grammar

/-! ### Statements without the clause -/

/-- Neither the rules of other clauses nor the linter's list of guarded clauses ask for a
condition. -/
theorem get?_erase_condition {s : Statement} {tag k : String}
    (htag : tag = "where" ∨ tag = "having")
    (hk : k ∈ Clause.consulted ∨ k ∈ Lint.guardedTags) :
    Statement.get? (Table.erase tag s) k = s.get? k := by
  have htags : ∀ k ∈ Clause.consulted ++ Lint.guardedTags,
      Statement.tagOf k ≠ "where" ∧ Statement.tagOf k ≠ "having" := by
    decide +kernel
  obtain ⟨hwhere, hhaving⟩ := htags k (List.mem_append.mpr hk)
  refine Table.get?_erase_of_ne ?_
  rcases htag with rfl | rfl
  · exact hwhere
  · exact hhaving

namespace Run

/-- The run has the same outcome as another one, except that it is refused for an empty list if
`refused` holds; the other one may have been refused before. -/
def Follows (x y : Run Sql) (refused : Prop) : Prop :=
  ∀ s, (¬ refused ∧ SameOutcome (x s) (y s)) ∨
    refused ∧ ((∃ t, x s = (.error (.malformed .emptyExpression (.seq [])), t)) ∨
      ∃ e t, x s = (.error e, t) ∧ y s = (.error e, t))

variable {x y : Run Sql} {p : Prop}

/-- What comes first may fail; then both runs fail in the same way. -/
theorem Follows.after {f g : Sql → Run Sql} (z : Run Sql) (h : ∀ a, (f a).Follows (g a) p) :
    (z >>= f).Follows (z >>= g) p := by
  intro s
  cases hz : z s with
  | mk result t =>
    cases result with
    | ok a =>
      rw [bind_ok hz, bind_ok hz]
      exact h a t
    | error e =>
      rw [bind_error hz, bind_error hz]
      by_cases hp : p
      · exact .inr ⟨hp, .inr ⟨e, t, rfl, rfl⟩⟩
      · exact .inl ⟨hp, .error e t⟩

theorem Follows.map {f : Sql → Sql} (h : x.Follows y p)
    (hf : ∀ a b : Sql, a.Coincides b → (f a).Coincides (f b)) :
    (do return f (← x)).Follows (do return f (← y)) p := by
  intro s
  rcases h s with ⟨hp, hsame⟩ | ⟨hp, ⟨t, hx⟩ | ⟨e, t, hx, hy⟩⟩
  · exact .inl ⟨hp, hsame.bind fun a b hab => coincides_pure (hf a b hab)⟩
  · exact .inr ⟨hp, .inl ⟨t, bind_error hx _⟩⟩
  · exact .inr ⟨hp, .inr ⟨e, t, bind_error hx _, bind_error hy _⟩⟩

/-- What vanishes takes its separator with it. -/
theorem Vanishes.follows (hx : x.Vanishes p) (sep : String) (y : Run Sql) :
    (do let a ← x; let b ← y; return Sql.beside sep a b).Follows y p := by
  intro s
  rcases hx s with ⟨hp, sql, hok, hempty⟩ | ⟨hp, herror⟩
  · refine .inl ⟨hp, ?_⟩
    rw [bind_ok hok]
    have hbeside : (fun b => (pure (Sql.beside sep sql b) : Run Sql)) = pure := by
      funext b
      rw [Sql.beside, if_pos hempty]
    rw [hbeside, bind_pure]
    exact Coincides.rfl s
  · exact .inr ⟨hp, .inl ⟨s, bind_error herror _⟩⟩

end Run

/-- Parts are written as without a part that vanishes. -/
theorem Layout.follows_joinKept {c : Context} {sub : Evaluators} {l : Layout} {p : Prop}
    (hl : (l.eval c sub).Vanishes p) (sep : String) (before after : List Layout) :
    ((joinKept sep (before ++ l :: after)).eval c sub).Follows
      ((joinKept sep (before ++ after)).eval c sub) p := by
  induction before with
  | nil => exact hl.follows sep _
  | cons k before ih =>
    exact Run.Follows.after (k.eval c sub) fun a =>
      ih.map fun _ _ h => Sql.Coincides.rfl.beside sep h

namespace Grammar
variable {c : Context} {s : Statement} {tag : String} {w : Value}

theorem evalStatement_unlimited (c : Context) (s : Statement) :
    standard.evalStatement c s = (standard.statementLayout c s).eval c (standard.unlimited c) :=
  (congrFun (congrArg Evaluators.statement (standard_bounded.level_unlimited c)) s).symm

/-- Without one of its clauses, the others are arranged as they were. -/
theorem arranged_erase (c : Context) (hs : (Table.keys s).Nodup) (hmem : (tag, w) ∈ s) :
    ∃ before after, arranged c s = before ++ (tag, w) :: after ∧
      arranged c (Table.erase tag s) = before ++ after := by
  have hperm := arranged_perm c s
  obtain ⟨before, after, hsplit⟩ := List.append_of_mem (hperm.mem_iff.mpr hmem)
  refine ⟨before, after, hsplit, ?_⟩
  have hfilter : (arranged c s).filter (fun e => e.1 ≠ tag) = arranged c (Table.erase tag s) := by
    have herase := arranged_inOrder c (Table.nodup_keys_erase (k := tag) hs)
    rw [Table.erase_eq_filter hs] at herase ⊢
    exact ((arranged_inOrder c hs).filter _).unique herase (.refl _) rfl
  have hkeys : ((before ++ (tag, w) :: after).map Prod.fst).Nodup :=
    hsplit ▸ (hperm.map Prod.fst).nodup_iff.mpr hs
  rw [List.map_append, List.map_cons, List.nodup_middle, ← List.map_append] at hkeys
  have hothers : ∀ e ∈ before ++ after, e.1 ≠ tag := by
    intro e he hkey
    have htag : e.1 ∈ (before ++ after).map Prod.fst := List.mem_map_of_mem he
    exact (List.nodup_cons.mp hkeys).1 (hkey ▸ htag)
  rw [← hfilter, hsplit, List.filter_append, List.filter_cons_of_neg (by simp),
    ← List.filter_append]
  exact List.filter_eq_self.mpr fun e he => by simpa using hothers e he

/-- No other clause looks at a condition. -/
theorem clauseLayout?_erase (htag : tag = "where" ∨ tag = "having") (e : String × Value) :
    standard.clauseLayout? s e.1 e.2 = standard.clauseLayout? (Table.erase tag s) e.1 e.2 :=
  clauseLayout?_congr (fun _ hk => (get?_erase_condition htag (.inl hk)).symm) e.1 e.2

/-- **A statement with a vacuous condition is written as without it**, unless an empty list stands
in the condition. -/
theorem evalStatement_follows (htag : tag = "where" ∨ tag = "having") (hw : Vacuous w)
    (hs : (Table.keys s).Nodup) (hmem : (tag, w) ∈ s) (c : Context) :
    (standard.evalStatement c s).Follows (standard.evalStatement c (Table.erase tag s))
      (w.Reaches (.seq [])) := by
  let layout? (e : String × Value) := standard.clauseLayout? (Table.erase tag s) e.1 e.2
  have hlayouts : (fun e : String × Value => standard.clauseLayout? s e.1 e.2) = layout? :=
    funext (clauseLayout?_erase htag)
  have hclause : layout? (tag, w) =
      some (.within tag (Clause.condition tag w (Table.erase tag s))) := by
    simp only [layout?, clauseLayout?, rule?_condition htag, Option.map_some]
  obtain ⟨before, after, hsplit, herase⟩ := arranged_erase c hs hmem
  rw [evalStatement_unlimited, evalStatement_unlimited, statementLayout, statementLayout, hsplit,
    herase, hlayouts, List.filterMap_append, List.filterMap_append,
    List.filterMap_cons_some hclause]
  have hvanishes := vanishes_condition (c := c) hw (fun _ => rfl) tag (Table.erase tag s)
  exact Layout.follows_joinKept (Layout.vanishes_within tag hvanishes) " " _ _

end Grammar

/-! ### The linter without the clause -/

namespace Lint
variable {level : LintLevel} {params : Table Value} {s : Statement} {tag : String} {w : Value}

theorem value?_of_vacuous (hw : Vacuous w) : value? level params w = none := by
  induction hw with
  | null => rfl
  | nil => rfl
  | @connective op args hop _ ih =>
    have hmembership : membership? level params (.ident op :: args) = none := by
      have hin : Text.lower "in" = "in" := by decide +kernel
      have hnotIn : Text.lower "not-in" = "not-in" := by decide +kernel
      unfold membership?
      split
      · rename_i heq
        cases heq
        rcases hop with hop | hop <;> simp [Value.isWord, Text.sameWord, hop, hin, hnotIn]
      · rfl
    rw [Value.call, value?, hmembership, Option.none_or, items?_eq_none_iff]
    exact List.forall_mem_cons.mpr ⟨rfl, ih⟩

/-- Clauses in which nothing is found make no difference to what is found in the others. -/
theorem entries?_filter (kept : String × Value → Bool)
    (h : ∀ e ∈ s, kept e = false →
      emptySelection? e.1 e.2 = none ∧ value? level params e.2 = none) :
    entries? level params (s.filter kept) = entries? level params s := by
  induction s with
  | nil => rfl
  | cons e s ih =>
    obtain ⟨he, hs⟩ := List.forall_mem_cons.mp h
    cases hkept : kept e with
    | true => rw [List.filter_cons_of_pos hkept, entries?, entries?, ih hs]
    | false =>
      obtain ⟨hselection, hvalue⟩ := he hkept
      rw [List.filter_cons_of_neg (by simp [hkept]), ih hs, entries?, hselection, hvalue]
      rfl

section Erase
variable (htag : tag = "where" ∨ tag = "having") (hw : isVacuous w = true)
  (hs : (Table.keys s).Nodup) (hget : Table.get? tag s = some w)
include htag hw hs hget

theorem hasCondition_erase : hasCondition (Table.erase tag s) = hasCondition s := by
  have htagOf : Statement.tagOf "where" = "where" := by decide +kernel
  unfold hasCondition Statement.get?
  rw [htagOf]
  rcases htag with rfl | rfl
  · simp only [Table.get?_erase_self hs, hget, hw, Bool.not_true]
  · rw [Table.get?_erase_of_ne (by decide)]

theorem unguarded?_erase : unguarded? (Table.erase tag s) = unguarded? s := by
  have hguarded : guardedTags.findSome? (fun k => Statement.get? (Table.erase tag s) k) =
      guardedTags.findSome? fun k => s.get? k := by
    rw [← List.head?_filterMap, ← List.head?_filterMap,
      List.filterMap_congr fun k hk => get?_erase_condition htag (.inr hk)]
  unfold unguarded?
  rw [hasCondition_erase htag hw hs hget, hguarded]

theorem entries?_erase :
    entries? level params (Table.erase tag s) = entries? level params s := by
  rw [Table.erase_eq_filter hs]
  refine entries?_filter _ fun e he hdropped => ?_
  obtain rfl : e.1 = tag := by simpa using hdropped
  obtain rfl : e.2 = w := by
    rw [Table.get?_of_mem hs he] at hget
    exact Option.some.inj hget
  refine ⟨?_, value?_of_vacuous (vacuous_of_isVacuous hw)⟩
  rcases htag with htag | htag <;> simp [emptySelection?, htag]

/-- **The linter takes a vacuous condition for none.** -/
theorem check_erase (level : LintLevel) (params : Table Value) :
    check level (Table.erase tag s) params = check level s params := by
  have hvalue : value? level params (.map (Table.erase tag s)) = value? level params (.map s) := by
    rw [value?, value?, unguarded?_erase htag hw hs hget, entries?_erase htag hw hs hget]
  cases level with
  | off => rfl
  | _ => simp only [check, hvalue]

end Erase

end Lint

/-! ### Formatting -/

namespace Grammar

/-- The outcome is that of another request, unless `refused` holds: then it is the refusal of an
empty list, or a refusal that the other request meets with as well. -/
def SameUnless {α : Type} (refused : Prop) (x y : Except Fault α) : Prop :=
  (¬ refused ∧ x = y) ∨
    refused ∧ (x = .error (.malformed .emptyExpression (.seq [])) ∨
      ∃ e, x = .error e ∧ y = .error e)

theorem sameUnless_error {α : Type} (p : Prop) (e : Fault) :
    SameUnless p (.error e : Except Fault α) (.error e) := by
  by_cases hp : p
  · exact .inr ⟨hp, .inr ⟨e, rfl, rfl⟩⟩
  · exact .inl ⟨hp, rfl⟩

theorem SameUnless.bind {α β : Type} {p : Prop} {x y : Except Fault α} (h : SameUnless p x y)
    (f : α → Except Fault β) : SameUnless p (x.bind f) (y.bind f) := by
  rcases h with ⟨hp, rfl⟩ | ⟨hp, rfl | ⟨e, rfl, rfl⟩⟩
  · exact .inl ⟨hp, rfl⟩
  · exact .inr ⟨hp, .inl rfl⟩
  · exact .inr ⟨hp, .inr ⟨e, rfl, rfl⟩⟩

theorem keep_of_follows {x y : Run Sql} {p : Prop} (h : x.Follows y p) (o : Options) :
    SameUnless p (keep o x) (keep o y) := by
  rcases h {} with ⟨hp, hsame⟩ | ⟨hp, ⟨t, hx⟩ | ⟨e, t, hx, hy⟩⟩
  · exact .inl ⟨hp, keep_eq_of_sameOutcome o hsame⟩
  · refine .inr ⟨hp, .inl ?_⟩
    simp only [keep, ExceptT.run, hx]
  · refine .inr ⟨hp, .inr ⟨e, ?_, ?_⟩⟩
    · simp only [keep, ExceptT.run, hx]
    · simp only [keep, ExceptT.run, hy]

/-- Statements that are checked alike are formatted as they are evaluated. -/
theorem format_of_follows {g : Grammar} {s t : Statement} {o : Options} {p : Prop}
    (hcheck : Lint.check o.checking s o.params = Lint.check o.checking t o.params)
    (h : ∀ c, (g.evalStatement c s).Follows (g.evalStatement c t) p) :
    SameUnless p (g.format s o) (g.format t o) := by
  have hadmissible : g.admissible s o = g.admissible t o := by
    rw [admissible, admissible, hcheck]
  have hformat (u : Statement) : g.format u o = (g.admissible u o).bind fun d =>
      (keep o (g.evalStatement (g.context o d false) u)).bind (finish o) := rfl
  rw [hformat, hformat, hadmissible]
  cases g.admissible t o with
  | error e => exact sameUnless_error p e
  | ok d => exact (keep_of_follows (h (g.context o d false)) o).bind (finish o)

/-- **What the linter takes for no condition is written as none.**  The rule of `where` and `having`
gives no text for a vacuous condition, in every context and session and at every depth that covers
the condition, and leaves the session as it was, so that no parameter is bound; if an empty list
stands in the condition, it is refused as malformed instead.  A statement with such a clause is
therefore checked and formatted as without it; with an empty list in the condition it is refused as
malformed, or for what is refused without the clause as well. -/
theorem vacuous_condition_unwritten {tag : String} (htag : tag = "where" ∨ tag = "having")
    {w : Value} (hw : isVacuous w = true) :
    (∃ rule, standard.clauses.rule? tag = some rule ∧
      ∀ (statement : Statement) (c : Context) (extra : Nat) (s : Session),
        (¬ w.Reaches (.seq []) ∧ ∃ sql,
          (rule tag w statement).eval c (standard.evaluators c (w.weight + extra)) s =
            (.ok sql, s) ∧ ∀ p, sql.render p = "") ∨
        w.Reaches (.seq []) ∧
          (rule tag w statement).eval c (standard.evaluators c (w.weight + extra)) s =
            (.error (.malformed .emptyExpression (.seq [])), s)) ∧
    ∀ (s : Statement) (o : Options), s.tags.Nodup → s.get? tag = some w →
      (¬ w.Reaches (.seq []) ∧ standard.format s o = standard.format (s.remove tag) o) ∨
      w.Reaches (.seq []) ∧
        (standard.format s o = .error (.malformed .emptyExpression (.seq [])) ∨
          ∃ e, standard.format s o = .error e ∧ standard.format (s.remove tag) o = .error e) := by
  have hvacuous := vacuous_of_isVacuous hw
  refine ⟨⟨Clause.condition, rule?_condition htag, fun statement c extra s => ?_⟩,
    fun s o hs hget => ?_⟩
  · have hcovers : (standard.unlimited c).SameOn (standard.evaluators c (w.weight + extra))
        (.expr w) := standard_bounded.sameOn_evaluators c (Nat.le_add_right _ _)
    refine (vanishes_condition hvacuous hcovers tag statement s).imp_left ?_
    rintro ⟨hnone, sql, hrun, hempty⟩
    exact ⟨hnone, sql, hrun, fun p => (Sql.isEmpty_iff_render p sql).mp hempty⟩
  · have htagOf : Statement.tagOf tag = tag := by
      rcases htag with rfl | rfl <;> decide +kernel
    rw [Statement.get?, htagOf] at hget
    rw [Statement.remove, htagOf]
    exact format_of_follows (Lint.check_erase htag hw hs hget _ _).symm
      (evalStatement_follows htag hvacuous hs (Table.mem_of_get? hget))

/-- Connectives over nulls and over such connectives are left out, in a session that has bound
something already and in a statement; with an empty list below them, the statement is refused. -/
theorem vacuous_condition_unwritten_nested :
    let w : Value := .call "AND" [.null, .call "or" [.null, .call "and" []], .call "and" [.null]]
    let bad : Value := .call "or" [.null, .call "and" [.null, .seq []]]
    let c : Context := standard.context { numbered := true } .ansi true
    let before : Session := ⟨[.literal (.int 1)], { aliasPosition := true, nested := true }⟩
    isVacuous w = true ∧ isVacuous bad = true ∧
      (∃ sql,
        (Clause.condition "having" w []).eval c (standard.evaluators c (w.weight + 0)) before =
        (.ok sql, before) ∧ sql.render .numbered = "") ∧
      standard.format [("select", .ident "a"), ("having", w)] {} = .ok ⟨"SELECT a", []⟩ ∧
      standard.format [("select", .ident "a"), ("where", bad)] {} =
        .error (.malformed .emptyExpression (.seq [])) := by
  intro w bad c before
  have hand : Text.lower "and" = "and" := by decide +kernel
  have hupper : Text.lower "AND" = "and" := by decide +kernel
  have hw : isVacuous w = true := by
    simp [w, Value.call, isVacuous, allVacuous, Value.isWord, Text.sameWord, hand, hupper]
  have hbad : isVacuous bad = true := by
    simp [bad, Value.call, isVacuous, allVacuous, Value.isWord, Text.sameWord]
  have hnone : ¬ w.Reaches (.seq []) := by
    simp [w, reaches_nil_call_iff, mem_operands]
  have hlist : bad.Reaches (.seq []) :=
    .item (v := .call "and" [.null, .seq []]) (by simp) (.item (v := .seq []) (by simp) (.self _))
  have hplain : standard.format [("select", .ident "a")] {} = .ok ⟨"SELECT a", []⟩ := by
    have hkeep : keep {} (standard.evalStatement (standard.context {} .ansi false)
        [("select", .ident "a")]) = .ok ⟨"SELECT a", []⟩ := by
      decide +kernel
    rw [format_default, hkeep]
    rfl
  have hhaving : "having" = "where" ∨ "having" = "having" := .inr rfl
  have hwhere : "where" = "where" ∨ "where" = "having" := .inl rfl
  obtain ⟨⟨rule, hrule, hclause⟩, hwritten⟩ := vacuous_condition_unwritten hhaving hw
  obtain ⟨-, hrefused⟩ := vacuous_condition_unwritten hwhere hbad
  cases hrule
  refine ⟨hw, hbad, ?_, ?_, ?_⟩
  · rcases hclause [] c 0 before with ⟨-, sql, hrun, hempty⟩ | ⟨hreaches, -⟩
    · exact ⟨sql, hrun, hempty .numbered⟩
    · exact absurd hreaches hnone
  · rcases hwritten [("select", .ident "a"), ("having", w)] {} (by decide) rfl with
      ⟨-, hsame⟩ | ⟨hreaches, -⟩
    · exact hsame.trans hplain
    · exact absurd hreaches hnone
  · rcases hrefused [("select", .ident "a"), ("where", bad)] {} (by decide) rfl with
      ⟨hnot, -⟩ | ⟨-, herror | ⟨e, -, hother⟩⟩
    · exact absurd hlist hnot
    · exact herror
    · cases hplain.symm.trans hother

end Grammar
end Clausal
