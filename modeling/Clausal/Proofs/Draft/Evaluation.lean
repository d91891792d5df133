import Clausal.Evaluate
import Clausal.Proofs.Draft.Basic
import Clausal.Proofs.Draft.Plain

/-! # Evaluation goes through drafts

A plain layout has a draft that depends on the names, the clause order and the
default columns of the context, its `Shape`, and on nothing else of it: not on the
values of parameters, nor on whether they are numbered, written into the text or
kept by name.

`Layout.yields_draft` says that evaluating a plain layout is settling its draft,
in every session.  It is an induction on the layout, and for a whole grammar an
induction on the depth (`Grammar.Plain.follow`).  The draft decides by itself which
parts are empty, so a parameter that becomes empty text must be excluded: this is
`Draft.Solid`, which holds of every draft unless values are written into the text.
-/
namespace Clausal

/-- What the wording of SQL depends on, besides the values of parameters. -/
structure Shape where
  style : NameStyle
  order : List String
  isDefault : String → Bool

/-- The shape of a context. -/
def Context.shape (c : Context) : Shape :=
  ⟨c.style, c.order, fun column => c.defaultColumns.contains column⟩

/-- A context of the shape, in which nothing is bound by name. -/
def Shape.context (σ : Shape) : Context := { style := σ.style, order := σ.order }

/-- Drafts of the values inside a layout, at a marker. -/
structure Drafters where
  expr : Marker → Bool → Value → Draft
  statement : Marker → Statement → Draft

/-- The draft of a layout.  What looks at the session or changes it has none. -/
def Layout.draft (σ : Shape) (sub : Drafters) (m : Marker) : Layout → Draft
  | .text s => [.text s]
  | .fail complaint fragment => [.fault (.malformed complaint fragment)]
  | .entity name => [.text (σ.style.entity name)]
  | .aliasName name => [.text (σ.style.aliasText name)]
  | .aliasMark => [.text (if σ.style.dialect.aliasKeyword then " AS " else " ")]
  | .missing column => [.text (if σ.isDefault column then "DEFAULT" else "NULL")]
  | .value v => [.value v]
  | .named name => [.named name]
  | .namedList name => [.namedList name]
  | .literal v =>
    match v.literal with
    | .ok s => [.text s]
    | .error e => [.fault e]
  | .expr .top v => sub.expr m false v
  | .expr .nested v => sub.expr m true v
  | .expr .same v => sub.expr m m.nested v
  | .aliased v => sub.expr { m with aliasPosition := true } false v
  | .statement s => sub.statement m s
  | .append a b => a.draft σ sub m ++ b.draft σ sub m
  | .beside sep a b => Draft.beside sep (a.draft σ sub m) (b.draft σ sub m)
  | .lead s body => Draft.lead s (body.draft σ sub m)
  | .wrap body => Draft.wrap m.nested (body.draft σ sub m)
  | .within tag body => body.draft σ sub { m with clause := some tag, aliasPosition := false }
  | .observe _ => []
  | .bind _ => []
  | .setAlias _ => []

namespace Run

/-- At the marker, in whatever session, the run gives the outcome and leaves the
marker alone. -/
def Yields (x : Run Sql) (m : Marker) : Except Fault Settled → Prop
  | .ok r => ∀ bound, x ⟨bound, m⟩ = (.ok (r.sql bound.length), ⟨bound ++ r.slots, m⟩)
  | .error e => ∀ bound, ∃ bound', x ⟨bound, m⟩ = (.error e, ⟨bound', m⟩)

variable {α β : Type} {x : Run α} {s t : Session}

theorem bind_ok {a : α} (h : x s = (.ok a, t)) (f : α → Run β) : (x >>= f) s = f a t := by
  simp [Bind.bind, ExceptT.bind, ExceptT.mk, StateT.bind, h, ExceptT.bindCont]

theorem bind_error {e : Fault} (h : x s = (.error e, t)) (f : α → Run β) :
    (x >>= f) s = (.error e, t) := by
  simp [Bind.bind, ExceptT.bind, ExceptT.mk, StateT.bind, h, ExceptT.bindCont]
  rfl

variable {y : Run Sql} {m : Marker} {p q : Except Fault Settled}

theorem Yields.of_eq {x : Run Sql} (hx : Yields x m p)
    (h : ∀ bound, y ⟨bound, m⟩ = x ⟨bound, m⟩) : Yields y m p := by
  cases p with
  | error e =>
    intro bound
    rw [h bound]
    exact hx bound
  | ok r =>
    intro bound
    rw [h bound]
    exact hx bound

/-- SQL that binds nothing. -/
theorem yields_pure (m : Marker) {sql : Sql} {r : Settled} (hslots : r.slots = [])
    (hsql : ∀ k, r.sql k = sql) : Yields (pure sql) m (.ok r) := by
  intro bound
  rw [hslots, hsql, List.append_nil]
  rfl

theorem yields_text (m : Marker) (s : String) :
    Yields (pure (Sql.ofText s)) m (.ok [.text s]) :=
  yields_pure m rfl fun _ => rfl

theorem yields_throw (m : Marker) (e : Fault) : Yields (throw e) m (.error e) :=
  fun bound => ⟨bound, rfl⟩

/-- Two runs one after the other, put together by `f` on the SQL and by `g` on the
settled text. -/
theorem Yields.both {x y : Run Sql} {f : Sql → Sql → Sql} {g : Settled → Settled → Settled}
    (hx : Yields x m p) (hy : Yields y m q)
    (hslots : ∀ a b, (g a b).slots = a.slots ++ b.slots)
    (hsql : ∀ k a b, (g a b).sql k = f (a.sql k) (b.sql (k + a.slots.length))) :
    Yields (do let a ← x; let b ← y; return f a b) m (do return g (← p) (← q)) := by
  cases p with
  | error e =>
    intro bound
    obtain ⟨bound', h⟩ := hx bound
    exact ⟨bound', bind_error h _⟩
  | ok a =>
    cases q with
    | error e =>
      intro bound
      obtain ⟨bound', h⟩ := hy (bound ++ a.slots)
      exact ⟨bound', by rw [bind_ok (hx bound), bind_error h]⟩
    | ok b =>
      intro bound
      rw [bind_ok (hx bound), bind_ok (hy (bound ++ a.slots)), hslots, hsql, List.length_append,
        ← List.append_assoc]
      rfl

/-- A run whose SQL is changed by `f`, which may depend on the marker, and its
settled text by `g`. -/
theorem Yields.after {x : Run Sql} {f : Sql → Sql} {g : Settled → Settled} {next : Sql → Run Sql}
    (hx : Yields x m p) (hnext : ∀ a bound, next a ⟨bound, m⟩ = (.ok (f a), ⟨bound, m⟩))
    (hslots : ∀ a, (g a).slots = a.slots) (hsql : ∀ k a, (g a).sql k = f (a.sql k)) :
    Yields (x >>= next) m (p.map g) := by
  cases p with
  | error e =>
    intro bound
    obtain ⟨bound', h⟩ := hx bound
    exact ⟨bound', bind_error h _⟩
  | ok a =>
    intro bound
    rw [bind_ok (hx bound), hnext, hslots, hsql]

theorem yields_under {body : Run Sql} {change : Marker → Marker} (h : Yields body (change m) p) :
    Yields (under change body) m p := by
  cases p with
  | error e =>
    intro bound
    obtain ⟨bound', hb⟩ := h bound
    refine ⟨bound', ?_⟩
    simp [under, ExceptT.run, hb]
  | ok r =>
    intro bound
    simp [under, ExceptT.run, h bound]

/-! ### Sending values on -/

theorem yields_literal (m : Marker) (text : Except Fault String) :
    Yields (ofLiteral text) m (text.map fun s => [.text s]) := by
  cases text with
  | error e => exact fun bound => ⟨bound, rfl⟩
  | ok s => exact yields_text m s

theorem yields_value (c : Context) (m : Marker) (v : Value) :
    Yields (value c v) m (Token.send c v) := by
  unfold value Token.send
  split
  · exact yields_literal m v.literal
  · intro bound
    rfl

theorem yields_values (c : Context) (m : Marker) (vs : List Value) :
    Yields (values c vs) m (Token.sendAll c vs) := by
  fun_induction values c vs with
  | case1 => exact yields_pure m rfl fun _ => rfl
  | case2 v => exact yields_value c m v
  | case3 v vs hne ih =>
    rw [Token.sendAll_cons c v hne]
    refine Yields.both (f := fun a b => a ++ Sql.ofText ", " ++ b)
      (g := fun a b => a ++ .text ", " :: b) (yields_value c m v) ih ?_ ?_
    · intro a b
      rw [Settled.slots_append, Settled.slots_text_cons]
    · intro k a b
      rw [Settled.sql_append, Settled.sql_text_cons, List.append_assoc]

/-- The value of a name, and then a run that depends on it. -/
theorem yields_lookup (c : Context) (m : Marker) (name : String) {f : Value → Run Sql}
    {g : Value → Except Fault Settled} (h : ∀ v, Yields (f v) m (g v)) :
    Yields (lookup c name >>= f) m ((Token.lookup c name).bind g) := by
  unfold lookup Token.lookup
  cases Table.get? name c.params with
  | none => exact fun bound => ⟨bound, rfl⟩
  | some v => exact h v

theorem yields_named (c : Context) (m : Marker) (name : String) :
    Yields (named c name) m ((Token.named name).settle c) := by
  unfold named Token.settle
  cases hi : c.inline with
  | true =>
    simp only [if_true, Bool.not_true, Bool.and_false, Bool.false_eq_true, if_false]
    refine yields_lookup c m name fun v => ?_
    simpa [Token.send, hi] using yields_literal m v.literal
  | false =>
    simp only [Bool.false_eq_true, if_false, Bool.not_false, Bool.and_true]
    split
    · intro bound
      rfl
    · refine yields_lookup c m name fun v => ?_
      simpa [value, hi] using yields_value c m v

theorem Yields.parens {x : Run Sql} (hx : Yields x m p) :
    Yields (do return (← x).parens) m (p.map Settled.parens) :=
  hx.after (fun _ _ => rfl) Settled.slots_parens Settled.sql_parens

/-- A value that is no list is written as a list of itself. -/
theorem yields_namedList (c : Context) (m : Marker) (name : String) :
    Yields (namedList c name) m ((Token.namedList name).settle c) := by
  have hnamed := yields_named c m name
  rw [Token.settle] at hnamed
  rw [namedList, Token.settle]
  cases hc : c.caching with
  | true => exact yields_throw m _
  | false =>
    rw [hc] at hnamed
    unfold lookup
    unfold Token.lookup at hnamed ⊢
    cases hg : Table.get? name c.params with
    | none => exact fun bound => ⟨bound, rfl⟩
    | some v =>
      rw [hg] at hnamed
      -- What is looked up is known from here on, so the second look-up of the run agrees.
      cases v with
      | seq items => exact (yields_values c m items).parens
      | _ => exact hnamed.parens

end Run

/-! ### Layouts -/

/-- Evaluators do what drafters say, wherever no parameter becomes empty text. -/
structure Evaluators.Follow (c : Context) (sub : Evaluators) (drafts : Drafters) : Prop where
  expr : ∀ m nested v, Draft.Solid c (drafts.expr m nested v) →
    Run.Yields (sub.expr nested v) m (Draft.settle c (drafts.expr m nested v))
  statement : ∀ m s, Draft.Solid c (drafts.statement m s) →
    Run.Yields (sub.statement s) m (Draft.settle c (drafts.statement m s))

open Run in
/-- **Evaluating a plain layout is settling its draft.** -/
theorem Layout.yields_draft {c : Context} {sub : Evaluators} {drafts : Drafters}
    (hsub : sub.Follow c drafts) (l : Layout) (hl : l.Plain) (m : Marker)
    (hd : Draft.Solid c (l.draft c.shape drafts m)) :
    Yields (l.eval c sub) m (Draft.settle c (l.draft c.shape drafts m)) := by
  -- On the layout, at every marker: `within` and `aliased` change it for what is inside.
  induction l generalizing m with
  | text s => exact yields_text m s
  | fail complaint fragment => exact yields_throw m _
  | entity name => exact yields_text m _
  | aliasName name => exact yields_text m _
  | aliasMark => exact yields_text m _
  | missing column => exact yields_text m _
  | value v =>
    rw [draft, Draft.settle_singleton]
    exact yields_value c m v
  | named name =>
    rw [draft, Draft.settle_singleton]
    exact yields_named c m name
  | namedList name =>
    rw [draft, Draft.settle_singleton]
    exact yields_namedList c m name
  | literal v =>
    rw [draft, eval]
    cases v.literal with
    | error e => exact yields_literal m (.error e)
    | ok s => exact yields_literal m (.ok s)
  | expr nesting v =>
    cases nesting with
    | top => exact hsub.expr m false v hd
    | nested => exact hsub.expr m true v hd
    | same => exact hsub.expr m m.nested v hd
  | aliased v => exact yields_under (hsub.expr _ false v hd)
  | statement s => exact hsub.statement m s hd
  | append a b iha ihb =>
    obtain ⟨ha, hb⟩ := Draft.solid_append.mp hd
    rw [draft, Draft.settle_append]
    exact (iha hl.1 m ha).both (ihb hl.2 m hb) Settled.slots_append Settled.sql_append
  | beside sep a b iha ihb =>
    obtain ⟨ha, hb⟩ := Draft.solid_of_beside hd
    rw [draft, Draft.settle_beside sep ha hb]
    exact (iha hl.1 m ha).both (ihb hl.2 m hb) (Settled.slots_beside sep)
      (fun k => Settled.sql_beside k sep)
  | lead s body ih =>
    have hb := Draft.solid_of_lead hd
    rw [draft, Draft.settle_lead s hb]
    exact (ih hl m hb).after (fun _ _ => rfl) (Settled.slots_lead s)
      (fun k => Settled.sql_lead k s)
  | wrap body ih =>
    have hb := Draft.solid_of_wrap hd
    rw [draft, Draft.settle_wrap m.nested hb]
    exact (ih hl m hb).after
      (f := fun sql => if m.nested && !sql.isEmpty then sql.parens else sql) (fun _ _ => rfl)
      (Settled.slots_wrap m.nested) (fun k => Settled.sql_wrap k m.nested)
  | within tag body ih => exact yields_under (ih hl _ hd)
  | observe read => exact hl.elim
  | bind name => exact hl.elim
  | setAlias on => exact hl.elim

/-! ### Grammars -/

namespace Grammar

/-- Drafts that go at most `depth` levels deep. -/
def drafters (g : Grammar) (σ : Shape) : Nat → Drafters
  | 0 => ⟨fun _ _ _ => [.fault .endless], fun _ _ => [.fault .endless]⟩
  | depth + 1 =>
    let sub := g.drafters σ depth
    { expr := fun m nested v =>
        (g.exprLayout m.aliasPosition v).draft σ sub
          { m with aliasPosition := false, nested := nested }
      statement := fun m s => (g.statementLayout σ.context s).draft σ sub m }

/-- The draft of an expression. -/
def draftExpr (g : Grammar) (σ : Shape) (v : Value) : Draft :=
  (g.drafters σ (v.weight + spareDepth)).expr {} false v

/-- The draft of a statement. -/
def draftStatement (g : Grammar) (σ : Shape) (s : Statement) : Draft :=
  (g.drafters σ ((Value.map s).weight + spareDepth)).statement {} s

/-- A statement of one clause is laid out as its clause. -/
theorem statementLayout_single {g : Grammar} {tag : String} {rule : ClauseRule} {v : Value}
    (h : g.clauses.rule? tag = some rule) (c : Context) :
    g.statementLayout c [(tag, v)] = .beside " " (.within tag (rule tag v [(tag, v)])) .empty := by
  simp [statementLayout, arranged, clauseLayout?, h, Layout.joinKept]

/-- A statement of one clause is drafted as the rule of the clause lays it out. -/
theorem draftStatement_single {g : Grammar} {tag : String} {rule : ClauseRule} {v : Value}
    (h : g.clauses.rule? tag = some rule) (σ : Shape) :
    g.draftStatement σ [(tag, v)] =
      Draft.beside " " ((rule tag v [(tag, v)]).draft σ
        (g.drafters σ (v.weight + 1 + spareDepth)) { clause := some tag }) [.text ""] := by
  have hweight : (Value.map [(tag, v)]).weight + spareDepth = v.weight + 1 + spareDepth + 1 := by
    simp [Value.weight, Value.weightEntries]
    omega
  rw [draftStatement, hweight, drafters]
  dsimp only
  rw [statementLayout_single h]
  rfl

variable {g : Grammar}

open Run in
/-- **Evaluators follow the drafters of the same depth**, under a plain grammar. -/
theorem Plain.follow (hg : g.Plain) (c : Context) (depth : Nat) :
    (g.evaluators c depth).Follow c (g.drafters c.shape depth) := by
  induction depth with
  | zero => exact ⟨fun m _ _ _ => yields_throw m _, fun m _ _ => yields_throw m _⟩
  | succ depth ih =>
    -- One level deeper is one layout, with the evaluators of the level before inside it.
    constructor
    · intro m nested v hd
      have hl := Layout.yields_draft ih _ (hg.exprLayout m.aliasPosition v) _ hd
      have hu : Yields
          (under (fun m => { m with aliasPosition := false, nested := nested })
            ((g.exprLayout m.aliasPosition v).eval c (g.evaluators c depth))) m _ :=
        yields_under hl
      exact hu.of_eq fun _ => rfl
    · intro m s hd
      exact Layout.yields_draft ih _ (hg.statementLayout c s) m hd

theorem Plain.yields_evalExpr (hg : g.Plain) (c : Context) (v : Value)
    (h : Draft.Solid c (g.draftExpr c.shape v)) :
    (g.evalExpr c v).Yields {} (Draft.settle c (g.draftExpr c.shape v)) :=
  (hg.follow c _).expr {} false v h

theorem Plain.yields_evalStatement (hg : g.Plain) (c : Context) (s : Statement)
    (h : Draft.Solid c (g.draftStatement c.shape s)) :
    (g.evalStatement c s).Yields {} (Draft.settle c (g.draftStatement c.shape s)) :=
  (hg.follow c _).statement {} s h

end Grammar
end Clausal
