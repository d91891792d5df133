import Clausal.Proofs.Places.Statements

/-! # Rewriting expressions in their places

`Rewritten` goes through the places where the standard grammar writes expressions: operands,
arguments, items, conditions, rows and so on, at any depth, and any number of them at once.  What is
rewritten with related expressions stands for what it was (`Grammar.Rewritten.stands`).  Statements
rewritten with interchangeable expressions are therefore formatted alike, if both pass the linter
(`Grammar.format_eq_of_rewritten`).
-/
namespace Clausal.Grammar

/-- The kinds of places that hold expressions. -/
inductive Place
  | expr
  /-- Where an alias may stand. -/
  | item
  /-- In the order of rows. -/
  | order
  /-- What a join is on. -/
  | on
  /-- A row given as a list. -/
  | row
  /-- A common table. -/
  | binding
  | clause (tag : String)

mutual

/-- The second value is the first one with related expressions put in their places. -/
inductive Rewritten (R : Value → Value → Prop) : Place → Value → Value → Prop
  | same (p : Place) (v : Value) : Rewritten R p v v
  | here {op : String} {as bs : List Value} (h : R (.call op as) (.call op bs)) :
      Rewritten R .expr (.call op as) (.call op bs)
  -- Expressions.
  | operator {op : String} {as bs : List Value} {p : OperatorPolicy}
      (hp : Table.get? (Text.lower op) OperatorPolicy.builtin = some p)
      (h : RewrittenAll R .expr as bs)
      (hcount : p.takes (p.operands as).length = true ∨ p.ignoreNull = true ∧ p.operands as = []) :
      Rewritten R .expr (.call op as) (.call op bs)
  | form {op : String} {as bs : List Value} {rule : FormRule}
      (hform : standard.form? (Text.lower op) = some rule) (hop : Text.lower op ∈ Form.wholly)
      (h : RewrittenAll R .expr as bs)
      (htaken : ∀ complaint v, rule (Text.lower op) as ≠ .fail complaint v) :
      Rewritten R .expr (.call op as) (.call op bs)
  | first {op : String} {v w : Value} {args : List Value} {rule : FormRule}
      (hform : standard.form? (Text.lower op) = some rule) (hop : Text.lower op ∈ Form.leading)
      (h : Rewritten R .expr v w)
      (htaken : ∀ complaint u, rule (Text.lower op) (v :: args) ≠ .fail complaint u) :
      Rewritten R .expr (.call op (v :: args)) (.call op (w :: args))
  | arguments {op : String} {as bs : List Value} (hop : ∀ args, standard.headed? op args = none)
      (h : RewrittenAll R .expr as bs) : Rewritten R .expr (.call op as) (.call op bs)
  | array {op : String} {as bs : List Value} (hop : Text.lower op = "array")
      (h : RewrittenAll R .expr as bs) :
      Rewritten R .expr (.call op [.seq as]) (.call op [.seq bs])
  | candidates {op : String} {v w : Value} {as bs : List Value}
      (hop : Text.lower op ∈ ["in", "not-in"]) (h : Rewritten R .expr v w)
      (hlist : RewrittenAll R .expr as bs) (has : (Value.seq as).paramRef? = none)
      (hbs : (Value.seq bs).paramRef? = none) :
      Rewritten R .expr (.call op [v, .seq as]) (.call op [w, .seq bs])
  | subquery {op : String} {v w : Value} {s t : Statement}
      (hop : Text.lower op ∈ ["in", "not-in"]) (h : Rewritten R .expr v w)
      (hst : Rewritten R .expr (.map s) (.map t)) :
      Rewritten R .expr (.call op [v, .map s]) (.call op [w, .map t])
  | windowed {op : String} {v w : Value} {s t : Statement} (hop : Text.lower op = "over")
      (h : Rewritten R .expr v w) (hst : Rewritten R .expr (.map s) (.map t)) :
      Rewritten R .expr (.call op [v, .map s]) (.call op [w, .map t])
  | statement {s t : Statement} (h : RewrittenClauses R s t)
      (hnames : ∀ k ∈ ["modifiers", "columns"], s.get? k = t.get? k) :
      Rewritten R .expr (.map s) (.map t)
  -- What clauses list.
  | aliased {v w : Value} (h : Rewritten R .expr v w) (name : Value) :
      Rewritten R .item (.seq [v, name]) (.seq [w, name])
  | plain {v w : Value} (h : Rewritten R .expr v w)
      (hhead : ∀ op args, v = .call op args → (standard.headed? op args).isSome = true) :
      Rewritten R .item v w
  | directed {v w : Value} (h : Rewritten R .expr v w) (direction : String) :
      Rewritten R .order (.seq [v, .ident direction]) (.seq [w, .ident direction])
  | on {v w : Value} (h : Rewritten R .expr v w)
      (hon : ∀ head rest, v = .seq (head :: rest) → head.isWord "using" = false) :
      Rewritten R .on v w
  | row {as bs : List Value} (h : RewrittenAll R .expr as bs) :
      Rewritten R .row (.seq as) (.seq bs)
  | binding (name : Value) {v w : Value} (h : Rewritten R .expr v w) :
      Rewritten R .binding (.seq [name, v]) (.seq [name, w])
  -- Clauses.
  | condition {tag : String} {v w : Value}
      (hrule : standard.clauses.rule? tag = some Clause.condition) (h : Rewritten R .expr v w) :
      Rewritten R (.clause tag) v w
  | nested {tag : String} {v w : Value}
      (hrule : standard.clauses.rule? tag = some Clause.nested) (h : Rewritten R .expr v w) :
      Rewritten R (.clause tag) v w
  | limit {tag : String} {v w : Value}
      (hrule : standard.clauses.rule? tag = some Clause.limit) (h : Rewritten R .expr v w) :
      Rewritten R (.clause tag) v w
  | offset {tag : String} {v w : Value}
      (hrule : standard.clauses.rule? tag = some Clause.offset) (h : Rewritten R .expr v w) :
      Rewritten R (.clause tag) v w
  | fetch {tag : String} {v w : Value}
      (hrule : standard.clauses.rule? tag = some Clause.fetch) (h : Rewritten R .expr v w) :
      Rewritten R (.clause tag) v w
  | conflictUpdate {tag : String} {s t : Statement} {fields v w : Value}
      (hrule : standard.clauses.rule? tag = some Clause.conflictUpdate)
      (hs : s.get? "fields" = some fields) (ht : t.get? "fields" = some fields)
      (hv : s.get? "where" = some v) (hw : t.get? "where" = some w) (hfields : fields.items ≠ [])
      (h : Rewritten R .expr v w) : Rewritten R (.clause tag) (.map s) (.map t)
  | insertion {tag : String} (hrule : standard.clauses.rule? tag = some Clause.insertion)
      (target : Value) {s t : Statement} (h : Rewritten R .expr (.map s) (.map t)) :
      Rewritten R (.clause tag) (.seq [target, .map s]) (.seq [target, .map t])
  | expressions {tag : String} {as bs : List Value}
      (hrule : standard.clauses.rule? tag = some Clause.expressions)
      (h : RewrittenAll R .expr as bs) : Rewritten R (.clause tag) (.seq as) (.seq bs)
  | setOperation {tag : String} {as bs : List Value}
      (hrule : standard.clauses.rule? tag = some Clause.setOperation)
      (h : RewrittenAll R .expr as bs) : Rewritten R (.clause tag) (.seq as) (.seq bs)
  | select {tag : String} {as bs : List Value}
      (hrule : standard.clauses.rule? tag = some Clause.select)
      (h : RewrittenAll R .item as bs) : Rewritten R (.clause tag) (.seq as) (.seq bs)
  | returning {tag : String} {as bs : List Value}
      (hrule : standard.clauses.rule? tag = some Clause.returning)
      (h : RewrittenAll R .item as bs) : Rewritten R (.clause tag) (.seq as) (.seq bs)
  | sources {tag : String} {as bs : List Value} {rule : ClauseRule}
      (hrule : standard.clauses.rule? tag = some rule)
      (htables : ∃ word : Layout, ∀ payload s, rule tag payload s = word ++ .tables payload)
      (h : RewrittenAll R .item as bs) : Rewritten R (.clause tag) (.seq as) (.seq bs)
  | joins {tag : String} {as bs : List Value}
      (hrule : standard.clauses.rule? tag = some Clause.joins) (h : RewrittenJoins R as bs) :
      Rewritten R (.clause tag) (.seq as) (.seq bs)
  | bindings {tag : String} {as bs : List Value}
      (hrule : standard.clauses.rule? tag = some Clause.bindings)
      (h : RewrittenAll R .binding as bs) : Rewritten R (.clause tag) (.seq as) (.seq bs)
  | orderBy {tag : String} {as bs : List Value}
      (hrule : standard.clauses.rule? tag = some Clause.orderBy)
      (h : RewrittenAll R .order as bs) : Rewritten R (.clause tag) (.seq as) (.seq bs)
  | rows {tag : String} {as bs : List Value}
      (hrule : standard.clauses.rule? tag = some Clause.rows) (has : Clause.rowMaps? as = none)
      (hbs : Clause.rowMaps? bs = none) (h : RewrittenAll R .row as bs) :
      Rewritten R (.clause tag) (.seq as) (.seq bs)
  | mapRows {tag : String} {rows rows' : List Statement}
      (hrule : standard.clauses.rule? tag = some Clause.rows) (h : RewrittenRows R rows rows') :
      Rewritten R (.clause tag) (.seq (rows.map .map)) (.seq (rows'.map .map))
  | assignment {tag : String} {s t : Statement}
      (hrule : standard.clauses.rule? tag = some Clause.assignment)
      (h : RewrittenEntries R s t) : Rewritten R (.clause tag) (.map s) (.map t)
  | duplicateUpdate {tag : String} {s t : Statement}
      (hrule : standard.clauses.rule? tag = some Clause.duplicateUpdate)
      (h : RewrittenEntries R s t) : Rewritten R (.clause tag) (.map s) (.map t)

/-- Lists in which all values are in places of one kind. -/
inductive RewrittenAll (R : Value → Value → Prop) : Place → List Value → List Value → Prop
  | nil (p : Place) : RewrittenAll R p [] []
  | cons {p : Place} {v w : Value} {as bs : List Value} (h : Rewritten R p v w)
      (hs : RewrittenAll R p as bs) : RewrittenAll R p (v :: as) (w :: bs)

/-- Sources and conditions in turn. -/
inductive RewrittenJoins (R : Value → Value → Prop) : List Value → List Value → Prop
  | nil : RewrittenJoins R [] []
  | cons {a b v w : Value} {as bs : List Value} (hsource : Rewritten R .item a b)
      (hon : Rewritten R .on v w) (hs : RewrittenJoins R as bs) :
      RewrittenJoins R (a :: v :: as) (b :: w :: bs)

/-- Expressions under the same keys. -/
inductive RewrittenEntries (R : Value → Value → Prop) : Statement → Statement → Prop
  | nil : RewrittenEntries R [] []
  | cons (column : String) {v w : Value} {s t : Statement} (h : Rewritten R .expr v w)
      (hs : RewrittenEntries R s t) : RewrittenEntries R ((column, v) :: s) ((column, w) :: t)

/-- Rows given as maps. -/
inductive RewrittenRows (R : Value → Value → Prop) : List Statement → List Statement → Prop
  | nil : RewrittenRows R [] []
  | cons {s t : Statement} {rows rows' : List Statement} (h : RewrittenEntries R s t)
      (hs : RewrittenRows R rows rows') : RewrittenRows R (s :: rows) (t :: rows')

/-- Clauses under the same tags. -/
inductive RewrittenClauses (R : Value → Value → Prop) : Statement → Statement → Prop
  | nil : RewrittenClauses R [] []
  | cons {tag : String} {v w : Value} {s t : Statement} (h : Rewritten R (.clause tag) v w)
      (hs : RewrittenClauses R s t) : RewrittenClauses R ((tag, v) :: s) ((tag, w) :: t)

end

variable {c : Context} {R : Value → Value → Prop} {s t : Statement}

/-- What is asked of values in a place, for one to stand for the other. -/
def Place.Stands (c : Context) (R : Value → Value → Prop) : Place → Value → Value → Prop
  | .expr => StandsFor standard c R
  | .item => ItemStandsFor standard c R
  | .order => fun v w => ExchangedIn standard c R (.orderItem v) (.orderItem w)
  | .on => fun v w =>
    ExchangedIn standard c R (Clause.joinCondition v) (Clause.joinCondition w)
  | .row => fun v w => ExchangedIn standard c R (Clause.listRow v) (Clause.listRow w)
  | .binding => fun v w => ExchangedIn standard c R (Clause.binding v) (Clause.binding w)
  | .clause tag => ClauseStandsFor standard c R tag

theorem Place.stands_same (p : Place) (v : Value) : p.Stands c R v v := by
  cases p with
  | expr => exact .same v
  | item => exact .same v
  | order => exact .same _
  | on => exact .same _
  | row => exact .same _
  | binding => exact .same _
  | clause tag => exact .same tag v

mutual

/-- **What is rewritten with related expressions stands for what it was.** -/
theorem Rewritten.stands : ∀ {p : Place} {v w : Value}, Rewritten R p v w → p.Stands c R v w
  | _, _, _, .same p v => p.stands_same v
  | _, _, _, .here h => StandsFor.call (.here h)
  | _, _, _, .operator hp h hcount => StandsFor.operator hp h.stands hcount
  | _, _, _, .form hform hop h htaken => StandsFor.form hform hop h.stands htaken
  | _, _, _, .first hform hop h htaken => StandsFor.first hform hop h.stands htaken
  | _, _, _, .arguments hop h => StandsFor.arguments hop h.stands
  | _, _, _, .array hop h => StandsFor.array hop h.stands
  | _, _, _, .candidates hop h hlist has hbs =>
    StandsFor.candidates hop h.stands hlist.stands has hbs
  | _, _, _, .subquery hop h hst => StandsFor.subquery hop h.stands hst.stands
  | _, _, _, .windowed hop h hst => StandsFor.windowed hop h.stands hst.stands
  | _, _, _, .statement h hnames => StandsFor.statement (exchangedIn_of_clauses h.stands hnames)
  | _, _, _, .aliased h name => ItemStandsFor.aliased h.stands name
  | _, _, _, .plain h hhead => ItemStandsFor.plain h.stands hhead
  | _, _, _, .directed h direction => ClauseStandsFor.orderItem h.stands direction
  | _, _, _, .on h hon => ClauseStandsFor.joinCondition h.stands hon
  | _, _, _, .row h => exchangedIn_congruence.valueList h.stands
  | _, _, _, .binding name h => ClauseStandsFor.binding name h.stands
  | _, _, _, .condition hrule h => ClauseStandsFor.condition hrule h.stands
  | _, _, _, .nested hrule h => ClauseStandsFor.nested hrule h.stands
  | _, _, _, .limit hrule h => ClauseStandsFor.limit hrule h.stands
  | _, _, _, .offset hrule h => ClauseStandsFor.offset hrule h.stands
  | _, _, _, .fetch hrule h => ClauseStandsFor.fetch hrule h.stands
  | _, _, _, .conflictUpdate hrule hs ht hv hw hfields h =>
    ClauseStandsFor.conflictUpdate hrule hs ht hv hw hfields h.stands
  | _, _, _, .insertion hrule target h => ClauseStandsFor.insertion hrule target h.stands
  | _, _, _, .expressions hrule h => ClauseStandsFor.expressions hrule h.stands
  | _, _, _, .setOperation hrule h => ClauseStandsFor.setOperation hrule h.stands
  | _, _, _, .select hrule h => ClauseStandsFor.select h.stands hrule
  | _, _, _, .returning hrule h => ClauseStandsFor.returning h.stands hrule
  | _, _, _, .sources hrule htables h => ClauseStandsFor.sources h.stands hrule htables
  | _, _, _, .joins hrule h =>
    have ⟨hlength, heven, hpairs⟩ := h.stands
    ClauseStandsFor.joins hrule hlength heven hpairs
  | _, _, _, .bindings hrule h => ClauseStandsFor.bindings hrule h.stands
  | _, _, _, .orderBy hrule h => ClauseStandsFor.orderBy hrule h.stands
  | _, _, _, .rows hrule has hbs h => ClauseStandsFor.rows hrule has hbs h.stands
  | _, _, _, .mapRows hrule h => ClauseStandsFor.mapRows h.stands hrule
  | _, _, _, .assignment hrule h => ClauseStandsFor.assignment h.stands hrule
  | _, _, _, .duplicateUpdate hrule h => ClauseStandsFor.duplicateUpdate h.stands hrule

theorem RewrittenAll.stands : ∀ {p : Place} {as bs : List Value}, RewrittenAll R p as bs →
    List.Forall₂ (p.Stands c R) as bs
  | _, _, _, .nil _ => .nil
  | _, _, _, .cons h hs => .cons h.stands hs.stands

theorem RewrittenJoins.stands : ∀ {as bs : List Value}, RewrittenJoins R as bs →
    as.length = bs.length ∧ as.length % 2 = 0 ∧
      List.Forall₂ (fun p q => ItemStandsFor standard c R p.1 q.1 ∧
        ExchangedIn standard c R (Clause.joinCondition p.2) (Clause.joinCondition q.2))
        (pairs as) (pairs bs)
  | _, _, .nil => ⟨rfl, rfl, .nil⟩
  | _, _, .cons hsource hon hs =>
    have ⟨hlength, heven, hpairs⟩ := hs.stands
    ⟨congrArg (· + 2) hlength, (Nat.add_mod_right _ 2).trans heven,
      .cons ⟨hsource.stands, hon.stands⟩ hpairs⟩

theorem RewrittenEntries.stands : ∀ {s t : Statement}, RewrittenEntries R s t →
    s.Entrywise (fun _ => StandsFor standard c R) t
  | _, _, .nil => .nil
  | _, _, .cons _ h hs => .cons ⟨rfl, h.stands⟩ hs.stands

theorem RewrittenRows.stands : ∀ {rows rows' : List Statement}, RewrittenRows R rows rows' →
    List.Forall₂ (Statement.Entrywise fun _ => StandsFor standard c R) rows rows'
  | _, _, .nil => .nil
  | _, _, .cons h hs => .cons h.stands hs.stands

theorem RewrittenClauses.stands : ∀ {s t : Statement}, RewrittenClauses R s t →
    s.Entrywise (ClauseStandsFor standard c R) t
  | _, _, .nil => .nil
  | _, _, .cons h hs => .cons ⟨rfl, h.stands⟩ hs.stands

end

/-- **Statements rewritten with interchangeable expressions are formatted alike**, if both pass the
linter. -/
theorem format_eq_of_rewritten {o : Options} (hs : Lint.check o.checking s o.params = .ok ())
    (ht : Lint.check o.checking t o.params = .ok ())
    (hR : ∀ d, standard.Interchangeable (standard.context o d false) R)
    (h : Rewritten R .expr (.map s) (.map t)) : standard.format s o = standard.format t o :=
  format_eq_of_exchanged standard_bounded standard_plain hs ht hR fun _ =>
    h.stands.exchangedIn_statement

end Clausal.Grammar
