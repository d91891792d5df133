import Clausal.Proofs.Aliasing
import Clausal.Proofs.Condition.Collapse
import Clausal.Proofs.JsonRoundTrip
import Clausal.Proofs.Places.Rewriting

/-! # Candidates by name

The candidates of a membership test are listed, or a named parameter has them.  A listed candidate
is an expression and goes through the grammar; a named one is sent on as it stands.  For candidates
that are bound anyway this makes no difference: however they are given, the tests coincide
(`Grammar.interchangeable_sameTest`), so that one can stand for the other wherever a test is written
as an expression.

An empty list is the only case in which the SQL is not put together from the same pieces: listed, it
is an empty text between the parentheses, and named, it is nothing.

A parameter without a name can be referred to as `[param ""]` only.  A lone question mark is
refused.
-/
namespace Clausal

/-! ### Ways to give candidates -/

/-- The value gives these candidates: it lists them, or refers to a parameter that has them, as
`?name` or as `[param name]`. -/
inductive Value.Gives (params : Table Value) (vs : List Value) : Value → Prop where
  | listed : Gives params vs (.seq vs)
  | marked {name : String} (hne : name ≠ "") (hname : Table.get? name params = some (.seq vs)) :
      Gives params vs (.ident ("?" ++ name))
  | referred {head arg : Value} {name : String} (hhead : head.isWord "param" = true)
      (harg : arg.text? = some name) (hname : Table.get? name params = some (.seq vs)) :
      Gives params vs (.seq [head, arg])

/-- Both values test whether the same expression is among the same bound values. -/
inductive Value.SameTest (params : Table Value) : Value → Value → Prop where
  | intro {op : String} (hop : Text.lower op ∈ ["in", "not-in"]) (subject : Value)
      {vs : List Value} (hvs : ∀ v ∈ vs, v.isBound = true) {set set' : Value}
      (hset : set.Gives params vs) (hset' : set'.Gives params vs) :
      SameTest params (.call op [subject, set]) (.call op [subject, set'])

theorem Value.paramRef?_mark {name : String} (hne : name ≠ "") :
    (Value.ident ("?" ++ name)).paramRef? = some name := by
  have hstrip : Text.stripLeading? '?' ("?" ++ name) = some name :=
    Text.stripLeading?_eq_some_iff.mpr rfl
  simp only [paramRef?, hstrip]
  split
  · rename_i h
    exact absurd (Option.some.inj h) hne
  · rfl

/-- A list of bound values is headed by no word, so it is no reference. -/
theorem Value.paramRef?_of_bound {vs : List Value} (hvs : ∀ v ∈ vs, v.isBound = true) :
    (Value.seq vs).paramRef? = none := by
  rcases vs with _ | ⟨head, _ | ⟨arg, _ | ⟨third, rest⟩⟩⟩
  case cons.cons.nil =>
    have hhead := hvs head List.mem_cons_self
    have hword : head.isWord "param" = false := by
      cases head <;> first | rfl | cases hhead
    rw [paramRef?, hword]
    rfl
  all_goals rfl

/-! ### Bound values -/

variable {g : Grammar} {c : Context} {v : Value} {vs : List Value}

/-- Sending a value on does not look at the marker. -/
theorem Run.under_value (change : Marker → Marker) (v : Value) :
    Run.under change (Run.value c v) = Run.value c v := by
  funext s
  unfold Run.value
  split
  · cases v.literal <;> rfl
  · rfl

theorem Grammar.exprLayout_of_bound (hv : v.isBound = true) (aliasPosition : Bool) :
    g.exprLayout aliasPosition v = .value v := by
  cases v <;> first | rfl | cases hv

/-- A bound value is sent on as it stands, wherever it is an expression. -/
theorem Grammar.expr_of_bound (hv : v.isBound = true) (depth : Nat) (nested : Bool) :
    (g.evaluators c (depth + 1)).expr nested v = Run.value c v := by
  funext s
  have hrun : (g.evaluators c (depth + 1)).expr nested v s =
      Run.under (fun m => { m with aliasPosition := false, nested := nested })
        ((g.exprLayout s.marker.aliasPosition v).eval c (g.evaluators c depth)) s := rfl
  rw [hrun, exprLayout_of_bound hv]
  exact congrFun (Run.under_value _ v) s

theorem Layout.eval_parens (sub : Evaluators) (l : Layout) :
    l.parens.eval c sub = (do return (← l.eval c sub).parens) := by
  have happend : l.parens = .append (.append (.text "(") l) (.text ")") := rfl
  rw [happend]
  simp only [eval, bind_assoc, pure_bind, Sql.parens]

theorem Layout.eval_commas_cons_cons (sub : Evaluators) (l m : Layout) (ls : List Layout) :
    (commas (l :: m :: ls)).eval c sub = (do
      let first ← l.eval c sub
      let rest ← (commas (m :: ls)).eval c sub
      return first ++ Sql.ofText ", " ++ rest) := by
  have happend : commas (l :: m :: ls) =
    .append (.append l (.text ", ")) (commas (m :: ls)) := rfl
  rw [happend]
  simp only [eval, bind_assoc, pure_bind]

/-- Listed between commas, bound values are sent on one by one. -/
theorem Grammar.coincides_commas (hvs : ∀ v ∈ vs, v.isBound = true) (depth : Nat) :
    ((Layout.commas (vs.map .top)).eval c (g.evaluators c (depth + 1))).Coincides
      (Run.values c vs) := by
  induction vs with
  | nil =>
    -- The one place where the pieces differ: an empty text against none.
    exact Run.coincides_pure fun p => rfl
  | cons v rest ih =>
    obtain ⟨hv, hrest⟩ := List.forall_mem_cons.mp hvs
    have hfirst : (Layout.top v).eval c (g.evaluators c (depth + 1)) = Run.value c v :=
      expr_of_bound hv depth false
    cases rest with
    | nil => exact .of_eq hfirst
    | cons w ws =>
      rw [List.map_cons, List.map_cons, Layout.eval_commas_cons_cons, hfirst]
      exact Run.Coincides.rfl.both (ih hrest) fun ha hb => (ha.append .rfl).append hb

/-! ### Tests with the same candidates -/

theorem Grammar.eval_candidates_named (hcaching : c.caching = false) {set : Value} {name : String}
    (hset : set.paramRef? = some name) (hname : Table.get? name c.params = some (.seq vs))
    (sub : Evaluators) :
    (Form.candidates set).eval c sub = (do return (← Run.values c vs).parens) := by
  unfold Form.candidates
  rw [hset]
  simp only [Layout.eval, Run.namedList, hcaching, Run.lookup, hname, pure_bind,
    Bool.false_eq_true, if_false]

/-- The candidates of a test are written as the bound values, in parentheses, however they are
given. -/
theorem Grammar.coincides_candidates (hcaching : c.caching = false) {set : Value}
    (hset : set.Gives c.params vs) (hvs : ∀ v ∈ vs, v.isBound = true) (depth : Nat) :
    ((Form.candidates set).eval c (g.evaluators c (depth + 1))).Coincides
      (do return (← Run.values c vs).parens) := by
  cases hset with
  | listed =>
    unfold Form.candidates
    rw [Value.paramRef?_of_bound hvs]
    dsimp only [Layout.valueList]
    rw [Layout.eval_parens]
    exact (coincides_commas hvs depth).bind fun _ _ hab => Run.coincides_pure hab.parens
  | marked hne hname =>
    exact .of_eq (eval_candidates_named hcaching (Value.paramRef?_mark hne) hname _)
  | referred hhead harg hname =>
    refine .of_eq (eval_candidates_named hcaching ?_ hname _)
    rw [Value.paramRef?, if_pos hhead, harg]

namespace Grammar

/-- The layouts of two tests coincide at every depth.  At the lowest the subject, which comes first,
fails already, so the candidates do not matter. -/
theorem coincides_membership (hcaching : c.caching = false) (op : String) (subject : Value)
    {set set' : Value} (hset : set.Gives c.params vs) (hset' : set'.Gives c.params vs)
    (hvs : ∀ v ∈ vs, v.isBound = true) (depth : Nat) :
    ((Form.membership op [subject, set]).eval c (g.evaluators c depth)).Coincides
      ((Form.membership op [subject, set']).eval c (g.evaluators c depth)) := by
  cases depth with
  | zero => exact fun s => .error .endless s
  | succ depth =>
    have hgiven := coincides_candidates (g := g) hcaching hset hvs depth
    have hgiven' := coincides_candidates (g := g) hcaching hset' hvs depth
    exact (Run.Coincides.rfl.both (hgiven.trans hgiven'.symm) .append).bind fun _ _ hab =>
      .observing fun s => Run.coincides_pure (hab.wrap s.marker.nested)

/-- **Tests of the same expression for the same bound values are interchangeable**, unless the
result is kept for other values of the parameters. -/
theorem interchangeable_sameTest (hcaching : c.caching = false) :
    standard.Interchangeable c (Value.SameTest c.params) := by
  rintro _ _ ⟨hop, subject, hvs, hset, hset'⟩ depth nested
  cases depth with
  | zero => exact .rfl
  | succ depth =>
    intro s
    refine coincidesAt_expr ?_ s.slots
    rw [exprLayout_form (form_membership hop), exprLayout_form (form_membership hop)]
    exact (coincides_membership hcaching _ subject hset hset' hvs depth).at _

/-- A question mark without a name is no expression, so a test for it fails. -/
theorem not_ok_lone_mark {op : String} (hop : Text.lower op ∈ ["in", "not-in"]) (subject : Value)
    {depth : Nat} {nested : Bool} {s t : Session} {sql : Sql} :
    (standard.evaluators c depth).expr nested (.call op [subject, .ident "?"]) s ≠
      (.ok sql, t) := by
  intro h
  obtain ⟨-, below, aliased, u, w, -, hlayout⟩ := of_expr_ok h
  rw [exprLayout_form (form_membership hop)] at hlayout
  obtain ⟨test, htest, -⟩ := Layout.of_wrap_ok hlayout
  obtain ⟨_, _, _, -, hset, -⟩ := Layout.of_append_ok htest
  obtain ⟨_, _, _, hfront, -, -⟩ := Layout.of_append_ok hset
  obtain ⟨_, _, _, -, hmark, -⟩ := Layout.of_append_ok hfront
  obtain ⟨-, _, _, _, _, -, hname⟩ := of_expr_ok hmark
  exact Run.of_throw_ok hname

theorem formatExpr_lone_mark {op : String} (hop : Text.lower op ∈ ["in", "not-in"])
    (subject : Value) (o : Options) :
    ∃ e, standard.formatExpr (.call op [subject, .ident "?"]) o = .error e := by
  cases hformat : standard.formatExpr (.call op [subject, .ident "?"]) o with
  | error e => exact ⟨e, rfl⟩
  | ok f =>
    rw [formatExpr_eq_bind (by intro s h; cases h)] at hformat
    obtain ⟨d, -, hrest⟩ := bind_eq_ok.mp hformat
    obtain ⟨kept, hkeep, -⟩ := bind_eq_ok.mp hrest
    unfold keep at hkeep
    split at hkeep
    · rename_i sql session hrun
      exact absurd hrun (not_ok_lone_mark hop subject)
    · cases hkeep

/-- **However bound candidates are given, the test is the same.**  Listed, as `?name` or as
`[param name]`, they make runs that coincide in every session, at every depth and nested or not; so
the test is formatted to the same text and parameters, or refused with the same fault, on its own
and wherever such tests are written as expressions, in an expression or in a statement that passes
the linter; the places that `Rewritten` goes through are of this kind.  Only a question mark without
a name is always refused, whatever the parameters are. -/
theorem named_list_as_listed {op : String} (hop : Text.lower op ∈ ["in", "not-in"])
    (subject : Value) {vs : List Value} (hvs : ∀ v ∈ vs, v.isBound = true) {o : Options}
    {set set' : Value} (hset : set.Gives o.params vs) (hset' : set'.Gives o.params vs) :
    standard.formatExpr (.call op [subject, set]) o =
        standard.formatExpr (.call op [subject, set']) o ∧
      (∀ d depth nested,
        ((standard.evaluators (standard.context o d false) depth).expr nested
          (.call op [subject, set])).Coincides
        ((standard.evaluators (standard.context o d false) depth).expr nested
          (.call op [subject, set']))) ∧
      (∀ v w, (∀ s, v = .map s → Lint.check o.checking s o.params = .ok ()) →
        (∀ s, w = .map s → Lint.check o.checking s o.params = .ok ()) →
        (∀ d, Exchanged standard (standard.context o d false) (Value.SameTest o.params) v w) →
          standard.formatExpr v o = standard.formatExpr w o) ∧
      (∀ s t, Lint.check o.checking s o.params = .ok () →
        Lint.check o.checking t o.params = .ok () →
        (∀ d, ExchangedIn standard (standard.context o d false) (Value.SameTest o.params)
          (.statement s) (.statement t)) →
          standard.format s o = standard.format t o) ∧
      (∀ s t, Lint.check o.checking s o.params = .ok () →
        Lint.check o.checking t o.params = .ok () →
        Rewritten (Value.SameTest o.params) .expr (.map s) (.map t) →
          standard.format s o = standard.format t o) ∧
      ∃ e, standard.formatExpr (.call op [subject, .ident "?"]) o = .error e := by
  have hsame : Value.SameTest o.params (.call op [subject, set]) (.call op [subject, set']) :=
    .intro hop subject hvs hset hset'
  have htests (d : Dialect) :
      standard.Interchangeable (standard.context o d false) (Value.SameTest o.params) :=
    interchangeable_sameTest rfl
  refine ⟨?_, fun d => htests d _ _ hsame, ?_, ?_, ?_, formatExpr_lone_mark hop subject o⟩
  · exact formatExpr_eq_of_exchanged standard_bounded standard_plain (by intro s h; cases h)
      (by intro s h; cases h) htests fun _ => .here hsame
  · intro v w hv hw h
    exact formatExpr_eq_of_exchanged standard_bounded standard_plain hv hw htests h
  · intro s t hs ht h
    exact format_eq_of_exchanged standard_bounded standard_plain hs ht htests h
  · intro s t hs ht h
    exact format_eq_of_rewritten hs ht htests h

/-- A numbered test for two candidates, on its own, and in a statement that is checked: as an item
with an alias and as an operand in a condition. -/
theorem named_list_as_listed_condition :
    standard.formatExpr (.call "NOT-IN" [.ident "x", .ident "?ids"])
        { numbered := true, params := [("ids", .seq [.int 1, .str "b"])] } =
      .ok ⟨"x NOT IN ($1, $2)", [.int 1, .str "b"]⟩ ∧
    standard.formatExpr (.call "NOT-IN" [.ident "x", .seq [.int 1, .str "b"]])
        { numbered := true, params := [("ids", .seq [.int 1, .str "b"])] } =
      .ok ⟨"x NOT IN ($1, $2)", [.int 1, .str "b"]⟩ ∧
    standard.format
        [("select", .seq [.seq [.call "in" [.ident "x", .ident "?ids"], .ident "old"]]),
          ("where", .call "and" [.ident "a", .call "in" [.ident "x", .ident "?ids"]])]
        { numbered := true, checking := .strict, params := [("ids", .seq [.int 1, .str "b"])] } =
      standard.format
        [("select", .seq [.seq [.call "in" [.ident "x", .seq [.int 1, .str "b"]], .ident "old"]]),
          ("where", .call "and" [.ident "a", .call "in" [.ident "x", .seq [.int 1, .str "b"]]])]
        { numbered := true, checking := .strict,
          params := [("ids", .seq [.int 1, .str "b"])] } := by
  let params : Table Value := [("ids", .seq [.int 1, .str "b"])]
  let o : Options := { numbered := true, params := params }
  let strict : Options := { numbered := true, checking := .strict, params := params }
  have hop : Text.lower "NOT-IN" ∈ ["in", "not-in"] := by decide +kernel
  have hvs : ∀ v ∈ [Value.int 1, .str "b"], v.isBound = true := by simp [Value.isBound]
  have hmarked : (Value.ident "?ids").Gives params [.int 1, .str "b"] :=
    @Value.Gives.marked params _ "ids" (by decide) rfl
  have hlisted : (Value.seq [.int 1, .str "b"]).Gives params [.int 1, .str "b"] := .listed
  obtain ⟨hown, -⟩ := named_list_as_listed (o := o) hop (.ident "x") hvs hmarked hlisted
  obtain ⟨-, -, -, -, hstatement, -⟩ :=
    named_list_as_listed (o := strict) hop (.ident "x") hvs hmarked hlisted
  have hdefault : standard.resolveDialect o = .ok .ansi := resolveDialect_default
  have hkeep : keep o (standard.evalExpr (standard.context o .ansi false)
      (.call "NOT-IN" [.ident "x", .seq [.int 1, .str "b"]])) =
        .ok ⟨"x NOT IN ($1, $2)", [.literal (.int 1), .literal (.str "b")]⟩ := by
    decide +kernel
  have hformat : standard.formatExpr (.call "NOT-IN" [.ident "x", .seq [.int 1, .str "b"]]) o =
      .ok ⟨"x NOT IN ($1, $2)", [.int 1, .str "b"]⟩ :=
    formatExpr_of_keep (by intro s h; cases h) hdefault hkeep
  have htest : Rewritten (Value.SameTest params) .expr (.call "in" [.ident "x", .ident "?ids"])
      (.call "in" [.ident "x", .seq [.int 1, .str "b"]]) :=
    .here (.intro (by decide +kernel) (.ident "x") hvs hmarked hlisted)
  have hand : Table.get? (Text.lower "and") OperatorPolicy.builtin = some .connective :=
    get?_connective (.inl (by decide +kernel))
  refine ⟨hown.trans hformat, hformat, hstatement _ _ (by decide +kernel) (by decide +kernel)
    (.statement (.cons ?_ (.cons ?_ .nil)) ?_)⟩
  · exact .select rfl (.cons (.aliased htest _) (.nil _))
  · exact .condition rfl
      (.operator hand (.cons (.same _ _) (.cons htest (.nil _))) (.inl rfl))
  · intro k hk
    rcases List.mem_pair.mp hk with rfl | rfl <;> rfl

/-- A parameter without a name has candidates, but a question mark alone does not refer to it. -/
theorem lone_mark_refused :
    standard.formatExpr (.call "in" [.ident "x", .param ""])
        { params := [("", .seq [.int 1, .int 2])] } = .ok ⟨"x IN (?, ?)", [.int 1, .int 2]⟩ ∧
      standard.formatExpr (.call "in" [.ident "x", .ident "?"])
          { params := [("", .seq [.int 1, .int 2])] } =
        .error (.malformed .paramWithoutName (.ident "?")) := by
  let o : Options := { params := [("", .seq [.int 1, .int 2])] }
  have hdefault : standard.resolveDialect o = .ok .ansi := resolveDialect_default
  constructor
  · have hkeep : keep o (standard.evalExpr (standard.context o .ansi false)
        (.call "in" [.ident "x", .param ""])) =
          .ok ⟨"x IN (?, ?)", [.literal (.int 1), .literal (.int 2)]⟩ := by
      decide +kernel
    exact formatExpr_of_keep (by intro s h; cases h) hdefault hkeep
  · have hkeep : keep o (standard.evalExpr (standard.context o .ansi false)
        (.call "in" [.ident "x", .ident "?"])) =
          .error (.malformed .paramWithoutName (.ident "?")) := by
      decide +kernel
    rw [formatExpr_eq_bind (by intro s h; cases h), hdefault]
    exact congrArg (Except.bind · (finish o)) hkeep

end Grammar
end Clausal
