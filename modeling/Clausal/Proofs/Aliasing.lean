import Clausal.Proofs.ClosedEvaluation
import Clausal.Proofs.Membership.Candidates

/-! # Selecting under an alias

A pair of a target and a name that stands in a selection is written as the target, `AS` and the
name.  The target settles as on its own: the alias position ends with the pair, so it does not reach
the parts of the target (`Grammar.settle_aliased`).  `Grammar.aliased_as_on_its_own` says this of
whole texts.

Two things are not as on their own.  Checks apply to statements only, so a selection is refused for
what the linter finds in its target, while an expression that is not a statement is not looked at.
And a string, which would be bound as a value, is taken for a name when it has an alias.
-/
namespace Clausal

/-! ### Checks -/

namespace Lint
variable {level : LintLevel} {params : Table Value}

/-- Nothing in the value is refused at the level. -/
def Clean (level : LintLevel) (params : Table Value) (v : Value) : Prop :=
  level ≠ .off → ∀ w, v.Reaches w → Passes level params w

theorem check_eq_ok_iff_clean {s : Statement} :
    check level s params = .ok () ↔ Clean level params (.map s) := by
  by_cases hlevel : level = .off
  · subst hlevel
    exact iff_of_true rfl fun h => absurd rfl h
  · rw [check_eq_ok_iff hlevel]
    exact ⟨fun h _ => h, fun h => h hlevel⟩

/-- In a selection of one target under an alias, what is refused is refused in the target. -/
theorem clean_aliased {t a : Value} {name : String} (ha : a.text? = some name) :
    Clean level params (.map [("select", .seq [.seq [t, a]])]) ↔ Clean level params t := by
  have hname : value? level params a = none := by
    cases a with
    | ident s => rfl
    | str s => rfl
    | _ => cases ha
  refine forall_congr' fun _ => ?_
  rw [← value?_eq_none_iff, ← value?_eq_none_iff]
  have hunguarded : unguarded? [("select", .seq [.seq [t, a]])] = none := rfl
  have hempty : emptySelection? "select" (.seq [.seq [t, a]]) = none := rfl
  simp [value?, entries?, items?, membership?, hunguarded, hempty, hname]

end Lint

/-! ### Settled text with an alias -/

namespace Settled

theorem sql_formatted {r : Settled} (h : r.Literal) (o : Options) :
    (r.formatted o).sql = (r.sql 0).render o.placeholder := by
  have hkept := kept_sql o r
  rw [formatted, h.length_values]
  exact hkept.symm

/-- Settled text without parameters. -/
def ofTexts (texts : List String) : Settled := texts.map .text

theorem slots_ofTexts (texts : List String) : (ofTexts texts).slots = [] := by
  simp [ofTexts, slots]

theorem render_ofTexts (p : Placeholder) (k : Nat) (texts : List String) :
    ((ofTexts texts).sql k).render p = String.join texts := by
  induction texts with
  | nil => rfl
  | cons text texts ih =>
    have hcons : ofTexts (text :: texts) = .text text :: ofTexts texts := rfl
    rw [hcons, sql_text_cons, Sql.render_append, ih, String.join_cons]
    simp [Sql.ofText, Sql.render, Piece.render]

/-- Text around what is settled stands around what is handed out. -/
theorem formatted_around {r : Settled} (h : r.Literal) (o : Options) (before after : List String) :
    formatted o (ofTexts before ++ r ++ ofTexts after) =
      ⟨String.join before ++ (r.formatted o).sql ++ String.join after, (r.formatted o).params⟩ := by
  have htexts : ∀ texts, (ofTexts texts).Literal ∧ (ofTexts texts).values = [] := by
    intro texts
    simp [Literal, values, slots_ofTexts]
  have hwhole := ((htexts before).1.append h).append (htexts after).1
  have hsql := sql_formatted hwhole o
  rw [sql_append, sql_append, slots_ofTexts, Sql.render_append, Sql.render_append, render_ofTexts,
    render_ofTexts, List.length_nil, Nat.add_zero, ← sql_formatted h o] at hsql
  have hparams : (ofTexts before ++ r ++ ofTexts after).values = r.values := by
    rw [values_append, values_append, (htexts before).2, (htexts after).2, List.append_nil,
      List.nil_append]
  exact Formatted.mk.injEq .. ▸ ⟨hsql, hparams⟩

end Settled

theorem Draft.settle_texts (c : Context) (texts : List String) :
    settle c (texts.map .text) = .ok (Settled.ofTexts texts) := by
  induction texts with
  | nil => rfl
  | cons text texts ih =>
    rw [List.map_cons, settle_cons, ih]
    rfl

/-- Text around a draft settles around it. -/
theorem Draft.settle_around (c : Context) (before after : List String) (d : Draft) :
    settle c (before.map .text ++ d ++ after.map .text) =
      (settle c d).map fun r => Settled.ofTexts before ++ r ++ Settled.ofTexts after := by
  rw [settle_append, settle_append, settle_texts, settle_texts]
  cases settle c d <;> rfl

/-! ### Selections -/

namespace Grammar
variable {t a : Value} {name : String}

theorem admissible_eq_ok_iff {g : Grammar} {s : Statement} {o : Options} {d : Dialect} :
    g.admissible s o = .ok d ↔
      g.resolveDialect o = .ok d ∧ Lint.check o.checking s o.params = .ok () := by
  constructor
  · intro h
    obtain ⟨d', hd, h⟩ := bind_eq_ok.mp h
    obtain ⟨_, hcheck, h⟩ := bind_eq_ok.mp h
    cases h
    exact ⟨hd, hcheck⟩
  · rintro ⟨hd, hcheck⟩
    exact bind_eq_ok.mpr ⟨d, hd, bind_eq_ok.mpr ⟨(), hcheck, rfl⟩⟩

/-- The target heads no form and no operator, so that a pair with it is no expression. -/
def Headless (t : Value) : Prop :=
  ∀ op, t = .ident op →
    standard.form? (Text.lower op) = none ∧ standard.operator? (Text.lower op) = none

theorem exprLayout_aliased (ha : a.text? = some name) (ht : ∀ s, t ≠ .str s) (hhead : Headless t) :
    standard.exprLayout true (.seq [t, a]) = .top t ++ (.aliasMark ++ .aliasName name) := by
  have hnone : t.ident?.bind (standard.headed? · [a]) = none := by
    cases t with
    | ident op =>
      obtain ⟨hform, hoperator⟩ := hhead op rfl
      show standard.headed? op [a] = none
      rw [headed?, hform, hoperator]
      rfl
    | _ => rfl
  have hpair : standard.exprLayout true (.seq [t, a]) = .withAlias t a := by
    rw [exprLayout, listLayout, hnone]
    rfl
  rw [hpair]
  unfold Layout.withAlias
  rw [ha]
  cases t with
  | str s => exact absurd rfl (ht s)
  | _ => rfl

/-- What stands behind the target. -/
def aliasTexts (style : NameStyle) (name : String) : List String :=
  [if style.dialect.aliasKeyword then " AS " else " ", style.aliasText name]

/-- The target of an aliased pair settles as on its own. -/
theorem settle_aliased {c : Context} (hc : c.inline = false) (ha : a.text? = some name)
    (ht : ∀ s, t ≠ .str s) (hhead : Headless t) :
    Draft.settle c (standard.draftStatement c.shape [("select", .seq [.seq [t, a]])]) =
      (Draft.settle c (standard.draftExpr c.shape t)).map fun r =>
        Settled.ofTexts ["SELECT", " "] ++ r ++ Settled.ofTexts (aliasTexts c.style name) := by
  obtain ⟨depth, hdepth⟩ :
      ∃ depth, (Value.seq [.seq [t, a]]).weight + 1 + spareDepth = depth + 1 := ⟨_, rfl⟩
  have hweight : t.weight ≤ depth := by
    simp only [Value.weight, Value.weightItems] at hdepth
    omega
  have hlayout : Clause.select "select" (.seq [.seq [t, a]]) [("select", .seq [.seq [t, a]])] =
      "SELECT" ++ .lead " " (.aliased (.seq [t, a])) := by
    have hword : keyword "select" = "SELECT" := by decide +kernel
    rw [← hword]
    rfl
  let inside : Marker := { clause := some "select" }
  let d := (standard.drafters c.shape depth).expr inside false t
  have hpair : (standard.drafters c.shape (depth + 1)).expr { inside with aliasPosition := true }
      false (.seq [t, a]) = d ++ (aliasTexts c.style name).map .text := by
    show Layout.draft _ _ _ (standard.exprLayout true (.seq [t, a])) = _
    rw [exprLayout_aliased ha ht hhead]
    rfl
  have hdraft : standard.draftStatement c.shape [("select", .seq [.seq [t, a]])] =
      ["SELECT", " "].map .text ++ d ++ (aliasTexts c.style name).map .text := by
    have hrule : standard.clauses.rule? "select" = some Clause.select := rfl
    rw [draftStatement_single hrule, hlayout, hdepth]
    show Draft.beside " " ([.text "SELECT"] ++ Draft.lead " " ((standard.drafters c.shape
      (depth + 1)).expr { inside with aliasPosition := true } false (.seq [t, a]))) _ = _
    have hfull : Draft.isEmpty (d ++ (aliasTexts c.style name).map .text) = false := by
      by_cases hkeyword : c.style.dialect.aliasKeyword = true <;>
        simp [Draft.isEmpty, aliasTexts, Token.isEmpty, hkeyword]
    rw [hpair, Draft.lead, hfull]
    rfl
  have hown : Draft.settle c d = Draft.settle c (standard.draftExpr c.shape t) :=
    settle_expr_eq hc hweight (Nat.le_add_right _ spareDepth) rfl rfl
  rw [hdraft, Draft.settle_around, hown]

/-- What a target on its own becomes when it is selected under an alias. -/
def selected (style : NameStyle) (name : String) (f : Formatted) : Formatted :=
  ⟨"SELECT " ++ f.sql ++ (if style.dialect.aliasKeyword then " AS " else " ") ++
    style.aliasText name, f.params⟩

/-- An expression is written if the dialect is known, its draft settles and, if it is a statement,
nothing in it is refused. -/
theorem formatExpr_eq_ok_iff {o : Options} (ho : o.inline = false) {f : Formatted} :
    standard.formatExpr t o = .ok f ↔ ∃ d, standard.resolveDialect o = .ok d ∧
      ((∃ s, t = .map s) → Lint.Clean o.checking o.params t) ∧
      standard.formatDraft o d (standard.draftExpr · t) = .ok f := by
  have hadmissible : ∀ d, standard.admissibleExpr t o = .ok d ↔
      standard.resolveDialect o = .ok d ∧
        ((∃ s, t = .map s) → Lint.Clean o.checking o.params t) := by
    intro d
    cases t with
    | map s =>
      rw [admissibleExpr, admissible_eq_ok_iff, Lint.check_eq_ok_iff_clean]
      exact and_congr_right fun _ => ⟨fun h _ => h, fun h => h ⟨s, rfl⟩⟩
    | _ =>
      refine (and_iff_left ?_).symm
      rintro ⟨s, hs⟩
      cases hs
  rw [standard_plain.formatExpr_eq t o fun _ _ => Draft.solid_of_not_inline ho _, bind_eq_ok]
  refine exists_congr fun d => ?_
  rw [hadmissible, and_assoc]

/-- A selection under an alias is written if the dialect is known, the draft of the target settles
and nothing in the target is refused. -/
theorem format_aliased_eq_ok_iff {o : Options} (ho : o.inline = false) (ha : a.text? = some name)
    (ht : ∀ s, t ≠ .str s) (hhead : Headless t) {f : Formatted} :
    standard.format [("select", .seq [.seq [t, a]])] o = .ok f ↔
      ∃ d, standard.resolveDialect o = .ok d ∧ Lint.Clean o.checking o.params t ∧
        ∃ own, standard.formatDraft o d (standard.draftExpr · t) = .ok own ∧
          selected ⟨d, o.isQuoted, o.quotedSnake⟩ name own = f := by
  rw [standard_plain.format_eq _ o fun _ _ => Draft.solid_of_not_inline ho _, bind_eq_ok]
  refine exists_congr fun d => ?_
  rw [admissible_eq_ok_iff, Lint.check_eq_ok_iff_clean, Lint.clean_aliased ha, and_assoc]
  refine and_congr_right fun _ => and_congr_right fun _ => ?_
  rw [formatDraft_eq, formatDraft_eq,
    settle_aliased (c := standard.context o d false) ho ha ht hhead]
  cases hr : Draft.settle (standard.context o d false)
      (standard.draftExpr (standard.context o d false).shape t) with
  | error e => simp [Except.map]
  | ok r =>
    have hliteral := Draft.settle_literal (c := standard.context o d false) rfl hr
    have htext : Settled.formatted o (Settled.ofTexts ["SELECT", " "] ++ r ++
        Settled.ofTexts (aliasTexts ⟨d, o.isQuoted, o.quotedSnake⟩ name)) =
        selected ⟨d, o.isQuoted, o.quotedSnake⟩ name (r.formatted o) := by
      have hhead : String.join ["SELECT", " "] = "SELECT " := by decide +kernel
      have htail : ∀ style, String.join (aliasTexts style name) =
          (if style.dialect.aliasKeyword then " AS " else " ") ++ style.aliasText name := by
        intro style
        simp [aliasTexts, String.join]
      rw [Settled.formatted_around hliteral, hhead, htail, ← String.append_assoc]
      rfl
    constructor
    · intro h
      exact ⟨r.formatted o, rfl, htext.symm.trans (Except.ok.inj h)⟩
    · rintro ⟨own, hown, rfl⟩
      cases hown
      exact congrArg Except.ok htext

/-- **Aliasing does not change what is selected.**  With values bound and not written into the text,
a target that is no string and heads no form or operator is selected under an alias exactly when it
can be written on its own and the linter finds nothing in it; without checks, and for a statement,
it is enough that it can be written on its own.  The text is that of the target between `SELECT` and
the alias, and the parameters are the same. -/
theorem aliased_as_on_its_own {o : Options} (ho : o.inline = false) {t a : Value} {name : String}
    (ha : a.text? = some name) (ht : ∀ s, t ≠ .str s) (hhead : Headless t) :
    ((∃ f, standard.format [("select", .seq [.seq [t, a]])] o = .ok f) ↔
      (∃ own, standard.formatExpr t o = .ok own) ∧ Lint.Clean o.checking o.params t) ∧
    (o.checking = .off ∨ (∃ s, t = .map s) → (∃ own, standard.formatExpr t o = .ok own) →
      Lint.Clean o.checking o.params t) ∧
    ∀ f, standard.format [("select", .seq [.seq [t, a]])] o = .ok f →
      ∃ d own, standard.resolveDialect o = .ok d ∧ standard.formatExpr t o = .ok own ∧
        f = selected ⟨d, o.isQuoted, o.quotedSnake⟩ name own := by
  refine ⟨⟨?_, ?_⟩, ?_, ?_⟩
  · rintro ⟨f, hf⟩
    obtain ⟨d, hd, hclean, own, hown, -⟩ := (format_aliased_eq_ok_iff ho ha ht hhead).mp hf
    exact ⟨⟨own, (formatExpr_eq_ok_iff ho).mpr ⟨d, hd, fun _ => hclean, hown⟩⟩, hclean⟩
  · rintro ⟨⟨own, hown⟩, hclean⟩
    obtain ⟨d, hd, -, hown⟩ := (formatExpr_eq_ok_iff ho).mp hown
    exact ⟨_, (format_aliased_eq_ok_iff ho ha ht hhead).mpr ⟨d, hd, hclean, own, hown, rfl⟩⟩
  · rintro hcase ⟨own, hown⟩
    rcases hcase with hoff | hstatement
    · exact fun hlevel => absurd hoff hlevel
    · obtain ⟨d, -, hclean, -⟩ := (formatExpr_eq_ok_iff ho).mp hown
      exact hclean hstatement
  · intro f hf
    obtain ⟨d, hd, hclean, own, hown, rfl⟩ := (format_aliased_eq_ok_iff ho ha ht hhead).mp hf
    exact ⟨d, own, hd, (formatExpr_eq_ok_iff ho).mpr ⟨d, hd, fun _ => hclean, hown⟩, rfl⟩

/-- What is written of an expression that is no statement. -/
theorem formatExpr_of_keep {v : Value} (hv : ∀ s, v ≠ .map s) {o : Options} {d : Dialect}
    (hd : standard.resolveDialect o = .ok d) {kept : Kept}
    (hkeep : keep o (standard.evalExpr (standard.context o d false) v) = .ok kept) :
    standard.formatExpr v o = finish o kept := by
  unfold formatExpr
  rw [hd]
  cases v with
  | map s => exact absurd rfl (hv s)
  | _ => exact congrArg (Except.bind · (finish o)) hkeep

/-- A call is selected under an alias as it is written on its own. -/
theorem aliased_as_on_its_own_call :
    standard.formatExpr (.call "coalesce" [.ident "x", .int 5]) {} =
        .ok ⟨"COALESCE(x, ?)", [.int 5]⟩ ∧
      standard.format [("select", .seq [.seq [.call "coalesce" [.ident "x", .int 5], .str "n"]])]
          {} = .ok ⟨"SELECT COALESCE(x, ?) AS n", [.int 5]⟩ := by
  have hkeep : keep {} (standard.evalExpr (standard.context {} .ansi false)
      (.call "coalesce" [.ident "x", .int 5])) = .ok ⟨"COALESCE(x, ?)", [.literal (.int 5)]⟩ := by
    decide +kernel
  have hown : standard.formatExpr (.call "coalesce" [.ident "x", .int 5]) {} =
      .ok ⟨"COALESCE(x, ?)", [.int 5]⟩ :=
    formatExpr_of_keep (by intro s h; cases h) resolveDialect_default hkeep
  have htext : selected ⟨.ansi, false, false⟩ "n" ⟨"COALESCE(x, ?)", [.int 5]⟩ =
      ⟨"SELECT COALESCE(x, ?) AS n", [.int 5]⟩ := by
    decide +kernel
  obtain ⟨hiff, -, hselected⟩ := aliased_as_on_its_own (o := {})
    (t := .call "coalesce" [.ident "x", .int 5]) (a := .str "n") rfl rfl
    (by intro s h; cases h) (by intro op h; cases h)
  obtain ⟨f, hf⟩ := hiff.mpr ⟨⟨_, hown⟩, fun h => absurd rfl h⟩
  obtain ⟨d, own, hd, hown', rfl⟩ := hselected f hf
  cases resolveDialect_default.symm.trans hd
  cases hown.symm.trans hown'
  exact ⟨hown, hf.trans (congrArg Except.ok htext)⟩

/-- A string with an alias is not bound, and a selection is refused for a target that is accepted on
its own. -/
theorem aliased_otherwise :
    (standard.formatExpr (.str "abc") {} = .ok ⟨"?", [.str "abc"]⟩ ∧
      standard.format [("select", .seq [.seq [.str "abc", .ident "x"]])] {} =
        .ok ⟨"SELECT abc AS x", []⟩) ∧
    standard.formatExpr (.call "in" [.ident "x", .seq []]) { checking := .basic } =
        .ok ⟨"x IN ()", []⟩ ∧
      standard.format [("select", .seq [.seq [.call "in" [.ident "x", .seq []], .ident "a"]])]
          { checking := .basic } =
        .error (.lint .emptyIn (.call "in" [.ident "x", .seq []])) := by
  have hdefault : standard.resolveDialect { checking := .basic } = .ok .ansi :=
    resolveDialect_default
  refine ⟨⟨?_, ?_⟩, ?_, ?_⟩
  · have hkeep : keep {} (standard.evalExpr (standard.context {} .ansi false) (.str "abc")) =
        .ok ⟨"?", [.literal (.str "abc")]⟩ := by
      decide +kernel
    exact formatExpr_of_keep (by intro s h; cases h) resolveDialect_default hkeep
  · have hkeep : keep {} (standard.evalStatement (standard.context {} .ansi false)
        [("select", .seq [.seq [.str "abc", .ident "x"]])]) = .ok ⟨"SELECT abc AS x", []⟩ := by
      decide +kernel
    rw [format_default, hkeep]
    rfl
  · have hkeep : keep { checking := .basic } (standard.evalExpr
        (standard.context { checking := .basic } .ansi false) (.call "in" [.ident "x", .seq []])) =
          .ok ⟨"x IN ()", []⟩ := by
      decide +kernel
    exact formatExpr_of_keep (by intro s h; cases h) hdefault hkeep
  · have hcheck : Lint.check .basic
        [("select", .seq [.seq [.call "in" [.ident "x", .seq []], .ident "a"]])] [] =
          .error (.lint .emptyIn (.call "in" [.ident "x", .seq []])) := by
      decide +kernel
    unfold format admissible
    rw [hdefault]
    show ((Lint.check _ _ _).bind _).bind _ = _
    rw [hcheck]
    rfl

end Grammar
end Clausal
