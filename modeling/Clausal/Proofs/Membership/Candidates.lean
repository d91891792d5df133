import Clausal.Proofs.ClosedEvaluation
import Clausal.Proofs.Condition.Guard
import Clausal.Proofs.Lint.Exactness
import Clausal.Proofs.Membership.Terse
import Clausal.Proofs.NestedStatement

/-! # The candidates of a membership test

The candidates of a membership test are written in parentheses and divided by commas, each as it is
written on its own; the values of a named parameter are bound one by one (`Lists`).

The strict linter refuses a test whose list is empty or has a null in it, literally or as the value
of a named parameter.  A test that it accepts has candidates, and one of them is written as a null
exactly when the list hides one (`Grammar.accepted_candidates`): a named parameter that is itself
null, or an item that is not a null but is written as one (`WritesNull`).
-/
namespace Clausal

/-! ### The outcome of an expression -/

/-- The SQL and the slots determine settled text. -/
theorem Settled.eq_of_sql {k : Nat} {r q : Settled} (hsql : r.sql k = q.sql k)
    (hslots : r.slots = q.slots) : r = q := by
  induction r generalizing k q with
  | nil =>
    cases q with
    | nil => rfl
    | cons spot q => cases spot <;> cases hsql
  | cons spot r ih =>
    cases q with
    | nil => cases spot <;> cases hsql
    | cons spot' q =>
      cases spot with
      | text s =>
        cases spot' with
        | text s' =>
          have hcons : Piece.text s :: sql k r = Piece.text s' :: sql k q := hsql
          obtain ⟨hpiece, hrest⟩ := List.cons.inj hcons
          cases hpiece
          rw [ih hrest hslots]
        | slot slot' => cases hsql
      | slot slot =>
        cases spot' with
        | text s' => cases hsql
        | slot slot' =>
          have hcons : Piece.hole (k + 1) :: sql (k + 1) r = Piece.hole (k + 1) :: sql (k + 1) q :=
            hsql
          obtain ⟨hslot, hrest⟩ :=
            List.cons.inj (show slot :: slots r = slot' :: slots q from hslots)
          rw [hslot, ih (List.cons.inj hcons).2 hrest]

theorem Run.Yields.unique {x : Run Sql} {m : Marker} {p q : Except Fault Settled}
    (hp : x.Yields m p) (hq : x.Yields m q) : p = q := by
  cases p with
  | error e =>
    obtain ⟨bound, hx⟩ := hp []
    cases q with
    | error e' =>
      obtain ⟨bound', hx'⟩ := hq []
      rw [hx] at hx'
      cases hx'
      rfl
    | ok r =>
      have hx' := hq []
      rw [hx] at hx'
      cases hx'
  | ok r =>
    have hx := hp []
    cases q with
    | error e =>
      obtain ⟨bound, hx'⟩ := hq []
      rw [hx] at hx'
      cases hx'
    | ok r' =>
      obtain ⟨hresult, hsession⟩ := Prod.mk.inj (hx.symm.trans (hq []))
      exact congrArg Except.ok (Settled.eq_of_sql (Except.ok.inj hresult)
        (Session.mk.inj hsession).1)

namespace Grammar
variable {c : Context}

/-- An expression settles alike at every depth that covers it and at every marker where no alias
may stand. -/
theorem settle_expr_eq (hc : c.inline = false) {nested : Bool} {v : Value} {depth depth' : Nat}
    (h : v.weight ≤ depth) (h' : v.weight ≤ depth') {m m' : Marker}
    (hm : m.aliasPosition = false) (hm' : m'.aliasPosition = false) :
    Draft.settle c ((standard.drafters c.shape depth).expr m nested v) =
      Draft.settle c ((standard.drafters c.shape depth').expr m' nested v) := by
  obtain ⟨p, hp⟩ := (standard_plain.local standard_bounded c depth).expr nested v false
  have hfirst := (standard_plain.follow c depth).expr m nested v (Draft.solid_of_not_inline hc _)
  have hsecond := (standard_plain.follow c depth').expr m' nested v
    (Draft.solid_of_not_inline hc _)
  rw [standard_bounded.expr_eq c nested h' h] at hsecond
  rw [hfirst.unique (hp m hm), hsecond.unique (hp m' hm')]

/-- On its own and unchecked, an expression comes out as its draft settles. -/
theorem formatExpr_unchecked {o : Options} {d : Dialect} (ho : o.inline = false)
    (hd : standard.resolveDialect o = .ok d) (v : Value) :
    standard.formatExpr v { o with checking := .off } =
      (Draft.settle (standard.context o d false)
        (standard.draftExpr (standard.context o d false).shape v)).map (Settled.formatted o) := by
  have hadmissible : standard.admissibleExpr v { o with checking := .off } = .ok d := by
    have hresolve : standard.resolveDialect { o with checking := .off } = .ok d := hd
    cases v with
    | map s =>
      rw [admissibleExpr, admissible, hresolve]
      rfl
    | _ => exact hresolve
  rw [standard_plain.formatExpr_eq v { o with checking := .off }
    fun _ _ => Draft.solid_of_not_inline ho _, hadmissible]
  exact formatDraft_eq standard { o with checking := .off } d (standard.draftExpr · v)

end Grammar

/-! ### Lists -/

namespace Spelling

/-- Parts divided by commas. -/
def commas : List Spelling → Spelling
  | [] => []
  | [e] => e
  | e :: es => e ++ ofText ", " ++ commas es

theorem text_commas (es : List Spelling) :
    (commas es).text = String.intercalate ", " (es.map text) := by
  fun_induction commas es with
  | case1 => rfl
  | case2 e => rw [List.map_singleton, String.intercalate_singleton]
  | case3 e es hne ih =>
    rw [text_append, text_append, text_ofText, ih]
    cases es with
    | nil => exact absurd rfl hne
    | cons next es => simp only [List.map_cons, String.intercalate_cons_cons]

theorem params_commas (es : List Spelling) : (commas es).params = es.flatMap params := by
  fun_induction commas es with
  | case1 => rfl
  | case2 e => simp
  | case3 e es hne ih =>
    rw [params_append, params_append, params_ofText, ih, List.flatMap_cons, List.append_nil]

end Spelling

section Lists
variable {c : Context} {drafts : Drafters} {m : Marker} {r : Settled}

theorem Layout.of_settle_joinKept (hc : c.inline = false) {sep : String} {ls : List Layout}
    {l : Layout} (hl : l ∈ ls)
    (h : Draft.settle c ((joinKept sep ls).draft c.shape drafts m) = .ok r) :
    ∃ x, Draft.settle c (l.draft c.shape drafts m) = .ok x ∧ x.spelling <:+: r.spelling := by
  induction ls generalizing r with
  | nil => cases hl
  | cons first ls ih =>
    obtain ⟨x, y, hx, hy, rfl⟩ := Draft.of_settle_beside hc h
    rw [Settled.spelling_beside]
    rcases List.mem_cons.mp hl with rfl | hl
    · exact ⟨x, hx, Spelling.infix_beside_left _ _ _⟩
    · obtain ⟨z, hz, hinfix⟩ := ih hl hy
      exact ⟨z, hz, hinfix.trans (Spelling.infix_beside_right _ _ _)⟩

/-- Expressions divided by commas settle one by one. -/
theorem Layout.of_settle_commas {vs : List Value}
    (h : Draft.settle c ((commas (vs.map top)).draft c.shape drafts m) = .ok r) :
    ∃ xs : List Settled,
      List.Forall₂ (fun v x => Draft.settle c (drafts.expr m false v) = .ok x) vs xs ∧
        r.spelling = Spelling.commas (xs.map Settled.spelling) := by
  induction vs generalizing r with
  | nil =>
    cases h
    exact ⟨[], .nil, rfl⟩
  | cons v vs ih =>
    cases vs with
    | nil => exact ⟨[r], .cons h .nil, rfl⟩
    | cons next vs =>
      obtain ⟨first, rest, hfirst, hrest, rfl⟩ := Draft.of_settle_append h
      obtain ⟨x, comma, hx, hcomma, rfl⟩ := Draft.of_settle_append hfirst
      obtain ⟨xs, hxs, hspelling⟩ := ih hrest
      refine ⟨x :: xs, .cons hx hxs, ?_⟩
      cases hxs
      rw [Settled.spelling_append, Settled.spelling_append, Draft.of_settle_text hcomma, hspelling]
      rfl

/-- Values that are sent on one by one are divided by commas. -/
theorem Token.spelling_sendAll (hc : c.inline = false) {vs : List Value}
    (h : sendAll c vs = .ok r) : r.spelling = Spelling.commas (vs.map fun v => [.param v]) := by
  induction vs generalizing r with
  | nil =>
    cases h
    rfl
  | cons v vs ih =>
    cases vs with
    | nil =>
      rw [sendAll, send_of_not_inline hc] at h
      cases h
      rfl
    | cons next vs =>
      rw [sendAll_cons c v (List.cons_ne_nil next vs), send_of_not_inline hc] at h
      obtain ⟨first, hfirst, h⟩ := bind_eq_ok.mp h
      obtain ⟨rest, hrest, h⟩ := bind_eq_ok.mp h
      cases hfirst
      cases h
      rw [Settled.spelling_append, Settled.spelling_text_cons, ih hrest]
      rfl

end Lists

/-! ### Where the candidates stand -/

open Grammar

section Places
variable {c : Context} {r : Settled}

/-- The condition of a statement stands in its text. -/
theorem settled_condition (hc : c.inline = false) {s : Statement} {v : Value}
    (hv : s.get? "where" = some v) (hnull : v.isNull = false)
    (h : Draft.settle c (standard.draftStatement c.shape s) = .ok r) :
    ∃ y, Draft.settle c ((standard.drafters c.shape ((Value.map s).weight + spareDepth - 1)).expr
      { clause := some "where" } false v) = .ok y ∧ y.spelling <:+: r.spelling := by
  obtain ⟨depth, hdepth⟩ : ∃ depth, (Value.map s).weight + spareDepth = depth + 1 :=
    ⟨(Value.map s).weight + spareDepth - 1, by simp only [Value.weight]; omega⟩
  rw [draftStatement, hdepth] at h
  have hlayout : Draft.settle c ((standard.statementLayout c.shape.context s).draft c.shape
      (standard.drafters c.shape depth) {}) = .ok r := h
  have hrule : standard.clauses.rule? "where" = some Clause.condition := rfl
  have hmem : Layout.within "where" (Clause.condition "where" v s) ∈
      (standard.written c.shape.context s).filterMap fun e => standard.clauseLayout? s e.1 e.2 :=
    List.mem_filterMap.mpr
      ⟨_, mem_written c.shape.context hrule hv, by rw [clauseLayout?, hrule]; rfl⟩
  rw [statementLayout_written] at hlayout
  obtain ⟨x, hx, hinfix⟩ := Layout.of_settle_joinKept hc hmem hlayout
  have hne : v ≠ .null := by
    rintro rfl
    cases hnull
  rw [condition_layout hne] at hx
  obtain ⟨y, hy, rfl⟩ := Draft.of_settle_lead hc hx
  rw [Settled.spelling_lead] at hinfix
  rw [hdepth, Nat.add_sub_cancel]
  exact ⟨y, hy, (Spelling.infix_lead _ _).trans hinfix⟩

/-- The candidates of a membership test stand behind its keyword. -/
theorem settled_membership (hc : c.inline = false) {op : String} {subject set : Value}
    (hop : Text.lower op ∈ ["in", "not-in"]) {depth : Nat} {m : Marker}
    (h : Draft.settle c ((standard.drafters c.shape (depth + 1)).expr m false
      (.call op [subject, set])) = .ok r) :
    ∃ m' y, m'.aliasPosition = false ∧
      Draft.settle c ((Form.candidates set).draft c.shape (standard.drafters c.shape depth) m') =
        .ok y ∧
      Spelling.ofText (keyword (Text.lower op) ++ " ") ++ y.spelling <:+: r.spelling := by
  have hlayout : Draft.settle c ((standard.exprLayout m.aliasPosition
      (.call op [subject, set])).draft c.shape (standard.drafters c.shape depth)
        { m with aliasPosition := false, nested := false }) = .ok r := h
  rw [exprLayout_form (form_membership hop)] at hlayout
  obtain ⟨x, hx, rfl⟩ := Draft.of_settle_wrap hc hlayout
  obtain ⟨front, y, hfront, hy, rfl⟩ := Draft.of_settle_append hx
  obtain ⟨tested, word, -, hword, rfl⟩ := Draft.of_settle_append hfront
  cases hword
  refine ⟨_, y, rfl, hy, tested.spelling ++ Spelling.ofText " ", [], ?_⟩
  simp [Spelling.ofText_append]

variable {drafts : Drafters} {m : Marker}

theorem settled_named (hc : c.inline = false) (hcaching : c.caching = false) {set : Value}
    {name : String} (hset : set.paramRef? = some name)
    (h : Draft.settle c ((Form.candidates set).draft c.shape drafts m) = .ok r) :
    ∃ v, Table.get? name c.params = some v ∧
      r.spelling = (Spelling.commas (v.items.map fun w => [.param w])).parens := by
  unfold Form.candidates at h
  rw [hset] at h
  simp only [Layout.draft, Draft.settle_singleton, Token.settle, hcaching] at h
  obtain ⟨v, hv, h⟩ := bind_eq_ok.mp h
  obtain ⟨q, hq, rfl⟩ := map_eq_ok.mp h
  refine ⟨v, Token.get?_of_lookup hv, ?_⟩
  rw [Settled.spelling_parens, Token.spelling_sendAll hc hq]

theorem settled_listed {items : List Value} (hset : (Value.seq items).paramRef? = none)
    (h : Draft.settle c ((Form.candidates (.seq items)).draft c.shape drafts m) = .ok r) :
    ∃ xs : List Settled,
      List.Forall₂ (fun v x => Draft.settle c (drafts.expr m false v) = .ok x) items xs ∧
        r.spelling = (Spelling.commas (xs.map Settled.spelling)).parens := by
  unfold Form.candidates at h
  rw [hset] at h
  obtain ⟨front, close, hfront, hclose, rfl⟩ := Draft.of_settle_append h
  obtain ⟨opening, body, hopening, hbody, rfl⟩ := Draft.of_settle_append hfront
  obtain ⟨xs, hxs, hspelling⟩ := Layout.of_settle_commas hbody
  refine ⟨xs, hxs, ?_⟩
  rw [Settled.spelling_append, Settled.spelling_append, Draft.of_settle_text hopening,
    Draft.of_settle_text hclose, hspelling]
  rfl

end Places

/-! ### Nulls among the candidates -/

/-- The text is a null, or a lone placeholder for one. -/
def Formatted.IsNull (f : Formatted) : Prop := f.sql = "NULL" ∨ f.sql = "?" ∧ f.params = [.null]

/-- After the word the text has the elements in parentheses, divided by commas, and their parameters
are in the same place among the parameters. -/
def Formatted.Shows (f : Formatted) (word : String) (elements : List Formatted) : Prop :=
  ∃ before after : Spelling,
    f.sql = before.text ++ word ++ " (" ++ String.intercalate ", " (elements.map Formatted.sql) ++
      ")" ++ after.text ∧
    f.params = before.params ++ elements.flatMap Formatted.params ++ after.params

/-- What the candidates are written as: those of a list each as on its own, those of a named
parameter as placeholders for its values. -/
def Lists (o : Options) (set : Value) (elements : List Formatted) : Prop :=
  match set.paramRef? with
  | some name =>
    ∃ v, Table.get? name o.params = some v ∧ elements = v.items.map fun w => ⟨"?", [w]⟩
  | none =>
    List.Forall₂ (fun v e => standard.formatExpr v { o with checking := .off } = .ok e) set.items
      elements

/-- The expression is written as a null, or as a lone placeholder for one. -/
def WritesNull (c : Context) (v : Value) : Prop :=
  Terse c false v (.ofText "NULL") ∨ Terse c false v [.param .null]

/-- A null is written among the candidates: the named parameter is null itself, or an item
of the list is written as one. -/
def ListsNull (c : Context) (set : Value) : Prop :=
  match set.paramRef? with
  | some name => Table.get? name c.params = some .null
  | none => ∃ v ∈ set.items, WritesNull c v

namespace Spelling

theorem shows_of_infix {t : Spelling} {word : String} {es : List Spelling}
    (h : ofText (word ++ " ") ++ (commas es).parens <:+: t) :
    t.formatted.Shows word (es.map formatted) := by
  obtain ⟨before, after, rfl⟩ := h
  have hsql : (es.map formatted).map Formatted.sql = es.map text := by
    rw [List.map_map]
    rfl
  have hparams : (es.map formatted).flatMap Formatted.params = es.flatMap params := by
    rw [List.flatMap_map]
    rfl
  refine ⟨before, after, ?_, ?_⟩
  · have hopening : " (" = " " ++ "(" := by decide
    rw [hsql, ← text_commas, hopening]
    simp only [formatted, parens, text_append, text_ofText, ofText_append, String.append_assoc]
  · rw [hparams, ← params_commas]
    simp [formatted, parens, params_append, params_ofText]

theorem isNull_formatted {e : Spelling} :
    e.formatted.IsNull ↔ e = ofText "NULL" ∨ e = [.param .null] := by
  constructor
  · rintro (hsql | ⟨hsql, hparams⟩)
    · -- No mark is shown, so every symbol is the character that it shows.
      have hshown : e.map Symbol.shown = "NULL".toList := by
        rw [← hsql, formatted, text, String.toList_ofList]
      have hchars : ∀ x ∈ e, x = .char x.shown := by
        intro x hx
        cases x with
        | char c => rfl
        | param v =>
          have hmark : '?' ∈ "NULL".toList := hshown ▸ List.mem_map_of_mem hx
          exact absurd hmark (by decide)
      left
      calc e = e.map id := (List.map_id e).symm
        _ = e.map (Symbol.char ∘ Symbol.shown) := List.map_congr_left hchars
        _ = (e.map Symbol.shown).map .char := List.map_map.symm
        _ = ofText "NULL" := by rw [hshown, ofText]
    · have hshown : e.map Symbol.shown = "?".toList := by
        rw [← hsql, formatted, text, String.toList_ofList]
      obtain ⟨x, rfl⟩ : ∃ x, e = [x] := by
        rw [← List.length_eq_one_iff, ← List.length_map Symbol.shown, hshown]
        rfl
      cases x with
      | char c => cases hparams
      | param v =>
        cases hparams
        exact .inr rfl
  · rintro (rfl | rfl)
    · exact .inl (text_ofText "NULL")
    · exact .inr ⟨rfl, rfl⟩

end Spelling

theorem isNull_iff_writesNull {c : Context} (hc : c.inline = false) (hcaching : c.caching = false)
    {depth : Nat} {m : Marker} (hm : m.aliasPosition = false) {v : Value} {x : Settled}
    (h : Draft.settle c ((standard.drafters c.shape depth).expr m false v) = .ok x) :
    x.spelling.formatted.IsNull ↔ WritesNull c v := by
  have hexact := exact_terse hc hcaching depth hm h
  have hword : ¬ (Spelling.ofText "NULL").IsPhrase := by simp
  have hmark : ¬ Spelling.IsPhrase [.param .null] := by simp [Spelling.IsPhrase]
  rw [Spelling.isNull_formatted, WritesNull, hexact.reads_iff hword, hexact.reads_iff hmark]

theorem exists_congr_forall₂ {α β : Type} {P : α → Prop} {Q : β → Prop} {as : List α} {bs : List β}
    (h : List.Forall₂ (fun a b => Q b ↔ P a) as bs) : (∃ b ∈ bs, Q b) ↔ ∃ a ∈ as, P a := by
  induction h with
  | nil => simp
  | cons hhead _ ih => simp only [List.exists_mem_cons_iff, hhead, ih]

/-- What the strict linter accepts has candidates, and none of them is a null. -/
theorem candidates_of_check {s : Statement} {op : String} {subject set : Value}
    {params : Table Value} (hop : Text.lower op ∈ ["in", "not-in"])
    (hwhere : s.get? "where" = some (.call op [subject, set]))
    (hcheck : Lint.check .strict s params = .ok ()) {items : List Value}
    (h : Lint.Candidates params set items) : items ≠ [] ∧ .null ∉ items := by
  have hhead : (Value.ident op).isWord "in" = true ∨ (Value.ident op).isWord "not-in" = true := by
    have hin : Text.lower "in" = "in" := by decide +kernel
    have hnotIn : Text.lower "not-in" = "not-in" := by decide +kernel
    simpa [Value.isWord, Text.sameWord, hin, hnotIn] using hop
  have htest : Lint.TestsIn params (.call op [subject, set]) items :=
    ⟨_, _, _, rfl, hhead, h⟩
  have hreached : (Value.map s).Reaches (.call op [subject, set]) :=
    .entry (Table.mem_of_get? hwhere) (.self _)
  obtain ⟨hbroken, hnull⟩ := (Lint.check_eq_ok_iff (by decide)).mp hcheck _ hreached
  constructor
  · rintro rfl
    exact hbroken (.inr htest)
  · intro hmem
    exact hnull rfl ⟨items, htest, hmem⟩

theorem positional_of_not_numbered {o : Options} (h : o.numbered = false) :
    o.placeholder = .positional := by
  rw [Options.placeholder, h]
  rfl

/-- The candidates are written as a list in parentheses, which has elements, and a null among them
exactly if the candidates list one. -/
def WrittenList (o : Options) (d : Dialect) (set : Value) (s : Spelling) : Prop :=
  ∃ es : List Spelling, s = (Spelling.commas es).parens ∧
    Lists o set (es.map Spelling.formatted) ∧ es ≠ [] ∧
    ((∃ e ∈ es.map Spelling.formatted, e.IsNull) ↔ ListsNull (standard.context o d false) set)

section WrittenLists
variable {o : Options} {d : Dialect} {m : Marker} {y : Settled} {set : Value}

/-- A named parameter with a list is written as placeholders for its items; with any other value
as a placeholder for it. -/
theorem written_named (hinline : o.inline = false) {drafts : Drafters} {name : String}
    (hset : set.paramRef? = some name)
    (haccepted : ∀ items, Lint.Candidates o.params set items → items ≠ [] ∧ .null ∉ items)
    (h : Draft.settle (standard.context o d false) ((Form.candidates set).draft
      (standard.context o d false).shape drafts m) = .ok y) :
    WrittenList o d set y.spelling := by
  obtain ⟨v, hv, hspelling⟩ := settled_named hinline rfl hset h
  refine ⟨_, hspelling, ?_, ?_, ?_⟩
  · simp only [Lists, hset]
    refine ⟨v, hv, ?_⟩
    rw [List.map_map]
    rfl
  · rw [ne_eq, List.map_eq_nil_iff]
    cases v with
    | seq items => exact (haccepted items (.named hset hv)).1
    | _ => exact List.cons_ne_nil _ _
  · have hnull : (∃ e ∈ (v.items.map fun w => [Symbol.param w]).map Spelling.formatted, e.IsNull) ↔
        .null ∈ v.items := by
      simp [Spelling.isNull_formatted, Spelling.ofText]
    simp only [ListsNull, hset]
    rw [hnull, show Table.get? name (standard.context o d false).params = some v from hv,
      Option.some.injEq]
    cases v with
    | seq items => exact iff_of_false (haccepted items (.named hset hv)).2 (by simp)
    | _ => simp [Value.items]

/-- The items of a list are written each as on its own. -/
theorem written_listed (hinline : o.inline = false) (hnumbered : o.numbered = false)
    (hd : standard.resolveDialect o = .ok d) {depth : Nat} {items : List Value}
    (hset : (Value.seq items).paramRef? = none) (hdepth : ∀ v ∈ items, v.weight ≤ depth)
    (hm : m.aliasPosition = false) (hne : items ≠ [])
    (h : Draft.settle (standard.context o d false) ((Form.candidates (.seq items)).draft
      (standard.context o d false).shape
      (standard.drafters (standard.context o d false).shape depth) m) = .ok y) :
    WrittenList o d (.seq items) y.spelling := by
  obtain ⟨xs, hxs, hspelling⟩ := settled_listed hset h
  refine ⟨_, hspelling, ?_, ?_, ?_⟩
  · simp only [Lists, hset, List.map_map]
    rw [List.forall₂_map_right_iff]
    refine ((List.forall₂_and_left _ _).mpr ⟨hdepth, hxs⟩).imp ?_
    rintro v x ⟨hv, hx⟩
    have hfresh : ({} : Marker).aliasPosition = false := rfl
    rw [settle_expr_eq hinline hv (Nat.le_add_right v.weight spareDepth) hm hfresh] at hx
    rw [formatExpr_unchecked hinline hd, draftExpr, hx]
    exact congrArg Except.ok (Settled.formatted_spelling (positional_of_not_numbered hnumbered)
      (Draft.settle_literal rfl hx))
  · rintro hnil
    rw [List.map_eq_nil_iff] at hnil
    rw [hnil, List.forall₂_nil_right_iff] at hxs
    exact hne hxs
  · simp only [ListsNull, hset, List.map_map]
    refine exists_congr_forall₂ (List.forall₂_map_right_iff.mpr (hxs.imp fun v x hx => ?_))
    exact isNull_iff_writesNull hinline rfl hm hx

theorem written_candidates (hinline : o.inline = false) (hnumbered : o.numbered = false)
    (hd : standard.resolveDialect o = .ok d) {depth : Nat}
    (hset : set.paramRef?.isSome = true ∨ set.seq?.isSome = true) (hdepth : set.weight ≤ depth)
    (hm : m.aliasPosition = false)
    (haccepted : ∀ items, Lint.Candidates o.params set items → items ≠ [] ∧ .null ∉ items)
    (h : Draft.settle (standard.context o d false) ((Form.candidates set).draft
      (standard.context o d false).shape
      (standard.drafters (standard.context o d false).shape depth) m) = .ok y) :
    WrittenList o d set y.spelling := by
  cases hname : set.paramRef? with
  | some name => exact written_named hinline hname haccepted h
  | none =>
    rw [hname] at hset
    cases set with
    | seq items =>
      have hitems : ∀ v ∈ items, v.weight ≤ depth :=
        fun v hv => Nat.le_trans (Value.weight_le_of_mem_seq hv) hdepth
      exact written_listed hinline hnumbered hd hname hitems hm
        (haccepted items (.listed items)).1 h
    | _ => simp [Value.seq?] at hset

end WrittenLists

namespace Grammar

/-- **A membership test that the strict linter accepts lists a null only if the list hides one.**
There is always a candidate, and one of them is written as a null exactly when the named parameter
is null itself or an item is written as one. -/
theorem accepted_candidates {s : Statement} {op : String} {subject set : Value} {o : Options}
    {f : Formatted} (hop : Text.lower op ∈ ["in", "not-in"])
    (hset : set.paramRef?.isSome = true ∨ set.seq?.isSome = true)
    (hwhere : s.get? "where" = some (.call op [subject, set])) (hinline : o.inline = false)
    (hnumbered : o.numbered = false) (hcheck : Lint.check .strict s o.params = .ok ())
    (hf : standard.format s o = .ok f) :
    ∃ d elements, standard.resolveDialect o = .ok d ∧ Lists o set elements ∧
      f.Shows (keyword (Text.lower op)) elements ∧ elements ≠ [] ∧
      ((∃ e ∈ elements, e.IsNull) ↔ ListsNull (standard.context o d false) set) := by
  obtain ⟨d, r, hadmissible, hr, rfl⟩ := standard_plain.exists_settled hinline hf
  have hd := resolveDialect_of_admissible hadmissible
  rw [Settled.formatted_spelling (positional_of_not_numbered hnumbered)
    (Draft.settle_literal rfl hr)]
  obtain ⟨depth, hdepth⟩ : ∃ depth, (Value.map s).weight + spareDepth - 1 = depth + 1 :=
    ⟨(Value.map s).weight + spareDepth - 2, by simp only [spareDepth]; omega⟩
  obtain ⟨x, hx, hcondition⟩ := settled_condition hinline hwhere rfl hr
  rw [hdepth] at hx
  obtain ⟨m, y, hm, hy, hword⟩ := settled_membership hinline hop hx
  have hcovered : set.weight ≤ depth := by
    have hlist : set.weight ≤ (Value.call op [subject, set]).weight :=
      Value.weight_le_of_mem_seq (by simp)
    have hclause := Value.weight_le_of_get? hwhere
    simp only [Value.weight, spareDepth] at hdepth
    omega
  obtain ⟨es, hspelling, hlists, hne, hnull⟩ := written_candidates hinline hnumbered hd hset
    hcovered hm (fun items => candidates_of_check hop hwhere hcheck) hy
  rw [hspelling] at hword
  refine ⟨d, es.map Spelling.formatted, hd, hlists,
    Spelling.shows_of_infix (hword.trans hcondition), ?_, hnull⟩
  rwa [ne_eq, List.map_eq_nil_iff]

/-- An item that refers to a parameter is not looked up by the linter. -/
theorem accepted_candidates_reference :
    Lint.check .strict [("select", .seq [.ident "*"]), ("from", .ident "t"),
        ("where", .call "not-in" [.ident "id", .seq [.int 1, .ident "?x"]])]
        [("x", .null)] = .ok () ∧
    standard.format [("select", .seq [.ident "*"]), ("from", .ident "t"),
        ("where", .call "not-in" [.ident "id", .seq [.int 1, .ident "?x"]])]
        { params := [("x", .null)] } =
      .ok ⟨"SELECT * FROM t WHERE id NOT IN (?, ?)", [.int 1, .null]⟩ ∧
    ∃ elements, Lists { params := [("x", .null)] } (.seq [.int 1, .ident "?x"]) elements ∧
      elements ≠ [] ∧ ∃ e ∈ elements, e.IsNull := by
  have hcheck : Lint.check .strict [("select", .seq [.ident "*"]), ("from", .ident "t"),
      ("where", .call "not-in" [.ident "id", .seq [.int 1, .ident "?x"]])]
      [("x", .null)] = .ok () :=
    eq_ok_of_toOption (by decide +kernel)
  have hformat : standard.format [("select", .seq [.ident "*"]), ("from", .ident "t"),
      ("where", .call "not-in" [.ident "id", .seq [.int 1, .ident "?x"]])]
      { params := [("x", .null)] } =
        .ok ⟨"SELECT * FROM t WHERE id NOT IN (?, ?)", [.int 1, .null]⟩ := by
    have hkeep : keep { params := [("x", .null)] }
        (standard.evalStatement (standard.context { params := [("x", .null)] } .ansi false)
          [("select", .seq [.ident "*"]), ("from", .ident "t"),
            ("where", .call "not-in" [.ident "id", .seq [.int 1, .ident "?x"]])]) =
          .ok ⟨"SELECT * FROM t WHERE id NOT IN (?, ?)", [.literal (.int 1), .literal .null]⟩ := by
      rw [evalStatement_of_ordered (by decide +kernel)]
      decide +kernel
    rw [format_params, hkeep]
    rfl
  refine ⟨hcheck, hformat, ?_⟩
  have hop : Text.lower "not-in" ∈ ["in", "not-in"] := by decide +kernel
  obtain ⟨d, elements, -, hlists, -, hne, hnull⟩ :=
    accepted_candidates hop (.inr rfl) rfl rfl rfl hcheck hformat
  have hname : Text.stripLeading? '?' "?x" = some "x" := rfl
  exact ⟨elements, hlists, hne,
    hnull.mpr ⟨.ident "?x", by simp [Value.items], .inr (.named hname (by decide) rfl)⟩⟩

/-- The linter passes a named parameter that is null, and the test is for membership in a list of
one null. -/
theorem null_accepted :
    Lint.check .strict [("select", .seq [.ident "*"]), ("from", .ident "t"),
        ("where", .call "in" [.ident "id", .ident "?x"])] [("x", .null)] = .ok () ∧
    standard.format [("select", .seq [.ident "*"]), ("from", .ident "t"),
        ("where", .call "in" [.ident "id", .ident "?x"])] { params := [("x", .null)] } =
      .ok ⟨"SELECT * FROM t WHERE id IN (?)", [.null]⟩ := by
  refine ⟨eq_ok_of_toOption (by decide +kernel), ?_⟩
  have hkeep : keep { params := [("x", .null)] }
      (standard.evalStatement (standard.context { params := [("x", .null)] } .ansi false)
        [("select", .seq [.ident "*"]), ("from", .ident "t"),
          ("where", .call "in" [.ident "id", .ident "?x"])]) =
        .ok ⟨"SELECT * FROM t WHERE id IN (?)", [.literal .null]⟩ := by
    rw [evalStatement_of_ordered (by decide +kernel)]
    decide +kernel
  rw [format_params, hkeep]
  rfl

end Grammar
end Clausal
