import Clausal.Proofs.Draft.Format

/-! # Named parameters

The values of named parameters do not reach the SQL text.  The only trace they
leave is how many elements a list has where it is expanded after `IN`: two tables
with the same names and the same element counts give the same text and equally
many parameters, or the same fault (`Grammar.text_independent_of_values`).

The two runs settle one draft.  Token by token, the outlines of what they make of it
agree, and the text is a function of the outline.
-/
namespace Clausal

/-- The length of a list; any other value counts as one element. -/
def Value.count : Value → Nat
  | .seq items => items.length
  | _ => 1

theorem Value.length_items (v : Value) : v.items.length = v.count := by
  cases v <;> rfl

/-- The tables have the same names, with equally many elements under each. -/
def Table.Congruent (P Q : Table Value) : Prop :=
  ∀ name, (Table.get? name P).map Value.count = (Table.get? name Q).map Value.count

/-- One fault, or one text with equally many parameters. -/
def SameText (a b : Except Fault Formatted) : Prop :=
  (∃ e, a = .error e ∧ b = .error e) ∨
    ∃ (sql : String) (params params' : List Value), params.length = params'.length ∧
      a = .ok ⟨sql, params⟩ ∧ b = .ok ⟨sql, params'⟩

/-- The outline of a list of `n` bound values. -/
def Outline.list : Nat → Outline
  | 0 => []
  | 1 => [none]
  | n + 2 => none :: some ", " :: list (n + 1)

/-- One fault, or settled text of one outline. -/
def SameOutline (x y : Except Fault Settled) : Prop :=
  (∃ e, x = .error e ∧ y = .error e) ∨
    ∃ r q, x = .ok r ∧ y = .ok q ∧ r.outline = q.outline

/-- Two contexts that bind parameters, from tables with the same counts. -/
structure Context.Paired (c c' : Context) : Prop where
  inline : c.inline = false
  inline' : c'.inline = false
  caching : c.caching = c'.caching
  params : Table.Congruent c.params c'.params

namespace Token
variable {c c' : Context}

/-- What a bound list looks like depends on its length only. -/
theorem outline_sendAll (hc : c.inline = false) (vs : List Value) :
    ∃ r, sendAll c vs = .ok r ∧ r.outline = Outline.list vs.length := by
  induction vs with
  | nil => exact ⟨[], rfl, rfl⟩
  | cons v vs ih =>
    cases vs with
    | nil => exact ⟨[.slot (.literal v)], send_of_not_inline hc v, rfl⟩
    | cons w ws =>
      obtain ⟨r, hr, hout⟩ := ih
      refine ⟨[.slot (.literal v)] ++ .text ", " :: r, ?_, ?_⟩
      · rw [sendAll_cons c v (List.cons_ne_nil w ws), send_of_not_inline hc, hr]
        rfl
      · exact congrArg (fun o : Outline => none :: some ", " :: o) hout

/-- A name is bound in both contexts, to equally many elements, or in neither. -/
theorem lookup_paired (h : c.Paired c') (name : String) :
    (∃ e, lookup c name = .error e ∧ lookup c' name = .error e) ∨
      ∃ v w, lookup c name = .ok v ∧ lookup c' name = .ok w ∧ v.count = w.count := by
  have hcount := h.params name
  unfold lookup
  cases hP : Table.get? name c.params with
  | none =>
    cases hQ : Table.get? name c'.params with
    | none => exact .inl ⟨_, rfl, rfl⟩
    | some w => simp [hP, hQ] at hcount
  | some v =>
    cases hQ : Table.get? name c'.params with
    | none => simp [hP, hQ] at hcount
    | some w => exact .inr ⟨v, w, rfl, rfl, by simpa [hP, hQ] using hcount⟩

/-- **Both contexts make of a token the same outline**, or fail alike. -/
theorem sameOutline_settle (h : c.Paired c') (t : Token) :
    SameOutline (t.settle c) (t.settle c') := by
  cases t with
  | text s => exact .inr ⟨_, _, rfl, rfl, rfl⟩
  | value v =>
    exact .inr ⟨_, _, send_of_not_inline h.inline v, send_of_not_inline h.inline' v, rfl⟩
  | named name =>
    rw [settle, settle, h.caching, h.inline, h.inline']
    split
    · exact .inr ⟨_, _, rfl, rfl, rfl⟩
    · rcases lookup_paired h name with ⟨e, hv, hw⟩ | ⟨v, w, hv, hw, -⟩
      · rw [hv, hw]
        exact .inl ⟨e, rfl, rfl⟩
      · rw [hv, hw]
        exact .inr ⟨_, _, send_of_not_inline h.inline v, send_of_not_inline h.inline' w, rfl⟩
  | namedList name =>
    -- The one place where a value decides how much is written.
    rw [settle, settle, h.caching]
    split
    · exact .inl ⟨_, rfl, rfl⟩
    · rcases lookup_paired h name with ⟨e, hv, hw⟩ | ⟨v, w, hv, hw, hcount⟩
      · rw [hv, hw]
        exact .inl ⟨e, rfl, rfl⟩
      · obtain ⟨a, ha, houta⟩ := outline_sendAll h.inline v.items
        obtain ⟨b, hb, houtb⟩ := outline_sendAll h.inline' w.items
        have hout : a.outline = b.outline := by
          rw [houta, houtb, Value.length_items, Value.length_items, hcount]
        rw [hv, hw, Except.bind, Except.bind, ha, hb]
        exact .inr ⟨_, _, rfl, rfl, by rw [Settled.outline_parens, Settled.outline_parens, hout]⟩
  | fault e => exact .inl ⟨e, rfl, rfl⟩

end Token

theorem Draft.sameOutline_settle {c c' : Context} (h : c.Paired c') (d : Draft) :
    SameOutline (settle c d) (settle c' d) := by
  induction d with
  | nil => exact .inr ⟨_, _, rfl, rfl, rfl⟩
  | cons t d ih =>
    rw [settle_cons, settle_cons]
    rcases Token.sameOutline_settle h t with ⟨e, ha, hb⟩ | ⟨a, b, ha, hb, hfirst⟩
    · rw [ha, hb]
      exact .inl ⟨e, rfl, rfl⟩
    · rw [ha, hb]
      rcases ih with ⟨e, hr, hq⟩ | ⟨r, q, hr, hq, hrest⟩
      · rw [hr, hq]
        exact .inl ⟨e, rfl, rfl⟩
      · rw [hr, hq]
        refine .inr ⟨a ++ r, b ++ q, rfl, rfl, ?_⟩
        rw [Settled.outline_append, Settled.outline_append, hfirst, hrest]

namespace Grammar

theorem sameText_bind (g : Grammar) (o : Options) (admitted : Except Fault Dialect)
    (draft : Shape → Draft) {P Q : Table Value} (h : Table.Congruent P Q) :
    SameText
      (admitted.bind fun d => g.formatDraft { o with inline := false, params := P } d draft)
      (admitted.bind fun d => g.formatDraft { o with inline := false, params := Q } d draft) := by
  cases admitted with
  | error e => exact .inl ⟨e, rfl, rfl⟩
  | ok d =>
    have hpaired : (g.context { o with inline := false, params := P } d false).Paired
        (g.context { o with inline := false, params := Q } d false) := ⟨rfl, rfl, rfl, h⟩
    have hshape : (g.context { o with inline := false, params := P } d false).shape =
        (g.context { o with inline := false, params := Q } d false).shape := rfl
    simp only [Except.bind, formatDraft_eq, hshape]
    rcases Draft.sameOutline_settle hpaired (draft (g.context
        { o with inline := false, params := Q } d false).shape) with
      ⟨e, hr, hq⟩ | ⟨r, q, hr, hq, hout⟩
    · rw [hr, hq]
      exact .inl ⟨e, rfl, rfl⟩
    · have hlen : r.values.length = q.values.length := by
        rw [(Draft.settle_literal rfl hr).length_values,
          (Draft.settle_literal rfl hq).length_values,
          ← Settled.length_rest, ← Settled.length_rest, hout]
      rw [hr, hq]
      refine .inr ⟨_, r.values, q.values, hlen, rfl, ?_⟩
      simp only [Except.map, Settled.formatted]
      rw [hout, hlen]
      rfl

/-- **The text does not depend on the values of named parameters.**  Unless values are
written into the text, statements and expressions of the standard grammar that are
not checked come out alike under any two tables with the same names and counts. -/
theorem text_independent_of_values (o : Options) {P Q : Table Value}
    (h : Table.Congruent P Q) :
    (∀ s, SameText
      (standard.format s { o with inline := false, checking := .off, params := P })
      (standard.format s { o with inline := false, checking := .off, params := Q })) ∧
    ∀ v, SameText
      (standard.formatExpr v { o with inline := false, checking := .off, params := P })
      (standard.formatExpr v { o with inline := false, checking := .off, params := Q }) := by
  have hsolid : ∀ R d l, Draft.Solid (standard.context
      { o with inline := false, checking := .off, params := R } d false) l :=
    fun _ _ l => Draft.solid_of_not_inline rfl l
  constructor
  · intro s
    rw [standard_plain.format_eq s _ fun d _ => hsolid _ d _,
      standard_plain.format_eq s _ fun d _ => hsolid _ d _]
    exact sameText_bind standard { o with checking := .off } _ _ h
  · intro v
    rw [standard_plain.formatExpr_eq v _ fun d _ => hsolid _ d _,
      standard_plain.formatExpr_eq v _ fun d _ => hsolid _ d _]
    cases v <;> exact sameText_bind standard { o with checking := .off } _ _ h

/-- A number and a list of one string count alike, also where the list is expanded. -/
theorem text_independent_of_values_single :
    Table.Congruent [("ids", .int 7)] [("ids", .seq [.str "x"])] ∧
    SameText
      (standard.formatExpr (.call "in" [.ident "id", .ident "?ids"])
        { params := [("ids", .int 7)] })
      (standard.formatExpr (.call "in" [.ident "id", .ident "?ids"])
        { params := [("ids", .seq [.str "x"])] }) := by
  have h : Table.Congruent [("ids", .int 7)] [("ids", .seq [.str "x"])] := by
    intro name
    by_cases hname : "ids" = name <;> simp [Table.get?, hname, Value.count]
  exact ⟨h, (text_independent_of_values {} h).2 _⟩

end Grammar
end Clausal
