import Clausal.Proofs.Draft.Evaluation
import Clausal.Proofs.Literal
import Clausal.Proofs.QualifiedName

/-! # Layouts with and without text

A layout is *worded* when some text of its own is never empty, and *phrased* when such a text has a
blank or an opening bracket.  A layout without words has text or not as the expressions and values
inside it have (`Layout.Silent`).  Both are read off the layout; for evaluation they mean that the
SQL is not empty, and that it is empty (`Layout.isEmpty_eval`).

A value becomes empty text only where values are written into the text, and only if it is
the empty name.
-/
namespace Clausal

/-! ### Empty SQL -/

theorem intercalate_eq_empty {sep : String} {texts : List String} (hne : ∀ text ∈ texts, text ≠ "")
    (h : String.intercalate sep texts = "") : texts = [] := by
  match texts with
  | [] => rfl
  | [text] =>
    rw [String.intercalate_singleton] at h
    exact absurd h (hne text List.mem_cons_self)
  | text :: next :: rest =>
    rw [String.intercalate_cons_cons, String.append_eq_empty_iff,
      String.append_eq_empty_iff] at h
    exact absurd h.1.1 (hne text List.mem_cons_self)

namespace Sql

theorem isEmpty_ofText (s : String) : isEmpty (ofText s) = s.isEmpty := by
  simp [isEmpty, ofText, Piece.isEmpty]

theorem isEmpty_parens (sql : Sql) : isEmpty sql.parens = false := by
  simp [parens, isEmpty_ofText]

theorem isEmpty_beside (sep : String) (a b : Sql) :
    isEmpty (beside sep a b) = (isEmpty a && isEmpty b) := by
  unfold beside
  split
  · rename_i ha
    rw [ha, Bool.true_and]
  · rename_i ha
    split
    · rename_i hb
      rw [hb, Bool.and_true]
    · rename_i hb
      simp [ha]

/-- SQL is empty when its text is, however holes are written. -/
theorem isEmpty_iff_render (p : Placeholder) (sql : Sql) :
    isEmpty sql = true ↔ render p sql = "" := by
  induction sql with
  | nil => simp [isEmpty]
  | cons piece sql ih =>
    have hrender : render p (piece :: sql) = piece.render p ++ render p sql := by
      simp [render]
    have hpiece : piece.isEmpty = true ↔ piece.render p = "" := by
      cases piece with
      | text s => simp [Piece.isEmpty, Piece.render]
      | hole n => cases p <;> simp [Piece.isEmpty, Piece.render]
    rw [hrender, String.append_eq_empty_iff, ← hpiece, ← ih]
    simp [isEmpty]

theorem render_ofText (p : Placeholder) (s : String) : render p (ofText s) = s := by
  simp [ofText, render, Piece.render]

/-- Parts divided by a separator: those without text are left out. -/
theorem render_beside (p : Placeholder) (sep : String) (parts : List Sql) :
    render p (parts.foldr (beside sep) (ofText "")) =
      String.intercalate sep ((parts.map (render p)).filter (· ≠ "")) := by
  induction parts with
  | nil => rfl
  | cons sql parts ih =>
    rw [List.foldr_cons, List.map_cons, beside]
    by_cases hsql : isEmpty sql = true
    · rw [if_pos hsql, ih, (isEmpty_iff_render p sql).mp hsql]
      rfl
    · have hne : render p sql ≠ "" := fun h => hsql ((isEmpty_iff_render p sql).mpr h)
      rw [if_neg hsql, List.filter_cons_of_pos (by simpa using hne)]
      -- What follows has no text if no text is kept of it.
      cases hkept : (parts.map (render p)).filter (· ≠ "") with
      | nil =>
        rw [hkept] at ih
        rw [if_pos ((isEmpty_iff_render p _).mpr ih), String.intercalate_singleton]
      | cons text texts =>
        have hrest : ¬ isEmpty (parts.foldr (beside sep) (ofText "")) = true := by
          intro hempty
          rw [(isEmpty_iff_render p _).mp hempty] at ih
          have hnil := intercalate_eq_empty (fun text htext => by
            simpa using (List.mem_filter.mp htext).2) ih.symm
          rw [hkept] at hnil
          cases hnil
        rw [if_neg hrest, render_append, render_append, ih, hkept, String.intercalate_cons_cons,
          render_ofText]

end Sql

/-! ### Runs that succeed -/

namespace Run
variable {α β : Type} {x : Run α} {f : α → Run β} {s t : Session}

theorem of_bind_ok {b : β} (h : (x >>= f) s = (.ok b, t)) :
    ∃ a u, x s = (.ok a, u) ∧ f a u = (.ok b, t) := by
  cases hx : x s with
  | mk result u =>
    cases result with
    | error e =>
      rw [bind_error hx] at h
      cases h
    | ok a => exact ⟨a, u, rfl, by rwa [bind_ok hx] at h⟩

theorem of_pure_ok {a b : α} (h : (pure a : Run α) s = (.ok b, t)) : a = b ∧ s = t := by
  have heq : (Except.ok a, s) = (Except.ok b, t) := h
  cases heq
  exact ⟨rfl, rfl⟩

theorem of_throw_ok {e : Fault} {a : α} : (throw e : Run α) s ≠ (.ok a, t) := by
  intro h
  have heq : (Except.error e, s) = ((Except.ok a : Except Fault α), t) := h
  cases heq

/-- Every item is run in some session. -/
theorem of_mapM_ok {items : List α} {parts : List β} (h : items.mapM f s = (.ok parts, t)) {a : α}
    (ha : a ∈ items) : ∃ u w b, f a u = (.ok b, w) ∧ b ∈ parts := by
  induction items generalizing s parts with
  | nil => cases ha
  | cons first items ih =>
    rw [List.mapM_cons] at h
    obtain ⟨b, u, hb, h⟩ := of_bind_ok h
    obtain ⟨rest, w, hrest, h⟩ := of_bind_ok h
    obtain ⟨rfl, rfl⟩ := of_pure_ok h
    rcases List.mem_cons.mp ha with rfl | ha
    · exact ⟨s, u, b, hb, List.mem_cons_self⟩
    · obtain ⟨u', w', b', hb', hmem⟩ := ih hrest ha
      exact ⟨u', w', b', hb', List.mem_cons_of_mem b hmem⟩

/-- Items may be run with a tag on what they give. -/
theorem mapM_eq_tagged {γ : Type} (tag : α → γ) (f : α → Run β) (items : List α) :
    items.mapM f = (do
      let tagged ← items.mapM fun a => return (tag a, ← f a)
      return tagged.map Prod.snd) := by
  induction items with
  | nil => simp
  | cons a items ih =>
    rw [List.mapM_cons, List.mapM_cons, ih]
    simp

theorem of_under_ok {change : Marker → Marker} {body : Run α} {a : α}
    (h : under change body s = (.ok a, t)) :
    ∃ u, body { s with marker := change s.marker } = (.ok a, u) ∧ t.marker = s.marker := by
  unfold under at h
  cases hbody : body { s with marker := change s.marker } with
  | mk result u =>
    simp only [ExceptT.run, hbody] at h
    cases h
    exact ⟨u, rfl, rfl⟩

end Run

/-- The context writes the value as nothing. -/
def Context.Omits (c : Context) (v : Value) : Prop := c.inline = true ∧ v = .ident ""

namespace Run
variable {c : Context} {s t : Session} {sql : Sql}

theorem isEmpty_ofLiteral {v : Value} (h : ofLiteral v.literal s = (.ok sql, t)) :
    (sql.isEmpty = true ↔ v = .ident "") ∧ t.marker = s.marker := by
  cases hv : v.literal with
  | error e =>
    rw [hv] at h
    cases h
  | ok text =>
    rw [hv] at h
    cases h
    refine ⟨?_, rfl⟩
    rw [Sql.isEmpty_ofText, String.isEmpty_iff]
    constructor
    · rintro rfl
      exact Classical.byContradiction fun hne => Value.literal_ne_empty hne hv
    · rintro rfl
      have hempty : (Value.ident "").literal = .ok "" :=
        eq_ok_of_toOption (by decide +kernel)
      rw [hv] at hempty
      exact Except.ok.inj hempty

theorem isEmpty_bind {slot : Slot} (h : Run.bind slot s = (.ok sql, t)) :
    sql.isEmpty = false ∧ t.marker = s.marker := by
  cases h
  exact ⟨rfl, rfl⟩

theorem isEmpty_value {v : Value} (h : value c v s = (.ok sql, t)) :
    (sql.isEmpty = true ↔ c.Omits v) ∧ t.marker = s.marker := by
  unfold value at h
  unfold Context.Omits
  cases hc : c.inline with
  | true =>
    rw [hc, if_pos rfl] at h
    simpa using isEmpty_ofLiteral h
  | false =>
    rw [hc] at h
    obtain ⟨hsql, hmarker⟩ := isEmpty_bind h
    exact ⟨by simp [hsql], hmarker⟩

theorem lookup_ok {name : String} {v : Value} (h : lookup c name s = (.ok v, t)) :
    Table.get? name c.params = some v ∧ t = s := by
  unfold lookup at h
  cases hv : Table.get? name c.params with
  | none =>
    rw [hv] at h
    exact absurd h of_throw_ok
  | some w =>
    rw [hv] at h
    obtain ⟨rfl, rfl⟩ := of_pure_ok h
    exact ⟨rfl, rfl⟩

theorem isEmpty_namedList {name : String} (h : namedList c name s = (.ok sql, t)) :
    sql.isEmpty = false := by
  unfold namedList at h
  split at h
  · exact absurd h of_throw_ok
  · obtain ⟨v, u, -, h⟩ := of_bind_ok h
    split at h
    · obtain ⟨x, w, -, h⟩ := of_bind_ok h
      obtain ⟨rfl, -⟩ := of_pure_ok h
      exact Sql.isEmpty_parens x
    · obtain ⟨x, w, -, h⟩ := of_bind_ok h
      obtain ⟨rfl, -⟩ := of_pure_ok h
      exact Sql.isEmpty_parens x

theorem isEmpty_named {name : String} (h : named c name s = (.ok sql, t)) :
    (sql.isEmpty = true ↔ ∃ v, Table.get? name c.params = some v ∧ c.Omits v) ∧
      t.marker = s.marker := by
  unfold named at h
  unfold Context.Omits
  cases hc : c.inline with
  | true =>
    rw [hc, if_pos rfl] at h
    obtain ⟨v, u, hlookup, hliteral⟩ := of_bind_ok h
    obtain ⟨hv, rfl⟩ := lookup_ok hlookup
    obtain ⟨hsql, hmarker⟩ := isEmpty_ofLiteral hliteral
    exact ⟨by simp [hsql, hv], hmarker⟩
  | false =>
    rw [hc] at h
    suffices hhole : sql.isEmpty = false ∧ t.marker = s.marker from
      ⟨by simp [hhole.1], hhole.2⟩
    -- A hole is left for the value, or for the name.
    cases hcaching : c.caching with
    | true =>
      rw [hcaching] at h
      exact isEmpty_bind h
    | false =>
      rw [hcaching] at h
      obtain ⟨v, u, hlookup, hbind⟩ := of_bind_ok h
      obtain ⟨-, rfl⟩ := lookup_ok hlookup
      exact isEmpty_bind hbind

end Run

/-! ### Worded layouts -/

/-- There is a blank or an opening bracket. -/
@[simp] def Text.IsPhrase (s : String) : Prop := ∃ c ∈ [' ', '(', '['], c ∈ s.toList

namespace Layout

/-- Some text of the layout is never empty.  A layout that fails counts as worded. -/
@[simp] def Worded : Layout → Prop
  | .text s => s ≠ ""
  | .fail _ _ => True
  | .entity _ => True
  | .aliasName _ => True
  | .aliasMark => True
  | .missing _ => True
  | .namedList _ => True
  | .append a b => a.Worded ∨ b.Worded
  | .beside _ a b => a.Worded ∨ b.Worded
  | .lead _ body => body.Worded
  | .wrap body => body.Worded
  | .within _ body => body.Worded
  | _ => False

/-- Some text of the layout has a blank or an opening bracket.  A layout that fails counts. -/
@[simp] def Phrased : Layout → Prop
  | .text s => Text.IsPhrase s
  | .fail _ _ => True
  | .namedList _ => True
  | .append a b => a.Phrased ∨ b.Phrased
  | .beside _ a b => a.Phrased ∨ b.Phrased
  | .lead _ body => body.Phrased
  | .wrap body => body.Phrased
  | .within _ body => body.Phrased
  | _ => False

/-- Blanks and brackets are words. -/
theorem Phrased.worded {l : Layout} (h : l.Phrased) : l.Worded := by
  induction l with
  | text s =>
    rintro rfl
    obtain ⟨c, -, hc⟩ := h
    simp at hc
  | append a b iha ihb => exact h.imp iha ihb
  | beside sep a b iha ihb => exact h.imp iha ihb
  | lead s body ih => exact ih h
  | wrap body ih => exact ih h
  | within tag body ih => exact ih h
  | fail complaint fragment => trivial
  | namedList name => trivial
  | _ => exact h.elim

/-- The layout has no text, if `hollow` tells which expressions have none. -/
@[simp] def Silent (c : Context) (hollow : Value → Prop) : Layout → Prop
  | .text s => s = ""
  | .value v => c.Omits v
  | .named name => ∃ v, Table.get? name c.params = some v ∧ c.Omits v
  | .literal v => v = .ident ""
  | .expr _ v => hollow v
  | .append a b => a.Silent c hollow ∧ b.Silent c hollow
  | .beside _ a b => a.Silent c hollow ∧ b.Silent c hollow
  | .lead _ body => body.Silent c hollow
  | .wrap body => body.Silent c hollow
  | .within _ body => body.Silent c hollow
  | _ => False

/-- The layout holds no list of a named parameter, no expression with an alias and no statement, and
leaves the session alone. -/
@[simp] def Bare : Layout → Prop
  | .namedList _ => False
  | .aliased _ => False
  | .statement _ => False
  | .observe _ => False
  | .bind _ => False
  | .setAlias _ => False
  | .append a b => a.Bare ∧ b.Bare
  | .beside _ a b => a.Bare ∧ b.Bare
  | .lead _ body => body.Bare
  | .wrap body => body.Bare
  | .within _ body => body.Bare
  | _ => True

theorem not_silent_of_worded {c : Context} {hollow : Value → Prop} {l : Layout} (h : l.Worded) :
    ¬ l.Silent c hollow := by
  induction l with
  | append a b iha ihb =>
    rintro ⟨ha, hb⟩
    rcases h with h | h
    · exact iha h ha
    · exact ihb h hb
  | beside sep a b iha ihb =>
    rintro ⟨ha, hb⟩
    rcases h with h | h
    · exact iha h ha
    · exact ihb h hb
  | lead s body ih => exact ih h
  | wrap body ih => exact ih h
  | within tag body ih => exact ih h
  | text s => exact h
  | _ => simp_all

end Layout

/-- Names are never written as nothing. -/
def NameStyle.Visible (style : NameStyle) : Prop := ∀ s, style.part s ≠ ""

theorem NameStyle.Visible.entity_ne_empty {style : NameStyle} (h : style.Visible) (name : String) :
    style.entity name ≠ "" := by
  unfold entity
  cases hparts : nameParts name with
  | nil => exact absurd hparts (nameParts_ne_nil name)
  | cons part parts =>
    cases parts with
    | nil => simpa using h part
    | cons next parts => simp [String.intercalate_cons_cons]

/-- Evaluators of expressions give empty SQL exactly for hollow ones, where no alias may
stand, and put the marker back. -/
def Evaluators.Tell (sub : Evaluators) (hollow : Value → Prop) : Prop :=
  ∀ {nested : Bool} {v : Value} {s t : Session} {sql : Sql}, s.marker.aliasPosition = false →
    sub.expr nested v s = (.ok sql, t) → (sql.isEmpty = true ↔ hollow v) ∧ t.marker = s.marker

namespace Layout
variable {c : Context} {sub : Evaluators} {hollow : Value → Prop} {a b body : Layout}
  {s t : Session} {sql : Sql}

theorem of_append_ok (h : (append a b).eval c sub s = (.ok sql, t)) :
    ∃ x u y, a.eval c sub s = (.ok x, u) ∧ b.eval c sub u = (.ok y, t) ∧
      sql.isEmpty = (x.isEmpty && y.isEmpty) := by
  obtain ⟨x, u, ha, h⟩ := Run.of_bind_ok h
  obtain ⟨y, w, hb, h⟩ := Run.of_bind_ok h
  obtain ⟨rfl, rfl⟩ := Run.of_pure_ok h
  exact ⟨x, u, y, ha, hb, Sql.isEmpty_append x y⟩

theorem of_beside_ok {sep : String} (h : (beside sep a b).eval c sub s = (.ok sql, t)) :
    ∃ x u y, a.eval c sub s = (.ok x, u) ∧ b.eval c sub u = (.ok y, t) ∧
      sql.isEmpty = (x.isEmpty && y.isEmpty) := by
  obtain ⟨x, u, ha, h⟩ := Run.of_bind_ok h
  obtain ⟨y, w, hb, h⟩ := Run.of_bind_ok h
  obtain ⟨rfl, rfl⟩ := Run.of_pure_ok h
  exact ⟨x, u, y, ha, hb, Sql.isEmpty_beside sep x y⟩

theorem of_lead_ok {text : String} (h : (lead text body).eval c sub s = (.ok sql, t)) :
    ∃ x, body.eval c sub s = (.ok x, t) ∧ sql.isEmpty = x.isEmpty := by
  obtain ⟨x, u, hbody, h⟩ := Run.of_bind_ok h
  obtain ⟨rfl, rfl⟩ := Run.of_pure_ok h
  refine ⟨x, hbody, ?_⟩
  by_cases hx : x.isEmpty = true
  · rw [if_pos hx, hx]
    rfl
  · rw [Bool.not_eq_true] at hx
    simp [hx]

theorem of_wrap_ok (h : (wrap body).eval c sub s = (.ok sql, t)) :
    ∃ x, body.eval c sub s = (.ok x, t) ∧ sql.isEmpty = x.isEmpty := by
  obtain ⟨x, u, hbody, h⟩ := Run.of_bind_ok h
  have heq : (Except.ok (if u.marker.nested && !x.isEmpty then x.parens else x), u) =
      ((Except.ok sql : Except Fault Sql), t) := h
  cases heq
  refine ⟨x, hbody, ?_⟩
  by_cases hx : t.marker.nested && !x.isEmpty
  · rw [if_pos hx, Sql.isEmpty_parens]
    simp only [Bool.and_eq_true, Bool.not_eq_true'] at hx
    exact hx.2.symm
  · rw [if_neg hx]

/-- **A worded layout has text**, whatever the evaluators do. -/
theorem Worded.isEmpty_eval (hstyle : c.style.Visible) {l : Layout} (hl : l.Worded)
    (h : l.eval c sub s = (.ok sql, t)) : sql.isEmpty = false := by
  induction l generalizing s t sql with
  | text text =>
    cases h
    simpa [Sql.isEmpty_ofText] using hl
  | fail complaint fragment => exact absurd h Run.of_throw_ok
  | entity name =>
    cases h
    simpa [Sql.isEmpty_ofText] using hstyle.entity_ne_empty name
  | aliasName name =>
    cases h
    have hname : c.style.aliasText name ≠ "" := hstyle name
    simpa [Sql.isEmpty_ofText] using hname
  | aliasMark =>
    cases h
    rw [Sql.isEmpty_ofText]
    split <;> rfl
  | missing column =>
    cases h
    rw [Sql.isEmpty_ofText]
    split <;> rfl
  | namedList name => exact Run.isEmpty_namedList h
  | append a b iha ihb =>
    obtain ⟨x, u, y, ha, hb, hsql⟩ := of_append_ok h
    rw [hsql]
    rcases hl with hl | hl
    · rw [iha hl ha, Bool.false_and]
    · rw [ihb hl hb, Bool.and_false]
  | beside sep a b iha ihb =>
    obtain ⟨x, u, y, ha, hb, hsql⟩ := of_beside_ok h
    rw [hsql]
    rcases hl with hl | hl
    · rw [iha hl ha, Bool.false_and]
    · rw [ihb hl hb, Bool.and_false]
  | lead text body ih =>
    obtain ⟨x, hbody, hsql⟩ := of_lead_ok h
    rw [hsql, ih hl hbody]
  | wrap body ih =>
    obtain ⟨x, hbody, hsql⟩ := of_wrap_ok h
    rw [hsql, ih hl hbody]
  | within tag body ih =>
    obtain ⟨u, hbody, -⟩ := Run.of_under_ok h
    exact ih hl hbody
  | _ => exact absurd hl (by simp)

/-- A bare layout has no text exactly when it is silent. -/
theorem Bare.isEmpty_eval (hstyle : c.style.Visible) (hsub : sub.Tell hollow) {l : Layout}
    (hl : l.Bare) (hs : s.marker.aliasPosition = false) (h : l.eval c sub s = (.ok sql, t)) :
    (sql.isEmpty = true ↔ l.Silent c hollow) ∧ t.marker = s.marker := by
  induction l generalizing s t sql with
  | value v => exact Run.isEmpty_value h
  | named name => exact Run.isEmpty_named h
  | literal v => exact Run.isEmpty_ofLiteral h
  | expr nesting v =>
    cases nesting with
    | top => exact hsub hs h
    | nested => exact hsub hs h
    | same => exact hsub hs h
  | append a b iha ihb =>
    obtain ⟨x, u, y, ha, hb, hsql⟩ := of_append_ok h
    obtain ⟨hx, hu⟩ := iha hl.1 hs ha
    obtain ⟨hy, ht⟩ := ihb hl.2 (by rw [hu]; exact hs) hb
    exact ⟨by rw [hsql, Bool.and_eq_true, hx, hy]; rfl, ht.trans hu⟩
  | beside sep a b iha ihb =>
    obtain ⟨x, u, y, ha, hb, hsql⟩ := of_beside_ok h
    obtain ⟨hx, hu⟩ := iha hl.1 hs ha
    obtain ⟨hy, ht⟩ := ihb hl.2 (by rw [hu]; exact hs) hb
    exact ⟨by rw [hsql, Bool.and_eq_true, hx, hy]; rfl, ht.trans hu⟩
  | lead text body ih =>
    obtain ⟨x, hbody, hsql⟩ := of_lead_ok h
    obtain ⟨hx, ht⟩ := ih hl hs hbody
    exact ⟨by rw [hsql]; exact hx, ht⟩
  | wrap body ih =>
    obtain ⟨x, hbody, hsql⟩ := of_wrap_ok h
    obtain ⟨hx, ht⟩ := ih hl hs hbody
    exact ⟨by rw [hsql]; exact hx, ht⟩
  | within tag body ih =>
    obtain ⟨u, hbody, ht⟩ := Run.of_under_ok h
    exact ⟨(ih hl rfl hbody).1, ht⟩
  | text text =>
    cases h
    exact ⟨by simp [Sql.isEmpty_ofText], rfl⟩
  | fail complaint fragment => exact absurd h Run.of_throw_ok
  | entity name =>
    have hword := Worded.isEmpty_eval (l := .entity name) hstyle trivial h
    cases h
    exact ⟨iff_of_false (ne_true_of_eq_false hword) id, rfl⟩
  | aliasName name =>
    have hword := Worded.isEmpty_eval (l := .aliasName name) hstyle trivial h
    cases h
    exact ⟨iff_of_false (ne_true_of_eq_false hword) id, rfl⟩
  | aliasMark =>
    have hword := Worded.isEmpty_eval (l := .aliasMark) hstyle trivial h
    cases h
    exact ⟨iff_of_false (ne_true_of_eq_false hword) id, rfl⟩
  | missing column =>
    have hword := Worded.isEmpty_eval (l := .missing column) hstyle trivial h
    cases h
    exact ⟨iff_of_false (ne_true_of_eq_false hword) id, rfl⟩
  | _ => exact absurd hl (by simp)

/-- **Without text exactly when silent**: of a layout with words of its own, or a bare one. -/
theorem isEmpty_eval (hstyle : c.style.Visible) (hsub : sub.Tell hollow) {l : Layout}
    (hl : l.Worded ∨ l.Bare) (hs : s.marker.aliasPosition = false)
    (h : l.eval c sub s = (.ok sql, t)) : sql.isEmpty = true ↔ l.Silent c hollow := by
  rcases hl with hl | hl
  · rw [hl.isEmpty_eval hstyle h]
    exact iff_of_false Bool.false_ne_true (not_silent_of_worded hl)
  · exact (hl.isEmpty_eval hstyle hsub hs h).1

end Layout

end Clausal
