import Clausal.Proofs.Condition.Derivation
import Clausal.Proofs.Condition.Guard
import Clausal.Proofs.Readability.Formula

/-! # Conditions that collapse

Connectives drop nulls, and what is written as nothing takes its connective with it.  So a
condition of names, literals, negations and connectives collapses to nothing when no name and no
literal is left in it (`Collapses`), and connectives cope with operands that collapse at any depth.

A negation does not: it is written as `NOT` and its operand, also if the operand is nothing.  It
*dangles* then (`Dangles`).  `Grammar.condition_derives_iff` says that this is the only way in which
the text of such a condition is not well-formed.
-/
namespace Clausal

/-- The name heads a connective. -/
def IsConnective (op : String) : Prop := Text.lower op = "and" ∨ Text.lower op = "or"

/-- A condition of names, literals, nulls, negations and connectives. -/
inductive Propositional : Value → Prop where
  | null : Propositional .null
  | name {s : String} (hcall : Text.stripLeading? '%' s = none)
      (hparam : Text.stripLeading? '?' s = none) : Propositional (.ident s)
  | literal {v : Value} (hv : v.isBound = true) : Propositional v
  | negation {op : String} {args : List Value} (hop : Text.lower op = "not")
      (h : ∀ v ∈ args, Propositional v) : Propositional (.call op args)
  | connective {op : String} {args : List Value} (hop : IsConnective op)
      (h : ∀ v ∈ args, Propositional v) : Propositional (.call op args)

/-- A connective whose operands are nulls or collapse themselves. -/
inductive Collapses : Value → Prop where
  | intro {op : String} {args : List Value} (hop : IsConnective op)
      (h : ∀ v ∈ args, v ≠ .null → Collapses v) : Collapses (.call op args)

/-- Somewhere in the condition stands the negation of what collapses. -/
inductive Dangles : Value → Prop where
  | here {op : String} {v : Value} (hop : Text.lower op = "not") (h : Collapses v) :
      Dangles (.call op [v])
  | inside {op : String} {args : List Value} {v : Value} (hv : v ∈ args) (h : Dangles v) :
      Dangles (.call op args)

theorem collapses_call_iff {op : String} {args : List Value} :
    Collapses (.call op args) ↔ IsConnective op ∧ ∀ v ∈ args, v ≠ .null → Collapses v := by
  constructor
  · rintro ⟨hop, h⟩
    exact ⟨hop, h⟩
  · rintro ⟨hop, h⟩
    exact .intro hop h

theorem dangles_call_iff {op : String} {args : List Value} :
    Dangles (.call op args) ↔
      (Text.lower op = "not" ∧ ∃ v, args = [v] ∧ Collapses v) ∨ ∃ v ∈ args, Dangles v := by
  constructor
  · intro h
    cases h with
    | here hop h => exact .inl ⟨hop, _, rfl, h⟩
    | inside hv h => exact .inr ⟨_, hv, h⟩
  · rintro (⟨hop, v, rfl, h⟩ | ⟨v, hv, h⟩)
    · exact .here hop h
    · exact .inside hv h

/-- Only calls collapse or dangle. -/
theorem not_collapses_of_atom {v : Value} (hv : ∀ op args, v ≠ .call op args) : ¬ Collapses v := by
  intro h
  cases h
  exact hv _ _ rfl

theorem not_dangles_of_atom {v : Value} (hv : ∀ op args, v ≠ .call op args) : ¬ Dangles v := by
  intro h
  cases h <;> exact hv _ _ rfl

theorem IsConnective.ne_not {op : String} (h : IsConnective op) : Text.lower op ≠ "not" := by
  rcases h with h | h <;> rw [h] <;> decide

theorem Collapses.not_dangles {v : Value} (h : Collapses v) : ¬ Dangles v := by
  induction h with
  | intro hop _ ih =>
    rw [dangles_call_iff]
    rintro (⟨hnot, -⟩ | ⟨w, hw, hdangles⟩)
    · exact hop.ne_not hnot
    · by_cases hnull : w = .null
      · subst hnull
        cases hdangles
      · exact ih w hw hnull hdangles

/-! ### Texts -/

/-- What an expression is written as where it stands. -/
def Role.at (nested : Bool) : Role := if nested then .operand else .phrase

/-- In parentheses when nested, unless there is no text. -/
def wrapped (nested : Bool) (x : String) : String :=
  if nested = true ∧ x ≠ "" then "(" ++ x ++ ")" else x

theorem Derives.at {x : String} (h : Derives .operand x) (nested : Bool) :
    Derives (Role.at nested) x := by
  cases nested with
  | false => exact h.alone
  | true => exact h

theorem Derives.wrapped {x : String} (h : Derives .phrase x) (nested : Bool) :
    Derives (Role.at nested) (wrapped nested x) := by
  cases nested with
  | false => exact h
  | true =>
    rw [Clausal.wrapped, if_pos ⟨rfl, h.sound.ne_empty⟩]
    exact h.group

theorem Lame.wrapped {x : String} (h : Lame x) (nested : Bool) :
    Lame (wrapped nested x) ∧ (nested = true → Stuck (wrapped nested x)) := by
  cases nested with
  | false => exact ⟨h, nofun⟩
  | true =>
    rw [Clausal.wrapped, if_pos ⟨rfl, h.ne_empty⟩]
    exact ⟨h.parens.lame, fun _ => h.parens⟩

/-- The text is what becomes of the condition: nothing if it collapses, a text without derivation if
it dangles, and else a text with a derivation. -/
structure WrittenAs (nested : Bool) (v : Value) (x : String) : Prop where
  empty : Collapses v → x = ""
  derives : ¬ Collapses v → ¬ Dangles v → Derives (Role.at nested) x
  lame : Dangles v → Lame x ∧ (nested = true → Stuck x)

theorem writtenAs_of_atom {nested : Bool} {v : Value} {x : String}
    (hv : ∀ op args, v ≠ .call op args) (h : Derives .operand x) : WrittenAs nested v x where
  empty hempty := absurd hempty (not_collapses_of_atom hv)
  derives _ _ := h.at nested
  lame hlame := absurd hlame (not_dangles_of_atom hv)

/-- A negation is written as `NOT` and its operand. -/
theorem writtenAs_negation {nested : Bool} {op : String} {v : Value} {x : String}
    (hop : Text.lower op = "not") (h : WrittenAs true v x) :
    WrittenAs nested (.call op [v]) (wrapped nested ("NOT " ++ x)) where
  empty hempty := by
    obtain ⟨hconnective, -⟩ := collapses_call_iff.mp hempty
    exact absurd hop hconnective.ne_not
  derives _ hdangles := by
    have hoperand : Derives .operand x :=
      h.derives (fun hc => hdangles (.here hop hc))
        fun hd => hdangles (.inside List.mem_cons_self hd)
    exact hoperand.negation.wrapped nested
  lame hdangles := by
    rcases dangles_call_iff.mp hdangles with ⟨-, w, hw, hc⟩ | ⟨w, hw, hd⟩
    · obtain rfl := (List.cons.inj hw).1
      rw [h.empty hc]
      exact lame_negation.wrapped nested
    · obtain rfl := List.mem_singleton.mp hw
      exact ((h.lame hd).2 rfl).negation.lame.wrapped nested

section Connectives
variable {op : String} {args : List Value}

/-- The operands of a connective that are written. -/
abbrev operands (args : List Value) : List Value := OperatorPolicy.connective.operands args

theorem mem_operands {v : Value} : v ∈ operands args ↔ v ∈ args ∧ v ≠ .null := by
  have hnull : v.isNull = false ↔ v ≠ .null := by
    cases v <;> simp [Value.isNull]
  rw [← hnull]
  simp [operands, OperatorPolicy.operands, OperatorPolicy.connective]

theorem collapses_connective_iff (hop : IsConnective op) :
    Collapses (.call op args) ↔ ∀ v ∈ operands args, Collapses v := by
  simp only [collapses_call_iff, mem_operands, hop, true_and, and_imp]

theorem dangles_connective_iff (hop : IsConnective op) :
    Dangles (.call op args) ↔ ∃ v ∈ operands args, Dangles v := by
  rw [dangles_call_iff]
  constructor
  · rintro (⟨hnot, -⟩ | ⟨v, hv, h⟩)
    · exact absurd hnot hop.ne_not
    · refine ⟨v, mem_operands.mpr ⟨hv, ?_⟩, h⟩
      rintro rfl
      cases h
  · rintro ⟨v, hv, h⟩
    exact .inr ⟨v, (mem_operands.mp hv).1, h⟩

/-- A connective with one operand is written as its operand. -/
theorem WrittenAs.of_single {nested : Bool} {v : Value} {x : String} (h : WrittenAs nested v x)
    (hop : IsConnective op) (hoperands : operands args = [v]) :
    WrittenAs nested (.call op args) x := by
  have hcollapses : Collapses (.call op args) ↔ Collapses v := by
    rw [collapses_connective_iff hop, hoperands, List.forall_mem_singleton]
  have hdangles : Dangles (.call op args) ↔ Dangles v := by
    rw [dangles_connective_iff hop, hoperands]
    simp
  exact ⟨fun hc => h.empty (hcollapses.mp hc),
    fun hc hd => h.derives (mt hcollapses.mpr hc) (mt hdangles.mpr hd),
    fun hd => h.lame (hdangles.mp hd)⟩

theorem derives_intercalate {word : String} (hword : word = " AND " ∨ word = " OR ")
    {texts : List String} (hne : texts ≠ []) (h : ∀ a ∈ texts, Derives .operand a) :
    Derives .phrase (String.intercalate word texts) := by
  by_cases hlength : 2 ≤ texts.length
  · exact .chain hword hlength h
  · obtain ⟨a, rfl⟩ : ∃ a, texts = [a] := by
      have hpos := List.length_pos_iff.mpr hne
      exact List.length_eq_one_iff.mp (by omega)
    rw [String.intercalate_singleton]
    exact (h a List.mem_cons_self).alone

theorem mem_texts_iff {written : List (Value × String)} {x : String} :
    x ∈ (written.map Prod.snd).filter (· ≠ "") ↔ ∃ e ∈ written, e.2 = x ∧ x ≠ "" := by
  simp only [List.mem_filter, List.mem_map, decide_eq_true_eq]
  exact ⟨fun ⟨⟨e, he, hx⟩, hne⟩ => ⟨e, he, hx, hne⟩, fun ⟨e, he, hx, hne⟩ => ⟨⟨e, he, hx⟩, hne⟩⟩

/-- A connective is written as its operands that have text, with the connective between them. -/
theorem writtenAs_connective {nested : Bool} {word : String} (hop : IsConnective op)
    (hword : word = " AND " ∨ word = " OR ") {written : List (Value × String)}
    (hoperands : written.map Prod.fst = operands args)
    (h : ∀ e ∈ written, WrittenAs true e.1 e.2) :
    WrittenAs nested (.call op args)
      (wrapped nested (String.intercalate word ((written.map Prod.snd).filter (· ≠ "")))) := by
  have hcollapses : Collapses (.call op args) ↔ ∀ e ∈ written, Collapses e.1 := by
    rw [collapses_connective_iff hop, ← hoperands, List.forall_mem_map]
  have hdangles : Dangles (.call op args) ↔ ∃ e ∈ written, Dangles e.1 := by
    rw [dangles_connective_iff hop, ← hoperands]
    simp only [List.mem_map, exists_exists_and_eq_and]
  refine ⟨fun hc => ?_, fun hc hd => ?_, fun hd => ?_⟩
  · have hnone : (written.map Prod.snd).filter (· ≠ "") = [] := by
      refine List.eq_nil_iff_forall_not_mem.mpr fun x hx => ?_
      obtain ⟨e, he, rfl, hne⟩ := mem_texts_iff.mp hx
      exact hne ((h e he).empty (hcollapses.mp hc e he))
    rw [hnone, String.intercalate_nil]
    simp [wrapped]
  · have hoperand : ∀ e ∈ written, ¬ Collapses e.1 → Derives .operand e.2 := fun e he hec =>
      (h e he).derives hec fun hed => hd (hdangles.mpr ⟨e, he, hed⟩)
    refine (derives_intercalate hword ?_ fun x hx => ?_).wrapped nested
    · obtain ⟨e, he, hec⟩ : ∃ e ∈ written, ¬ Collapses e.1 := by
        simpa [hcollapses] using hc
      exact List.ne_nil_of_mem (mem_texts_iff.mpr ⟨e, he, rfl, (hoperand e he hec).sound.ne_empty⟩)
    · obtain ⟨e, he, rfl, hne⟩ := mem_texts_iff.mp hx
      exact hoperand e he fun hec => hne ((h e he).empty hec)
  · -- An operand stands in parentheses, so that the pen is stuck in it, whatever comes after.
    obtain ⟨e, he, hed⟩ := hdangles.mp hd
    have hstuck := ((h e he).lame hed).2 rfl
    refine (stuck_intercalate (divides_connective hword) (fun x hx => ?_)
      ⟨e.2, mem_texts_iff.mpr ⟨e, he, rfl, hstuck.lame.ne_empty⟩, hstuck⟩).lame.wrapped nested
    obtain ⟨e, he, rfl, hne⟩ := mem_texts_iff.mp hx
    by_cases hed : Dangles e.1
    · exact .inr (((h e he).lame hed).2 rfl)
    · have hderives : Derives .operand e.2 :=
        (h e he).derives (fun hec => hne ((h e he).empty hec)) hed
      exact .inl hderives.sound

end Connectives

/-! ### Evaluation -/

theorem Sql.render_wrapped (p : Placeholder) (nested : Bool) (sql : Sql) :
    (if nested && !sql.isEmpty then sql.parens else sql).render p =
      wrapped nested (sql.render p) := by
  have hempty := isEmpty_iff_render p sql
  by_cases hsql : sql.isEmpty = true
  · simp [hsql, wrapped, hempty.mp hsql]
  · have hne : sql.render p ≠ "" := fun h => hsql (hempty.mpr h)
    rw [Bool.not_eq_true] at hsql
    cases nested with
    | false => simp [wrapped]
    | true =>
      have hwrapped : wrapped true (sql.render p) = "(" ++ sql.render p ++ ")" :=
        if_pos ⟨rfl, hne⟩
      rw [hwrapped, hsql]
      show sql.parens.render p = _
      rw [parens, render_append, render_append, render_ofText, render_ofText]

namespace Layout
variable {c : Context} {sub : Evaluators} {s t : Session} {sql : Sql}

theorem of_wrap_render {body : Layout} (h : (wrap body).eval c sub s = (.ok sql, t)) :
    ∃ x, body.eval c sub s = (.ok x, t) ∧
      ∀ p, sql.render p = wrapped t.marker.nested (x.render p) := by
  obtain ⟨x, u, hbody, h⟩ := Run.of_bind_ok h
  have heq : (Except.ok (if u.marker.nested && !x.isEmpty then x.parens else x), u) =
      ((Except.ok sql : Except Fault Sql), t) := h
  cases heq
  exact ⟨x, hbody, fun p => Sql.render_wrapped p t.marker.nested x⟩

/-- Operands are evaluated one after the other. -/
theorem of_operands_ok
    (hmarker : ∀ {nested v s sql t}, sub.expr nested v s = (.ok sql, t) → t.marker = s.marker)
    {sep : String} {vs : List Value}
    (h : (joinKept sep (vs.map .inner)).eval c sub s = (.ok sql, t)) :
    t.marker = s.marker ∧ ∃ parts : List (Value × Sql), parts.map Prod.fst = vs ∧
      (∀ e ∈ parts, ∃ u w, sub.expr true e.1 u = (.ok e.2, w)) ∧
      sql = (parts.map Prod.snd).foldr (Sql.beside sep) (Sql.ofText "") := by
  induction vs generalizing s sql with
  | nil =>
    obtain ⟨rfl, rfl⟩ := Run.of_pure_ok h
    exact ⟨rfl, [], rfl, nofun, rfl⟩
  | cons v vs ih =>
    obtain ⟨first, u, hfirst, h⟩ := Run.of_bind_ok h
    obtain ⟨rest, w, hrest, h⟩ := Run.of_bind_ok h
    obtain ⟨rfl, rfl⟩ := Run.of_pure_ok h
    obtain ⟨hkept, parts, rfl, hparts, rfl⟩ := ih hrest
    refine ⟨hkept.trans (hmarker hfirst), (v, first) :: parts, rfl, ?_, rfl⟩
    intro e he
    rcases List.mem_cons.mp he with rfl | he
    · exact ⟨s, u, hfirst⟩
    · exact hparts e he

end Layout

namespace Grammar
variable {c : Context} {depth : Nat} {nested : Bool} {v : Value} {s t : Session} {sql : Sql}

/-- An expression is evaluated as its layout says, under a marker that says whether it is nested. -/
theorem of_expr_ok {g : Grammar} (h : (g.evaluators c depth).expr nested v s = (.ok sql, t)) :
    t.marker = s.marker ∧ ∃ below aliased u w, u.marker.nested = nested ∧
      (g.exprLayout aliased v).eval c (g.evaluators c below) u = (.ok sql, w) := by
  cases depth with
  | zero => exact absurd h Run.of_throw_ok
  | succ depth =>
    have hunder : Run.under (fun m => { m with aliasPosition := false, nested := nested })
        ((g.exprLayout s.marker.aliasPosition v).eval c (g.evaluators c depth)) s =
          (.ok sql, t) := h
    obtain ⟨w, hbody, hmarker⟩ := Run.of_under_ok hunder
    exact ⟨hmarker, depth, _, _, w, rfl, hbody⟩

theorem get?_connective {op : String} (hop : IsConnective op) :
    Table.get? (Text.lower op) OperatorPolicy.builtin = some .connective := by
  rcases hop with hop | hop <;> rw [hop] <;> rfl

theorem keyword_connective {op : String} (hop : IsConnective op) :
    " " ++ keyword (Text.lower op) ++ " " = " AND " ∨
      " " ++ keyword (Text.lower op) ++ " " = " OR " := by
  rcases hop with hop | hop <;> rw [hop]
  · exact .inl (by decide +kernel)
  · exact .inr (by decide +kernel)

/-- The evaluators put the marker back and write these conditions as they should. -/
structure WritesOperands (sub : Evaluators) (vs : List Value) : Prop where
  marker : ∀ {nested v s sql t}, sub.expr nested v s = (.ok sql, t) → t.marker = s.marker
  writtenAs : ∀ v ∈ vs, ∀ {nested s sql t}, sub.expr nested v s = (.ok sql, t) →
    WrittenAs nested v (sql.render .positional)

section Steps
variable {sub : Evaluators} {op : String} {args : List Value}

theorem writtenAs_negation_eval (hsub : WritesOperands sub args) (hop : Text.lower op = "not")
    (h : (Form.negation (Text.lower op) args).eval c sub s = (.ok sql, t)) :
    WrittenAs s.marker.nested (.call op args) (sql.render .positional) := by
  obtain ⟨v, rfl⟩ : ∃ v, args = [v] := by
    rcases args with _ | ⟨v, _ | ⟨w, rest⟩⟩
    · exact absurd h Run.of_throw_ok
    · exact ⟨v, rfl⟩
    · exact absurd h Run.of_throw_ok
  obtain ⟨body, hbody, hrender⟩ := Layout.of_wrap_render h
  obtain ⟨word, u, hword, hbody⟩ := Run.of_bind_ok hbody
  obtain ⟨rfl, rfl⟩ := Run.of_pure_ok hword
  obtain ⟨operand, w, hoperand, hbody⟩ := Run.of_bind_ok hbody
  obtain ⟨rfl, rfl⟩ := Run.of_pure_ok hbody
  rw [hrender, hsub.marker hoperand, Sql.render_append, Sql.render_ofText]
  exact writtenAs_negation hop (hsub.writtenAs v List.mem_cons_self hoperand)

theorem writtenAs_connective_eval (hsub : WritesOperands sub args) (hop : IsConnective op)
    (h : (OperatorPolicy.connective.layout (Text.lower op) args (.call op args)).eval c sub s =
      (.ok sql, t)) :
    WrittenAs s.marker.nested (.call op args) (sql.render .positional) := by
  rcases hoperands : operands args with _ | ⟨v, _ | ⟨w, rest⟩⟩
  · rw [OperatorPolicy.layout_of_nil _ _ hoperands] at h
    obtain ⟨rfl, -⟩ := Run.of_pure_ok h
    have hcollapses : Collapses (.call op args) :=
      (collapses_connective_iff hop).mpr fun v hv => by
        rw [hoperands] at hv
        cases hv
    exact ⟨fun _ => rfl, fun hc => absurd hcollapses hc,
      fun hd => absurd hd hcollapses.not_dangles⟩
  · rw [OperatorPolicy.layout_of_single _ _ hoperands] at h
    have hmem : v ∈ args := (mem_operands.mp (hoperands ▸ List.mem_cons_self)).1
    exact (hsub.writtenAs v hmem h).of_single hop hoperands
  · rw [OperatorPolicy.layout_of_many _ _ hoperands] at h
    obtain ⟨body, hbody, hrender⟩ := Layout.of_wrap_render h
    obtain ⟨hmarker, parts, hparts, hruns, rfl⟩ := Layout.of_operands_ok hsub.marker hbody
    let written := parts.map fun e => (e.1, e.2.render .positional)
    have hfirst : written.map Prod.fst = operands args := by
      rw [hoperands, ← hparts, List.map_map]
      rfl
    have htexts : (parts.map Prod.snd).map (Sql.render .positional) = written.map Prod.snd := by
      rw [List.map_map, List.map_map]
      rfl
    rw [hrender, hmarker, Sql.render_beside, htexts]
    refine writtenAs_connective hop (keyword_connective hop) hfirst fun e he => ?_
    have hmem := (mem_operands.mp (hfirst ▸ List.mem_map_of_mem he)).1
    obtain ⟨part, hpart, rfl⟩ := List.mem_map.mp he
    obtain ⟨u, w, hrun⟩ := hruns part hpart
    exact hsub.writtenAs part.1 hmem hrun

end Steps

theorem writtenAs_expr (hinline : c.inline = false) (hstyle : c.style = plainStyle)
    (hv : Propositional v) (h : (standard.evaluators c depth).expr nested v s = (.ok sql, t)) :
    WrittenAs nested v (sql.render .positional) := by
  -- By induction on the condition: operands are evaluated nested and at a lower depth.
  induction hv generalizing depth nested s sql t with
  | null =>
    obtain ⟨-, below, aliased, u, w, -, h⟩ := of_expr_ok h
    obtain ⟨rfl, -⟩ := Run.of_pure_ok h
    have hnull : plainStyle.entity "NULL" = "NULL" := by decide +kernel
    refine writtenAs_of_atom ?_ (hnull ▸ Derives.name "NULL")
    intro op args h
    cases h
  | name hcall hparam =>
    obtain ⟨-, below, aliased, u, w, -, h⟩ := of_expr_ok h
    rw [exprLayout, nameLayout, hcall, hparam] at h
    obtain ⟨rfl, -⟩ := Run.of_pure_ok h
    rw [Sql.render_ofText, hstyle]
    refine writtenAs_of_atom ?_ (.name _)
    intro op args h
    cases h
  | @literal v hv =>
    obtain ⟨-, below, aliased, u, w, -, h⟩ := of_expr_ok h
    have hlayout : standard.exprLayout aliased v = .value v := by
      cases v <;> first | rfl | cases hv
    rw [hlayout, Layout.eval, Run.value, if_neg (by simp [hinline])] at h
    have hhole : sql = [.hole (u.slots.length + 1)] := by
      cases h
      rfl
    rw [hhole]
    refine writtenAs_of_atom ?_ .placeholder
    rintro op args rfl
    cases hv
  | @negation op args hop hargs ih =>
    obtain ⟨-, below, aliased, u, w, hnested, h⟩ := of_expr_ok h
    have hform : standard.form? (Text.lower op) = some Form.negation := by
      rw [hop]
      rfl
    rw [exprLayout_form hform] at h
    rw [← hnested]
    exact writtenAs_negation_eval
      ⟨fun h => (of_expr_ok h).1, fun v hv _ _ _ _ h => ih v hv h⟩ hop h
  | @connective op args hop hargs ih =>
    obtain ⟨-, below, aliased, u, w, hnested, h⟩ := of_expr_ok h
    rw [exprLayout_operator (get?_connective hop)] at h
    rw [← hnested]
    exact writtenAs_connective_eval
      ⟨fun h => (of_expr_ok h).1, fun v hv _ _ _ _ h => ih v hv h⟩ hop h

/-- The text of a statement of one clause is the text of the clause. -/
theorem format_single {tag : String} {rule : ClauseRule} {v : Value} {f : Formatted}
    (hrule : standard.clauses.rule? tag = some rule)
    (h : standard.format [(tag, v)] {} = .ok f) :
    ∃ depth s t sql, (rule tag v [(tag, v)]).eval (standard.context {} .ansi false)
        (standard.evaluators (standard.context {} .ansi false) depth) s = (.ok sql, t) ∧
      f.sql = sql.render .positional := by
  rw [format_default] at h
  obtain ⟨kept, hkept, h⟩ := bind_eq_ok.mp h
  obtain ⟨values, -, h⟩ := bind_eq_ok.mp h
  cases h
  unfold keep at hkept
  split at hkept
  · rename_i sql t hrun
    cases hkept
    rw [evalStatement_eq, statementLayout_single hrule] at hrun
    obtain ⟨first, u, hfirst, hrest⟩ := Run.of_bind_ok hrun
    obtain ⟨rest, w, hempty, hpure⟩ := Run.of_bind_ok hrest
    obtain ⟨rfl, -⟩ := Run.of_pure_ok hempty
    obtain ⟨rfl, -⟩ := Run.of_pure_ok hpure
    obtain ⟨w, hbody, -⟩ := Run.of_under_ok hfirst
    refine ⟨_, _, w, first, hbody, ?_⟩
    refine (Sql.render_beside .positional " " [first]).trans ?_
    by_cases hfirst : first.render .positional = "" <;> simp [hfirst]
  · cases hkept

/-- The text of a condition stands behind `WHERE`, if there is any. -/
theorem format_where {v : Value} (hnull : v ≠ .null) {f : Formatted}
    (h : standard.format [("where", v)] {} = .ok f) :
    ∃ depth s t sql, (standard.evaluators (standard.context {} .ansi false) depth).expr false v s =
        (.ok sql, t) ∧
      f.sql = if sql.render .positional = "" then "" else "WHERE " ++ sql.render .positional := by
  have hrule : standard.clauses.rule? "where" = some Clause.condition := rfl
  obtain ⟨depth, s, t, whole, hrun, htext⟩ := format_single hrule h
  rw [condition_layout hnull] at hrun
  obtain ⟨sql, u, hbody, hpure⟩ := Run.of_bind_ok hrun
  obtain ⟨rfl, -⟩ := Run.of_pure_ok hpure
  refine ⟨depth, s, u, sql, hbody, ?_⟩
  have hword : keyword "where" ++ " " = "WHERE " := by decide +kernel
  have hempty := Sql.isEmpty_iff_render .positional sql
  rw [htext, hword]
  by_cases hsql : sql.isEmpty = true
  · rw [if_pos hsql, if_pos (hempty.mp hsql), Sql.render_nil]
  · rw [if_neg hsql, if_neg (mt hempty.mpr hsql), Sql.render_append, Sql.render_ofText]

/-- **The text of a condition is well-formed unless a negation dangles.**  A condition of names,
literals, negations and connectives is written as nothing exactly when it is null or collapses.
The text is nothing, or `WHERE` and a phrase of the grammar, exactly when nothing that collapses is
negated in the condition. -/
theorem condition_derives_iff {v : Value} (hv : Propositional v) {f : Formatted}
    (h : standard.format [("where", v)] {} = .ok f) :
    (f.sql = "" ↔ v = .null ∨ Collapses v) ∧
    ((f.sql = "" ∨ ∃ p, Derives .phrase p ∧ f.sql = "WHERE " ++ p) ↔ ¬ Dangles v) := by
  by_cases hnull : v = .null
  · subst hnull
    have hrule : standard.clauses.rule? "where" = some Clause.condition := rfl
    obtain ⟨depth, s, t, sql, hrun, htext⟩ := format_single hrule h
    obtain ⟨rfl, -⟩ := Run.of_pure_ok hrun
    have hempty : f.sql = "" := htext
    exact ⟨iff_of_true hempty (.inl rfl), iff_of_true (.inl hempty) nofun⟩
  obtain ⟨depth, s, t, sql, hrun, htext⟩ := format_where hnull h
  have hwritten : WrittenAs false v (sql.render .positional) := writtenAs_expr rfl rfl hv hrun
  generalize sql.render .positional = x at htext hwritten
  by_cases hcollapses : Collapses v
  · have hempty : f.sql = "" := by rw [htext, if_pos (hwritten.empty hcollapses)]
    exact ⟨iff_of_true hempty (.inr hcollapses),
      iff_of_true (.inl hempty) hcollapses.not_dangles⟩
  have hsome : x ≠ "" → f.sql = "WHERE " ++ x ∧ f.sql ≠ "" := by
    intro hx
    rw [htext, if_neg hx]
    exact ⟨rfl, fun hempty => hx (String.append_eq_empty_iff.mp hempty).2⟩
  have hnot : ¬ (v = .null ∨ Collapses v) := not_or.mpr ⟨hnull, hcollapses⟩
  by_cases hdangles : Dangles v
  · have hlame := (hwritten.lame hdangles).1
    obtain ⟨hwhere, hne⟩ := hsome hlame.ne_empty
    refine ⟨iff_of_false hne hnot, iff_of_false ?_ (not_not.mpr hdangles)⟩
    rintro (hempty | ⟨p, hp, hwhole⟩)
    · exact hne hempty
    · obtain rfl : x = p := (String.append_right_inj _).mp (hwhere.symm.trans hwhole)
      exact hlame.not_derives .phrase hp
  · have hderives : Derives .phrase x := hwritten.derives hcollapses hdangles
    obtain ⟨hwhere, hne⟩ := hsome hderives.sound.ne_empty
    exact ⟨iff_of_false hne hnot, iff_of_true (.inr ⟨x, hderives, hwhere⟩) hdangles⟩

/-- A connective over nulls leaves its place, and the negation beside it has an operand. -/
theorem condition_derives_iff_mixed :
    standard.format [("where", .call "and" [.ident "a", .call "or" [.null],
        .call "not" [.call "or" [.ident "b", .int 1]]])] {} =
      .ok ⟨"WHERE a AND (NOT (b OR ?))", [.int 1]⟩ ∧
    ∃ p, Derives .phrase p ∧ "WHERE a AND (NOT (b OR ?))" = "WHERE " ++ p := by
  have hformat : standard.format [("where", .call "and" [.ident "a", .call "or" [.null],
      .call "not" [.call "or" [.ident "b", .int 1]]])] {} =
        .ok ⟨"WHERE a AND (NOT (b OR ?))", [.int 1]⟩ := by
    have hkeep : keep {} (standard.evalStatement (standard.context {} .ansi false)
        [("where", .call "and" [.ident "a", .call "or" [.null],
          .call "not" [.call "or" [.ident "b", .int 1]]])]) =
            .ok ⟨"WHERE a AND (NOT (b OR ?))", [.literal (.int 1)]⟩ := by decide +kernel
    rw [format_default, hkeep]
    rfl
  have hand : Text.lower "and" = "and" := by decide +kernel
  have hor : Text.lower "or" = "or" := by decide +kernel
  have hnot : Text.lower "not" = "not" := by decide +kernel
  have hpropositional : Propositional (.call "and" [.ident "a", .call "or" [.null],
      .call "not" [.call "or" [.ident "b", .int 1]]]) := by
    have hinner : Propositional (.call "or" [.ident "b", .int 1]) :=
      .connective (.inr hor) (List.forall_mem_cons.mpr
        ⟨.name rfl rfl, List.forall_mem_singleton.mpr (.literal rfl)⟩)
    refine .connective (.inl hand) (List.forall_mem_cons.mpr ⟨.name rfl rfl,
      List.forall_mem_cons.mpr ⟨?_, List.forall_mem_singleton.mpr ?_⟩⟩)
    · exact .connective (.inr hor) (List.forall_mem_singleton.mpr .null)
    · exact .negation hnot (List.forall_mem_singleton.mpr hinner)
  have hdangles : ¬ Dangles (.call "and" [.ident "a", .call "or" [.null],
      .call "not" [.call "or" [.ident "b", .int 1]]]) := by
    have hatom : ¬ Dangles (.ident "a") ∧ ¬ Dangles (.ident "b") ∧ ¬ Dangles (.int 1) ∧
        ¬ Dangles .null ∧ ¬ Collapses (.ident "b") := by
      refine ⟨?_, ?_, ?_, ?_, ?_⟩ <;> intro h <;> cases h
    simp [dangles_call_iff, collapses_call_iff, hand, hor, hatom]
  rcases (condition_derives_iff hpropositional hformat).2.mpr hdangles with hempty | hderives
  · exact absurd hempty (by decide)
  · exact ⟨hformat, hderives⟩

/-- A negation of nothing is written, and no phrase reads so. -/
theorem negation_dangles :
    standard.format [("where", .call "not" [.call "and" [.null]])] {} = .ok ⟨"WHERE NOT ", []⟩ ∧
      "WHERE NOT " ≠ "" ∧ ¬ ∃ p, Derives .phrase p ∧ "WHERE NOT " = "WHERE " ++ p := by
  refine ⟨?_, by decide, ?_⟩
  · have hkeep : keep {} (standard.evalStatement (standard.context {} .ansi false)
        [("where", .call "not" [.call "and" [.null]])]) = .ok ⟨"WHERE NOT ", []⟩ := by
      decide +kernel
    rw [format_default, hkeep]
    rfl
  · rintro ⟨p, hp, hwhole⟩
    have htext : "WHERE NOT " = "WHERE " ++ ("NOT " ++ "") := by decide
    obtain rfl : "NOT " ++ "" = p := (String.append_right_inj _).mp (htext.symm.trans hwhole)
    exact lame_negation.not_derives .phrase hp

end Grammar
end Clausal
