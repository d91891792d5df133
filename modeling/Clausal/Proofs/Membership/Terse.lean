import Clausal.Proofs.Condition.Hollow
import Clausal.Proofs.Membership.Phrase

/-! # Terse expressions

An expression is *terse* when no word, blank or bracket of a form or an operator stands around
what is written of it.  `Terse` lists how that comes about, and what is written then: null, a bound
value, a name, a named parameter in each of its forms, verbatim and inlined text, an operator
with one operand or with one operand that has text, and a call sigil that stands for one of these.

`Grammar.exact_terse` says that these are all: under the standard grammar, an expression that is
not written as a phrase is terse, and a terse one is written as `Terse` says.
-/
namespace Clausal

/-- The expression, nested in an operator or not, is written as the spelling and has no words of
its own. -/
inductive Terse (c : Context) : Bool → Value → Spelling → Prop where
  | null {nested : Bool} : Terse c nested .null (.ofText "NULL")
  | bound {nested : Bool} {v : Value} (hv : v.isBound = true) : Terse c nested v [.param v]
  | name {nested : Bool} {s : String} (hsigil : Text.stripLeading? '%' s = none)
      (hparam : Text.stripLeading? '?' s = none) :
      Terse c nested (.ident s) (.ofText (c.style.entity s))
  | named {nested : Bool} {s name : String} {v : Value}
      (hs : Text.stripLeading? '?' s = some name) (hne : name ≠ "")
      (hname : Table.get? name c.params = some v) : Terse c nested (.ident s) [.param v]
  | sigil {nested : Bool} {s rest : String} {call : Value} {w : Spelling}
      (hs : Text.stripLeading? '%' s = some rest) (hcall : Grammar.sigilCall? rest = some call)
      (h : Terse c nested call w) : Terse c nested (.ident s) w
  | parameter {nested : Bool} {op name : String} {arg v : Value} (hop : Text.lower op = "param")
      (harg : arg.text? = some name) (hname : Table.get? name c.params = some v) :
      Terse c nested (.call op [arg]) [.param v]
  | lifted {nested : Bool} {op : String} {v : Value} (hop : Text.lower op = "lift") :
      Terse c nested (.call op [v]) [.param v]
  | entity {nested : Bool} {op name : String} {arg : Value} (hop : Text.lower op = "entity")
      (harg : arg.text? = some name) :
      Terse c nested (.call op [arg]) (.ofText (c.style.entity name))
  | verbatim {nested : Bool} {op text : String} (hop : Text.lower op = "raw") :
      Terse c nested (.call op [.str text]) (.ofText text)
  /-- Strings and expressions, each with what it is written as. -/
  | fragments {nested : Bool} {op : String} {parts : List (Value × Spelling)}
      (hop : Text.lower op = "raw")
      (hstr : ∀ e ∈ parts, ∀ s, e.1 = .str s → e.2 = .ofText s)
      (hexpr : ∀ e ∈ parts, (∀ s, e.1 ≠ .str s) → Terse c false e.1 e.2) :
      Terse c nested (.call op [.seq (parts.map Prod.fst)]) (parts.flatMap Prod.snd)
  | nothing {nested : Bool} {op : String} (hop : Text.lower op = "inline") :
      Terse c nested (.call op []) []
  | inlined {nested : Bool} {op text : String} {v : Value} (hop : Text.lower op = "inline")
      (hv : v.literal = .ok text) : Terse c nested (.call op [v]) (.ofText text)
  | dropped {nested : Bool} {op : String} {args : List Value} {p : OperatorPolicy}
      (hop : Table.get? (Text.lower op) OperatorPolicy.builtin = some p)
      (hnull : p.ignoreNull = true) (hargs : p.operands args = []) :
      Terse c nested (.call op args) []
  | single {nested : Bool} {op : String} {args : List Value} {p : OperatorPolicy} {v : Value}
      {w : Spelling} (hop : Table.get? (Text.lower op) OperatorPolicy.builtin = some p)
      (hunary : p.unary = true) (hargs : p.operands args = [v]) (h : Terse c nested v w) :
      Terse c nested (.call op args) w
  /-- A joining operator with its operands and what they are written as, of which at most one has
  symbols.  What is written is not put in parentheses. -/
  | joined {nested : Bool} {op : String} {args : List Value} {p : OperatorPolicy}
      {operands : List (Value × Spelling)}
      (hop : Table.get? (Text.lower op) OperatorPolicy.builtin = some p)
      (harity : p.arity = .variadic) (hargs : p.operands args = operands.map Prod.fst)
      (hcount : 2 ≤ operands.length) (h : ∀ e ∈ operands, Terse c true e.1 e.2)
      (hone : (operands.filter fun e => !e.2.isEmpty).length ≤ 1)
      (hwrap : nested = false ∨ operands.flatMap Prod.snd = []) :
      Terse c nested (.call op args) (operands.flatMap Prod.snd)

/-! ### Joined spellings -/

namespace Spelling

/-- The parts that have symbols, divided by a separator. -/
def joinKept (sep : String) (parts : List (Value × Spelling)) : Spelling :=
  parts.foldr (fun e rest => beside sep e.2 rest) []

variable {sep : String} {parts : List (Value × Spelling)}

theorem isEmpty_joinKept : (joinKept sep parts).isEmpty = parts.all fun e => e.2.isEmpty := by
  induction parts with
  | nil => rfl
  | cons e parts ih =>
    rw [List.all_cons, ← ih]
    exact isEmpty_beside sep e.2 _

/-- One part with symbols needs no separator. -/
theorem joinKept_eq (h : (parts.filter fun e => !e.2.isEmpty).length ≤ 1) :
    joinKept sep parts = parts.flatMap Prod.snd := by
  induction parts with
  | nil => rfl
  | cons e parts ih =>
    rw [List.flatMap_cons]
    show beside sep e.2 (joinKept sep parts) = _
    by_cases he : e.2.isEmpty = true
    · rw [List.filter_cons_of_neg (by simp [he])] at h
      rw [beside, if_pos he, ih h, List.isEmpty_iff.mp he, List.nil_append]
    · rw [List.filter_cons_of_pos (by simp [he]), List.length_cons] at h
      -- The others have no symbols.
      have hnone : (parts.filter fun e => !e.2.isEmpty) = [] :=
        List.length_eq_zero_iff.mp (by omega)
      have hrest : (joinKept sep parts).isEmpty = true := by
        rw [isEmpty_joinKept, List.all_eq_true]
        intro e' he'
        have hkept := List.filter_eq_nil_iff.mp hnone e' he'
        simpa using hkept
      rw [beside, if_neg he, if_pos hrest, ← ih (by omega), List.isEmpty_iff.mp hrest,
        List.append_nil]

/-- Two parts with symbols have the separator between them. -/
theorem isPhrase_joinKept (hsep : (ofText sep).IsPhrase)
    (h : 1 < (parts.filter fun e => !e.2.isEmpty).length) : (joinKept sep parts).IsPhrase := by
  induction parts with
  | nil => simp at h
  | cons e parts ih =>
    show (beside sep e.2 (joinKept sep parts)).IsPhrase
    by_cases he : e.2.isEmpty = true
    · rw [List.filter_cons_of_neg (by simp [he])] at h
      exact (ih h).mono (infix_beside_right _ _ _)
    · rw [List.filter_cons_of_pos (by simp [he]), List.length_cons] at h
      have hrest : ¬ (joinKept sep parts).isEmpty = true := by
        rw [isEmpty_joinKept, List.all_eq_true]
        intro hall
        have hnone : (parts.filter fun e => !e.2.isEmpty) = [] := by
          rw [List.filter_eq_nil_iff]
          intro e' he'
          simp [hall e' he']
        rw [hnone, List.length_nil] at h
        omega
      rw [beside, if_neg he, if_neg hrest, isPhrase_append, isPhrase_append]
      exact .inl (.inr hsep)

end Spelling

/-! ### What rows of operands are written as -/

namespace Layout

variable {c : Context} {reads : Bool → Value → Spelling → Prop} {nested : Bool} {w : Spelling}

/-- A row of parts, put together one by one, is written as the parts are. -/
theorem reads_foldr {put : Layout → Layout → Layout} {place : Spelling → Spelling → Spelling}
    (hput : ∀ a b w, (put a b).Reads c reads nested w ↔
      ∃ x y, a.Reads c reads nested x ∧ b.Reads c reads nested y ∧ w = place x y)
    (part : Value → Layout) (vs : List Value) :
    (vs.foldr (fun v rest => put (part v) rest) empty).Reads c reads nested w ↔
      ∃ es : List (Value × Spelling), es.map Prod.fst = vs ∧
        (∀ e ∈ es, (part e.1).Reads c reads nested e.2) ∧
        w = es.foldr (fun e rest => place e.2 rest) [] := by
  induction vs generalizing w with
  | nil => simp [empty, Spelling.ofText]
  | cons v vs ih =>
    rw [List.foldr_cons, hput]
    constructor
    · rintro ⟨x, y, hx, hy, rfl⟩
      obtain ⟨es, rfl, hes, rfl⟩ := ih.mp hy
      exact ⟨(v, x) :: es, rfl, List.forall_mem_cons.mpr ⟨hx, hes⟩, rfl⟩
    · rintro ⟨es, hmap, hes, rfl⟩
      cases es with
      | nil => cases hmap
      | cons e es =>
        obtain ⟨rfl, rfl⟩ := List.cons.inj hmap
        obtain ⟨he, hes⟩ := List.forall_mem_cons.mp hes
        exact ⟨e.2, _, he, ih.mpr ⟨es, rfl, hes, rfl⟩, rfl⟩

theorem reads_joinKept {sep : String} {vs : List Value} :
    (joinKept sep (vs.map inner)).Reads c reads nested w ↔
      ∃ es : List (Value × Spelling), es.map Prod.fst = vs ∧ (∀ e ∈ es, reads true e.1 e.2) ∧
        w = Spelling.joinKept sep es := by
  rw [joinKept, List.foldr_map]
  exact reads_foldr (fun _ _ _ => Iff.rfl) inner vs

theorem reads_raw_seq {parts : List Value} :
    (raw (.seq parts)).Reads c reads nested w ↔
      ∃ es : List (Value × Spelling), es.map Prod.fst = parts ∧
        ((∀ e ∈ es, ∀ s, e.1 = .str s → e.2 = .ofText s) ∧
          ∀ e ∈ es, (∀ s, e.1 ≠ .str s) → reads false e.1 e.2) ∧
        w = es.flatMap Prod.snd := by
  refine (reads_foldr (fun _ _ _ => Iff.rfl) _ parts).trans (exists_congr fun es => ?_)
  have hflat : es.foldr (fun e rest => e.2 ++ rest) [] = es.flatMap Prod.snd := by
    induction es with
    | nil => rfl
    | cons e es ih => rw [List.foldr_cons, ih, List.flatMap_cons]
  rw [hflat]
  refine and_congr_right fun _ => and_congr_left fun _ => ?_
  constructor
  · intro h
    refine ⟨fun e he s hs => ?_, fun e he hne => ?_⟩
    · have hpart := h e he
      rw [hs] at hpart
      exact hpart
    · have hpart := h e he
      obtain ⟨v, x⟩ := e
      cases v with
      | str s => exact absurd rfl (hne s)
      | _ => exact hpart
  · rintro ⟨hstr, hexpr⟩ e he
    obtain ⟨v, x⟩ := e
    cases v with
    | str s => exact hstr _ he s rfl
    | _ => exact hexpr _ he (by simp)

end Layout

namespace OperatorPolicy
variable {c : Context} {reads : Bool → Value → Spelling → Prop} {nested : Bool} {w : Spelling}
  {p : OperatorPolicy} {args : List Value} (op : String) (whole : Value)

/-- Operators that do not join their operands are written as phrases. -/
theorem phrased_layout (harity : p.arity ≠ .variadic) (hcount : 2 ≤ (p.operands args).length) :
    (p.layout op args whole).Phrased := by
  match hargs : p.operands args with
  | [] => simp [hargs] at hcount
  | [v] => simp [hargs] at hcount
  | x :: y :: rest =>
    rw [layout_of_many op whole hargs]
    unfold joined
    cases hp : p.arity with
    | variadic => exact absurd hp harity
    | binary =>
      cases rest with
      | nil => exact phrased_comparison _ _ _ _
      | cons z rest => trivial
    | comparison =>
      have hfirst := phrased_comparison op (p.sql.getD (keyword op)) x y
      cases rest with
      | nil => exact hfirst
      | cons z rest => exact .inl (.inl hfirst)

/-- Joined operands are written one beside the other. -/
theorem reads_layout (harity : p.arity = .variadic) (hcount : 2 ≤ (p.operands args).length) :
    (p.layout op args whole).Reads c reads nested w ↔
      ∃ es : List (Value × Spelling), es.map Prod.fst = p.operands args ∧
        (∀ e ∈ es, reads true e.1 e.2) ∧
        w = (Spelling.joinKept (" " ++ p.sql.getD (keyword op) ++ " ") es).wrap nested := by
  match hargs : p.operands args with
  | [] => simp [hargs] at hcount
  | [v] => simp [hargs] at hcount
  | x :: y :: rest =>
    rw [layout_of_many op whole hargs]
    unfold joined
    rw [harity]
    simp only [Layout.Reads, Layout.reads_joinKept]
    constructor
    · rintro ⟨-, ⟨es, hes, hreads, rfl⟩, rfl⟩
      exact ⟨es, hes, hreads, rfl⟩
    · rintro ⟨es, hes, hreads, rfl⟩
      exact ⟨_, ⟨es, hes, hreads, rfl⟩, rfl⟩

end OperatorPolicy

/-! ### Expressions of the standard grammar -/

namespace Grammar
variable {c : Context} {nested : Bool} {w : Spelling}

theorem form_entity : standard.form? "entity" = some Form.entity := rfl

/-- Terse expressions have bare layouts that are written as `Terse` says. -/
theorem reads_of_terse {v : Value} (h : Terse c nested v w) :
    (standard.exprLayout false v).Bare ∧
      (standard.exprLayout false v).Reads c (Terse c) nested w := by
  cases h with
  | null => exact ⟨trivial, rfl⟩
  | bound hv =>
    cases v with
    | bool b => exact ⟨trivial, rfl⟩
    | int n => exact ⟨trivial, rfl⟩
    | float x => exact ⟨trivial, rfl⟩
    | str s => exact ⟨trivial, rfl⟩
    | _ => cases hv
  | name hsigil hparam =>
    simp only [exprLayout, nameLayout, hsigil, hparam]
    exact ⟨trivial, rfl⟩
  | named hs hne hname =>
    rw [exprLayout, nameLayout_param hs hne]
    exact ⟨trivial, _, hname, rfl⟩
  | sigil hs hcall h =>
    simp only [exprLayout, nameLayout, hs, hcall]
    exact ⟨trivial, h⟩
  | parameter hop harg hname =>
    rw [exprLayout_form (hop ▸ form_param)]
    simp only [Form.parameter, Form.unary, harg]
    exact ⟨trivial, _, hname, rfl⟩
  | lifted hop =>
    rw [exprLayout_form (hop ▸ form_lift)]
    exact ⟨trivial, rfl⟩
  | entity hop harg =>
    rw [exprLayout_form (hop ▸ form_entity)]
    simp only [Form.entity, Form.unary, harg]
    exact ⟨trivial, rfl⟩
  | verbatim hop =>
    rw [exprLayout_form (hop ▸ form_raw)]
    exact ⟨trivial, rfl⟩
  | fragments hop hstr hexpr =>
    rw [exprLayout_form (hop ▸ form_raw)]
    exact ⟨Layout.bare_raw (.seq _), Layout.reads_raw_seq.mpr ⟨_, rfl, ⟨hstr, hexpr⟩, rfl⟩⟩
  | nothing hop =>
    rw [exprLayout_form (hop ▸ form_inline)]
    exact ⟨trivial, rfl⟩
  | inlined hop hv =>
    rw [exprLayout_form (hop ▸ form_inline)]
    exact ⟨trivial, _, hv, rfl⟩
  | dropped hop hnull hargs =>
    rw [exprLayout_operator hop, OperatorPolicy.layout_of_nil _ _ hargs, hnull]
    exact ⟨trivial, rfl⟩
  | single hop hunary hargs h =>
    rw [exprLayout_operator hop, OperatorPolicy.layout_of_single _ _ hargs, hunary]
    exact ⟨trivial, h⟩
  | joined hop harity hargs hcount h hone hwrap =>
    rw [exprLayout_operator hop]
    refine ⟨OperatorPolicy.bare_layout _ _ _ _, ?_⟩
    have hlength := congrArg List.length hargs
    rw [List.length_map] at hlength
    refine (OperatorPolicy.reads_layout _ _ harity (by omega)).mpr ⟨_, hargs.symm, h, ?_⟩
    rw [Spelling.joinKept_eq hone, Spelling.wrap]
    rcases hwrap with rfl | hnil
    · rfl
    · simp [hnil]

/-- The expression has a phrased layout, or a bare one in which only `Terse` says what is
written, up to phrases. -/
def Told (c : Context) (nested : Bool) (v : Value) : Prop :=
  (standard.exprLayout false v).Phrased ∨
    (standard.exprLayout false v).Bare ∧
      ∀ w, (standard.exprLayout false v).Reads c (Terse c) nested w →
        w.IsPhrase ∨ Terse c nested v w

theorem told_name (s : String) : Told c nested (.ident s) := by
  unfold Told
  cases hsigil : Text.stripLeading? '%' s with
  | some rest =>
    cases hcall : sigilCall? rest with
    | some call =>
      simp only [exprLayout, nameLayout, hsigil, hcall]
      exact .inr ⟨trivial, fun w hw => .inr (.sigil hsigil hcall hw)⟩
    | none =>
      simp only [exprLayout, nameLayout, hsigil, hcall]
      exact .inl trivial
  | none =>
    cases hparam : Text.stripLeading? '?' s with
    | some name =>
      by_cases hne : name = ""
      · simp only [exprLayout, nameLayout, hsigil, hparam, hne]
        exact .inl trivial
      · rw [exprLayout, nameLayout_param hparam hne]
        refine .inr ⟨trivial, ?_⟩
        rintro w ⟨v, hname, rfl⟩
        exact .inr (.named hparam hne hname)
    | none =>
      simp only [exprLayout, nameLayout, hsigil, hparam]
      refine .inr ⟨trivial, ?_⟩
      rintro w rfl
      exact .inr (.name hsigil hparam)

/-- A rule for one argument fails on any other number of them. -/
theorem phrased_or_single (body : String → Value → Layout) (op : String) (args : List Value) :
    (Form.unary body op args).Phrased ∨ ∃ a, args = [a] := by
  match args with
  | [] => exact .inl trivial
  | [a] => exact .inr ⟨a, rfl⟩
  | a :: b :: rest => exact .inl trivial

section Forms
variable {op : String} {args : List Value}

theorem told_verbatim (hop : Text.lower op = "raw") : Told c nested (.call op args) := by
  unfold Told
  rw [exprLayout_form (hop ▸ form_raw)]
  rcases phrased_or_single (fun _ v => .raw v) (Text.lower op) args with hfail | ⟨v, rfl⟩
  · exact .inl hfail
  · cases v with
    | str text =>
      refine .inr ⟨trivial, ?_⟩
      rintro w rfl
      exact .inr (.verbatim hop)
    | seq parts =>
      refine .inr ⟨Layout.bare_raw (.seq parts), fun w hw => ?_⟩
      obtain ⟨es, rfl, ⟨hstr, hexpr⟩, rfl⟩ := Layout.reads_raw_seq.mp hw
      exact .inr (.fragments hop hstr hexpr)
    | _ => exact .inl trivial

/-- Between two inlined values there is a blank. -/
theorem told_inlined (hop : Text.lower op = "inline") : Told c nested (.call op args) := by
  unfold Told
  rw [exprLayout_form (hop ▸ form_inline)]
  match args with
  | [] =>
    refine .inr ⟨trivial, ?_⟩
    rintro w rfl
    exact .inr (.nothing hop)
  | [v] =>
    refine .inr ⟨trivial, ?_⟩
    rintro w ⟨text, hv, rfl⟩
    exact .inr (.inlined hop hv)
  | v :: v' :: rest => exact .inl (.inl (.inr (by simp)))

theorem told_parameter (hop : Text.lower op = "param") : Told c nested (.call op args) := by
  unfold Told
  rw [exprLayout_form (hop ▸ form_param), Form.parameter]
  rcases phrased_or_single _ (Text.lower op) args with hfail | ⟨arg, rfl⟩
  · exact .inl hfail
  · rw [Form.unary]
    cases harg : arg.text? with
    | none => exact .inl trivial
    | some name =>
      refine .inr ⟨trivial, ?_⟩
      rintro w ⟨v, hname, rfl⟩
      exact .inr (.parameter hop harg hname)

theorem told_lifted (hop : Text.lower op = "lift") : Told c nested (.call op args) := by
  unfold Told
  rw [exprLayout_form (hop ▸ form_lift), Form.lifted]
  rcases phrased_or_single _ (Text.lower op) args with hfail | ⟨v, rfl⟩
  · exact .inl hfail
  · refine .inr ⟨trivial, ?_⟩
    rintro w rfl
    exact .inr (.lifted hop)

theorem told_entity (hop : Text.lower op = "entity") : Told c nested (.call op args) := by
  unfold Told
  rw [exprLayout_form (hop ▸ form_entity), Form.entity]
  rcases phrased_or_single _ (Text.lower op) args with hfail | ⟨arg, rfl⟩
  · exact .inl hfail
  · rw [Form.unary]
    cases harg : arg.text? with
    | none => exact .inl trivial
    | some name =>
      refine .inr ⟨trivial, ?_⟩
      rintro w rfl
      exact .inr (.entity hop harg)

theorem told_form {rule : FormRule} (hform : standard.form? (Text.lower op) = some rule) :
    Told c nested (.call op args) := by
  by_cases hterse : Text.lower op ∈ Form.terse
  · simp only [Form.terse, List.mem_cons, List.not_mem_nil, or_false] at hterse
    rcases hterse with hop | hop | hop | hop | hop
    · exact told_verbatim hop
    · exact told_inlined hop
    · exact told_parameter hop
    · exact told_lifted hop
    · exact told_entity hop
  · unfold Told
    rw [exprLayout_form hform]
    exact .inl (Form.phrased_builtin (Text.lower op) args _ (Table.mem_of_get? hform) hterse)

/-- Joined operands are a phrase if two of them have symbols, or if they are nested. -/
theorem phrase_or_joined {p : OperatorPolicy} {operands : List (Value × Spelling)}
    (hop : Table.get? (Text.lower op) OperatorPolicy.builtin = some p)
    (harity : p.arity = .variadic) (hargs : p.operands args = operands.map Prod.fst)
    (hcount : 2 ≤ operands.length) (h : ∀ e ∈ operands, Terse c true e.1 e.2) (sql : String) :
    ((Spelling.joinKept (" " ++ sql ++ " ") operands).wrap nested).IsPhrase ∨
      Terse c nested (.call op args)
        ((Spelling.joinKept (" " ++ sql ++ " ") operands).wrap nested) := by
  by_cases hone : (operands.filter fun e => !e.2.isEmpty).length ≤ 1
  · rw [Spelling.joinKept_eq hone, Spelling.wrap]
    by_cases hwrap : (nested && !(operands.flatMap Prod.snd).isEmpty) = true
    · rw [if_pos hwrap]
      exact .inl (Spelling.isPhrase_parens _)
    · rw [if_neg hwrap]
      refine .inr (.joined hop harity hargs hcount h hone ?_)
      cases nested with
      | false => exact .inl rfl
      | true =>
        refine .inr (List.isEmpty_iff.mp ?_)
        simpa using hwrap
  · have hjoined : (Spelling.joinKept (" " ++ sql ++ " ") operands).IsPhrase :=
      Spelling.isPhrase_joinKept (by simp) (Nat.lt_of_not_le hone)
    exact .inl (hjoined.mono (Spelling.infix_wrap _ _))

end Forms

theorem told_operator {op : String} {args : List Value} {p : OperatorPolicy}
    (hop : Table.get? (Text.lower op) OperatorPolicy.builtin = some p) :
    Told c nested (.call op args) := by
  unfold Told
  rw [exprLayout_operator hop]
  match hargs : p.operands args with
  | [] =>
    rw [OperatorPolicy.layout_of_nil _ _ hargs]
    by_cases hnull : p.ignoreNull = true
    · rw [if_pos hnull]
      refine .inr ⟨trivial, ?_⟩
      rintro w rfl
      exact .inr (.dropped hop hnull hargs)
    · rw [if_neg hnull]
      exact .inl trivial
  | [v] =>
    rw [OperatorPolicy.layout_of_single _ _ hargs]
    by_cases hunary : p.unary = true
    · rw [if_pos hunary]
      exact .inr ⟨trivial, fun w hw => .inr (.single hop hunary hargs hw)⟩
    · rw [if_neg hunary]
      exact .inl trivial
  | x :: y :: rest =>
    have hcount : 2 ≤ (p.operands args).length := by simp [hargs]
    by_cases harity : p.arity = .variadic
    · refine .inr ⟨p.bare_layout _ _ _, fun w hw => ?_⟩
      obtain ⟨es, hes, hreads, rfl⟩ := (OperatorPolicy.reads_layout _ _ harity hcount).mp hw
      have hlength := congrArg List.length hes
      rw [List.length_map] at hlength
      exact phrase_or_joined hop harity hes.symm (by omega) hreads _
    · exact .inl (OperatorPolicy.phrased_layout _ _ harity hcount)

/-- A list that heads no form and no operator is a call, with its arguments in parentheses. -/
theorem told_call (op : String) (args : List Value) : Told c nested (.call op args) := by
  cases hform : standard.form? (Text.lower op) with
  | some rule => exact told_form hform
  | none =>
    cases hop : Table.get? (Text.lower op) OperatorPolicy.builtin with
    | some p => exact told_operator hop
    | none =>
      have hoperator : standard.operator? (Text.lower op) = none := hop
      have hplain : standard.exprLayout false (.call op args) = .call op args := by
        simp only [Value.call, exprLayout, listLayout, Value.ident?, Option.bind_some, headed?,
          hform, hoperator, Option.map_none, plainList]
      unfold Told
      rw [hplain]
      exact .inl (Layout.phrased_call op args)

theorem told (v : Value) : Told c nested v := by
  cases v with
  | null => exact .inr ⟨trivial, fun w hw => .inr (hw ▸ .null)⟩
  | bool b => exact .inr ⟨trivial, fun w hw => .inr (hw ▸ .bound rfl)⟩
  | int n => exact .inr ⟨trivial, fun w hw => .inr (hw ▸ .bound rfl)⟩
  | float x => exact .inr ⟨trivial, fun w hw => .inr (hw ▸ .bound rfl)⟩
  | str s => exact .inr ⟨trivial, fun w hw => .inr (hw ▸ .bound rfl)⟩
  | ident s => exact told_name s
  | map s => exact .inl (Layout.phrased_parens _)
  | seq items =>
    cases items with
    | nil => exact .inl trivial
    | cons head args =>
      cases head with
      | ident op => exact told_call op args
      | _ => exact .inl trivial

/-- **Terse expressions are those not written as phrases**, and are written as `Terse` says, at
every depth. -/
theorem exact_terse (hc : c.inline = false) (hcaching : c.caching = false) (depth : Nat) :
    (standard.drafters c.shape depth).Exact c (Terse c) := by
  induction depth with
  | zero =>
    intro m nested v r hm h
    cases h
  | succ depth ih =>
    intro m nested v r hm h
    -- No alias may stand here, so the layout is that of an expression without alias.
    have hlayout : Draft.settle c ((standard.exprLayout m.aliasPosition v).draft c.shape
        (standard.drafters c.shape depth) { m with aliasPosition := false, nested := nested }) =
          .ok r := h
    rw [hm] at hlayout
    have hexact : (standard.exprLayout false v).Bare →
        Exact ((standard.exprLayout false v).Reads c (Terse c) nested) r.spelling :=
      fun hbare => hbare.exact_settle hc hcaching ih rfl hlayout
    constructor
    · have htold : Told c nested v := told v
      rcases htold with hphrased | ⟨hbare, hreads⟩
      · exact .inl (hphrased.isPhrase_settle hc hlayout)
      · rcases (hexact hbare).found with hphrase | hw
        · exact .inl hphrase
        · exact hreads _ hw
    · intro w hw
      obtain ⟨hbare, hreads⟩ := reads_of_terse hw
      exact (hexact hbare).unique w hreads

end Grammar
end Clausal
