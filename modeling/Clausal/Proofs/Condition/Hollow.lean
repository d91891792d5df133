import Clausal.Proofs.Condition.Wording
import Clausal.Proofs.Operands

/-! # Hollow conditions

An expression is *hollow* when it is written as nothing.  `Hollow` lists how that comes about:
connectives without operands, joining operators over hollow operands only, empty verbatim text,
empty inlined text, a call sigil that stands for a hollow call, and, where values are
written into the text, parameters whose value is the empty name.

`Grammar.tell_hollow` says that these are all: the evaluators of the standard grammar give
empty SQL exactly for hollow expressions.
-/
namespace Clausal

/-- The expression is written as nothing. -/
inductive Hollow (c : Context) : Value → Prop where
  /-- A joining operator over hollow operands; it may stand without operands if it drops nulls. -/
  | joined {op : String} {args : List Value} {p : OperatorPolicy}
      (hop : Table.get? (Text.lower op) OperatorPolicy.builtin = some p)
      (harity : p.arity = .variadic)
      (hcount : p.takes (p.operands args).length = true ∨
        p.ignoreNull = true ∧ p.operands args = [])
      (h : ∀ v ∈ p.operands args, Hollow c v) : Hollow c (.call op args)
  | verbatim {op : String} (hop : Text.lower op = "raw") : Hollow c (.call op [.str ""])
  | fragments {op : String} {parts : List Value} (hop : Text.lower op = "raw")
      (h : ∀ v ∈ parts, v ≠ .str "" → Hollow c v) : Hollow c (.call op [.seq parts])
  | inlined {op : String} {args : List Value} (hop : Text.lower op = "inline")
      (h : args = [] ∨ args = [.ident ""]) : Hollow c (.call op args)
  | lifted {op : String} {v : Value} (hop : Text.lower op = "lift") (h : c.Omits v) :
      Hollow c (.call op [v])
  | parameter {op name : String} {arg v : Value} (hop : Text.lower op = "param")
      (harg : arg.text? = some name) (hname : Table.get? name c.params = some v)
      (h : c.Omits v) : Hollow c (.call op [arg])
  | named {s name : String} {v : Value} (hs : Text.stripLeading? '?' s = some name)
      (hne : name ≠ "") (hname : Table.get? name c.params = some v) (h : c.Omits v) :
      Hollow c (.ident s)
  | sigil {s rest : String} {call : Value} (hs : Text.stripLeading? '%' s = some rest)
      (hcall : Grammar.sigilCall? rest = some call) (h : Hollow c call) : Hollow c (.ident s)

/-! ### Words in phrases, forms and operators -/

namespace Layout
variable {c : Context} {hollow : Value → Prop}

@[simp] theorem silent_append (a b : Layout) :
    (a ++ b).Silent c hollow ↔ a.Silent c hollow ∧ b.Silent c hollow := Iff.rfl

@[simp] theorem bare_append (a b : Layout) : (a ++ b).Bare ↔ a.Bare ∧ b.Bare := Iff.rfl

@[simp] theorem phrased_append (a b : Layout) : (a ++ b).Phrased ↔ a.Phrased ∨ b.Phrased := Iff.rfl

@[simp] theorem phrased_parens (l : Layout) : (parens l).Phrased := by
  simp [parens]

@[simp] theorem phrased_nest (v : Value) : (nest v).Phrased := by
  unfold nest
  split
  · exact phrased_parens _
  · exact phrased_parens _

@[simp] theorem phrased_valueList (vs : List Value) : (valueList vs).Phrased := phrased_parens _

@[simp] theorem phrased_call (name : String) (args : List Value) : (call name args).Phrased :=
  .inr (phrased_parens _)

theorem bare_join {sep : String} {ls : List Layout} (h : ∀ l ∈ ls, l.Bare) :
    (join sep ls).Bare := by
  fun_induction join sep ls with
  | case1 => trivial
  | case2 l => exact h l List.mem_cons_self
  | case3 l ls hne ih =>
    have hrest := ih fun k hk => h k (List.mem_cons_of_mem l hk)
    exact ⟨⟨h l List.mem_cons_self, trivial⟩, hrest⟩

theorem bare_joinKept {sep : String} {ls : List Layout} (h : ∀ l ∈ ls, l.Bare) :
    (joinKept sep ls).Bare := by
  induction ls with
  | nil => trivial
  | cons l ls ih =>
    exact ⟨h l List.mem_cons_self, ih fun k hk => h k (List.mem_cons_of_mem l hk)⟩

theorem silent_joinKept (sep : String) (ls : List Layout) :
    (joinKept sep ls).Silent c hollow ↔ ∀ l ∈ ls, l.Silent c hollow := by
  induction ls with
  | nil => simp [joinKept, empty]
  | cons l ls ih =>
    rw [List.forall_mem_cons, ← ih]
    rfl

theorem bare_raw (v : Value) : (raw v).Bare := by
  unfold raw
  split
  · trivial
  · rename_i parts
    induction parts with
    | nil => trivial
    | cons part parts ih =>
      refine ⟨?_, ih⟩
      split <;> trivial
  · trivial

/-- Verbatim text is empty if all of its parts are. -/
theorem silent_raw (hstr : ∀ s, ¬ hollow (.str s)) (v : Value) :
    (raw v).Silent c hollow ↔
      v = .str "" ∨ ∃ parts, v = .seq parts ∧ ∀ part ∈ parts, part ≠ .str "" → hollow part := by
  cases v with
  | str s => simp [raw]
  | seq parts =>
    simp only [raw, reduceCtorEq, Value.seq.injEq, exists_eq_left', false_or]
    induction parts with
    | nil => simp [empty]
    | cons part parts ih =>
      rw [List.foldr_cons, silent_append, ih, List.forall_mem_cons]
      refine and_congr_left fun _ => ?_
      cases part <;> simp [hstr, top]
  | _ => simp [raw]

end Layout

namespace Form
variable (op : String) (args : List Value)

theorem phrased_unary {body : String → Value → Layout} (h : ∀ a, (body op a).Phrased) :
    (unary body op args).Phrased :=
  unary_of op args (fun _ _ => trivial) fun a _ => h a

theorem phrased_binary {body : String → Value → Value → Layout}
    (h : ∀ a b, (body op a b).Phrased) : (binary body op args).Phrased :=
  binary_of op args (fun _ _ => trivial) fun a _ b _ => h a b

theorem phrased_ternary {body : String → Value → Value → Value → Layout}
    (h : ∀ a b c, (body op a b c).Phrased) : (ternary body op args).Phrased :=
  ternary_of op args (fun _ _ => trivial) fun a _ b _ c _ => h a b c

theorem phrased_existence : (existence op args).Phrased := by
  refine phrased_unary op args fun v => ?_
  split <;> simp

theorem phrased_distinction : (distinction op args).Phrased := by
  unfold distinction
  split
  · trivial
  · simp

theorem phrased_interval : (interval op args).Phrased := by
  unfold interval
  split
  · simp
  · simp
  · trivial

theorem phrased_array : (array op args).Phrased := by
  refine phrased_unary op args fun v => ?_
  split
  · simp [Layout.nestedStatement]
  · simp

theorem phrased_ordered : (ordered op args).Phrased := by
  unfold ordered
  split
  · simp
  · trivial

/-- The forms without words, blanks and brackets of their own. -/
def terse : List String := ["raw", "inline", "param", "lift", "entity"]

/-- All other forms are written as phrases. -/
theorem phrased_builtin : ∀ e ∈ builtin, e.1 ∉ terse → (e.2 op args).Phrased := by
  have hmembership : (membership op args).Phrased := phrased_binary op args fun _ _ => by simp
  have hnegation : (negation op args).Phrased := phrased_unary op args fun _ => by simp
  have hrange : (range op args).Phrased := phrased_ternary op args fun _ _ _ => by simp
  have hcast : (cast op args).Phrased := phrased_binary op args fun _ _ => by simp
  have hnested : (nested op args).Phrased := phrased_unary op args Layout.phrased_nest
  have hdistinct : (distinct op args).Phrased := phrased_unary op args fun _ => by simp
  have hescaping : (escaping op args).Phrased := phrased_binary op args fun _ _ => by simp
  have hfiltered : (filtered op args).Phrased := phrased_binary op args fun _ _ => by simp
  have hwithinGroup : (withinGroup op args).Phrased := phrased_binary op args fun _ _ => by simp
  have hwindowed : (windowed op args).Phrased := phrased_binary op args fun _ _ => by simp
  have hatTimeZone : (atTimeZone op args).Phrased := phrased_binary op args fun _ _ => by simp
  simp [builtin, terse, composite, hmembership, hnegation, hrange, hcast, hnested, hdistinct,
    hescaping, hfiltered, hwithinGroup, hwindowed, hatTimeZone, phrased_existence,
    phrased_distinction, phrased_interval, phrased_array, phrased_ordered]

theorem worded_entity : (entity op args).Worded := by
  refine unary_of op args (fun _ _ => trivial) fun v _ => ?_
  split <;> trivial

theorem silent_unary {c : Context} {hollow : Value → Prop} {body : String → Value → Layout} :
    (unary body op args).Silent c hollow ↔
      ∃ a, args = [a] ∧ (body op a).Silent c hollow := by
  unfold unary
  split
  · simp
  · rename_i hne
    refine iff_of_false id ?_
    rintro ⟨a, rfl, -⟩
    exact hne a rfl

theorem bare_unary {body : String → Value → Layout} (h : ∀ a, (body op a).Bare) :
    (unary body op args).Bare :=
  unary_of op args (fun _ _ => trivial) fun a _ => h a

theorem bare_parameter : (parameter op args).Bare := by
  refine bare_unary op args fun v => ?_
  split <;> trivial

theorem silent_parameter {c : Context} {hollow : Value → Prop} :
    (parameter op args).Silent c hollow ↔
      ∃ arg name v, args = [arg] ∧ arg.text? = some name ∧
        Table.get? name c.params = some v ∧ c.Omits v := by
  refine (silent_unary op args).trans (exists_congr fun arg => ?_)
  cases harg : arg.text? with
  | none => simp
  | some name => simp

theorem bare_inlined : (inlined op args).Bare := by
  refine Layout.bare_join fun l hl => ?_
  obtain ⟨v, -, rfl⟩ := List.mem_map.mp hl
  trivial

/-- Of two inlined values there is at least the blank between them. -/
theorem silent_inlined {c : Context} {hollow : Value → Prop} :
    (inlined op args).Silent c hollow ↔ args = [] ∨ args = [.ident ""] := by
  match args with
  | [] => simp [inlined, Layout.join, Layout.empty]
  | [v] => simp [inlined, Layout.join]
  | v :: w :: rest => simp [inlined, Layout.join]

/-- The forms without words of their own. -/
def quiet : List String := ["raw", "inline", "param", "lift"]

/-- All other forms have words of their own. -/
theorem worded_builtin : ∀ e ∈ builtin, e.1 ∉ quiet → (e.2 op args).Worded := by
  have hentity : ∀ e ∈ builtin, e.1 = "entity" → e.2 = entity := by simp [builtin]
  intro e he hquiet
  by_cases hname : e.1 = "entity"
  · rw [hentity e he hname]
    exact worded_entity op args
  · have hterse : e.1 ∉ terse := by
      simp only [quiet, terse, List.mem_cons, List.not_mem_nil, or_false, not_or] at hquiet ⊢
      exact ⟨hquiet.1, hquiet.2.1, hquiet.2.2.1, hquiet.2.2.2, hname⟩
    exact (phrased_builtin op args e he hterse).worded

theorem bare_quiet : ∀ e ∈ builtin, e.1 ∈ quiet → (e.2 op args).Bare := by
  have hverbatim : (verbatim op args).Bare := bare_unary op args Layout.bare_raw
  have hlifted : (lifted op args).Bare := bare_unary op args fun _ => trivial
  simp [builtin, quiet, hverbatim, hlifted, bare_inlined, bare_parameter]

end Form

theorem phrased_comparison (op sql : String) (lhs rhs : Value) :
    (comparison op sql lhs rhs).Phrased := by
  have hplain : (Layout.inner lhs ++ (" " ++ sql ++ " ") ++ Layout.inner rhs).Phrased := by simp
  have htest : ∀ test, nullTest? op = some test → (Layout.text test).Phrased := by
    intro test h
    unfold nullTest? at h
    split at h
    · cases h
      simp
    · split at h
      · cases h
        simp
      · cases h
  unfold comparison
  dsimp only
  split
  · exact hplain
  · rename_i test hsome
    split
    · exact .inr (htest test hsome)
    · split
      · exact .inr (htest test hsome)
      · exact hplain

theorem bare_comparison (op sql : String) (lhs rhs : Value) : (comparison op sql lhs rhs).Bare := by
  unfold comparison
  dsimp only
  split
  · simp [Layout.inner]
  · split
    · simp [Layout.inner]
    · split <;> simp [Layout.inner]

namespace OperatorPolicy
variable {c : Context} {hollow : Value → Prop} (p : OperatorPolicy) (op : String)
  (args : List Value) (whole : Value)

theorem bare_layout : (p.layout op args whole).Bare := by
  unfold layout joined
  dsimp only
  split
  · split <;> trivial
  · split <;> trivial
  · split
    · split
      · exact bare_comparison _ _ _ _
      · trivial
    · refine Layout.bare_join fun l hl => ?_
      obtain ⟨pair, -, rfl⟩ := List.mem_map.mp hl
      exact bare_comparison _ _ _ _
    · refine Layout.bare_joinKept fun l hl => ?_
      obtain ⟨v, -, rfl⟩ := List.mem_map.mp hl
      trivial

/-- Two operands or more have no text if the operator joins them and none of them has. -/
theorem silent_joined (sql : String) (x y : Value) (rest : List Value) :
    (p.joined op sql (x :: y :: rest) whole).Silent c hollow ↔
      p.arity = .variadic ∧ ∀ v ∈ x :: y :: rest, hollow v := by
  unfold joined
  cases p.arity with
  | binary =>
    refine iff_of_false (Layout.not_silent_of_worded ?_) (by simp)
    dsimp only
    split
    · exact (phrased_comparison _ _ _ _).worded
    · trivial
  | comparison =>
    refine iff_of_false (Layout.not_silent_of_worded ?_) (by simp)
    have hfirst := (phrased_comparison op sql x y).worded
    cases rest with
    | nil => exact hfirst
    | cons z rest => exact .inl (.inl hfirst)
  | variadic =>
    simp only [true_and]
    refine (Layout.silent_joinKept _ _).trans ?_
    rw [List.forall_mem_map]
    rfl

/-- Only operators that join their operands can be without text. -/
theorem silent_layout (hp : p.arity = .variadic ∨ p.ignoreNull = false ∧ p.unary = false) :
    (p.layout op args whole).Silent c hollow ↔
      p.arity = .variadic ∧
        (p.takes (p.operands args).length = true ∨ p.ignoreNull = true ∧ p.operands args = []) ∧
        ∀ v ∈ p.operands args, hollow v := by
  match hargs : p.operands args with
  | [] =>
    rw [layout_of_nil op whole hargs]
    cases hnull : p.ignoreNull with
    | true =>
      have harity : p.arity = .variadic := hp.resolve_right (by simp [hnull])
      simp [Layout.empty, harity]
    | false =>
      refine iff_of_false (Layout.not_silent_of_worded trivial) ?_
      rintro ⟨harity, hcount, -⟩
      simp [takes, harity] at hcount
      split at hcount <;> omega
  | [v] =>
    rw [layout_of_single op whole hargs]
    cases hunary : p.unary with
    | true =>
      have harity : p.arity = .variadic := hp.resolve_right (by simp [hunary])
      simp [takes, harity, hunary]
    | false =>
      refine iff_of_false (Layout.not_silent_of_worded trivial) ?_
      rintro ⟨harity, hcount, -⟩
      simp [takes, harity, hunary] at hcount
  | x :: y :: rest =>
    rw [layout_of_many op whole hargs, silent_joined]
    refine and_congr_right fun harity => (and_iff_right (.inl ?_)).symm
    simp only [takes, harity, List.length_cons]
    split <;> simp

end OperatorPolicy

/-! ### Expressions of the standard grammar -/

namespace Grammar
variable {c : Context}

theorem worded_or_bare_nameLayout (name : String) :
    (nameLayout name).Worded ∨ (nameLayout name).Bare := by
  refine .inr ?_
  unfold nameLayout
  split
  · split <;> trivial
  · split <;> trivial

theorem worded_or_bare_headed {op : String} {args : List Value} {l : Layout}
    (h : standard.headed? op args = some l) : l.Worded ∨ l.Bare := by
  unfold headed? at h
  dsimp only at h
  split at h
  · rename_i rule hrule
    cases h
    have hmem := Table.mem_of_get? hrule
    by_cases hquiet : Text.lower op ∈ Form.quiet
    · exact .inr (Form.bare_quiet _ args _ hmem hquiet)
    · exact .inl (Form.worded_builtin _ args _ hmem hquiet)
  · obtain ⟨p, -, rfl⟩ := Option.map_eq_some_iff.mp h
    exact .inr (p.bare_layout _ _ _)

/-- An expression that carries no alias has words of its own or is bare. -/
theorem worded_or_bare (v : Value) :
    (standard.exprLayout false v).Worded ∨ (standard.exprLayout false v).Bare := by
  cases v with
  | ident name => exact worded_or_bare_nameLayout name
  | map s => exact .inl (Layout.phrased_parens _).worded
  | seq items =>
    cases items with
    | nil => exact .inl trivial
    | cons head args =>
      unfold exprLayout listLayout
      dsimp only
      split
      · rename_i l hl
        obtain ⟨op, -, h⟩ := Option.bind_eq_some_iff.mp hl
        exact worded_or_bare_headed h
      · unfold plainList
        cases head with
        | ident op => exact .inl (Layout.phrased_call op args).worded
        | _ => exact .inl trivial
  | _ => exact .inr trivial

/-! ### Hollow expressions have silent layouts -/

/-- The policies that are not variadic keep nulls and need two operands. -/
theorem variadic_of_builtin : ∀ e ∈ OperatorPolicy.builtin,
    e.2.arity = .variadic ∨ e.2.ignoreNull = false ∧ e.2.unary = false := by
  decide

theorem not_hollow_str (s : String) : ¬ Hollow c (.str s) := by
  intro h
  cases h

theorem form_raw : standard.form? "raw" = some Form.verbatim := rfl

theorem form_inline : standard.form? "inline" = some Form.inlined := rfl

theorem form_param : standard.form? "param" = some Form.parameter := rfl

theorem form_lift : standard.form? "lift" = some Form.lifted := rfl

theorem silent_verbatim {op : String} {args : List Value} :
    (Form.verbatim op args).Silent c (Hollow c) ↔
      args = [.str ""] ∨
        ∃ parts, args = [.seq parts] ∧ ∀ part ∈ parts, part ≠ .str "" → Hollow c part := by
  refine (Form.silent_unary op args).trans ?_
  simp only [Layout.silent_raw not_hollow_str]
  constructor
  · rintro ⟨v, rfl, rfl | ⟨parts, rfl, h⟩⟩
    · exact .inl rfl
    · exact .inr ⟨parts, rfl, h⟩
  · rintro (rfl | ⟨parts, rfl, h⟩)
    · exact ⟨_, rfl, .inl rfl⟩
    · exact ⟨_, rfl, .inr ⟨parts, rfl, h⟩⟩

theorem nameLayout_param {s name : String} (hs : Text.stripLeading? '?' s = some name)
    (hne : name ≠ "") : nameLayout s = .named name := by
  have hsigil : Text.stripLeading? '%' s = none := by
    unfold Text.stripLeading? at hs ⊢
    cases hchars : s.toList with
    | nil => rfl
    | cons d ds =>
      simp only [hchars, Option.ite_none_right_eq_some] at hs ⊢
      rw [hs.1]
      rfl
  unfold nameLayout
  rw [hsigil, hs]
  dsimp only
  split
  · rename_i hempty
    exact absurd (Option.some.inj hempty) hne
  · rename_i hsome
    rw [Option.some.inj hsome]
  · rename_i hnone
    cases hnone

theorem silent_of_hollow {v : Value} (h : Hollow c v) :
    (standard.exprLayout false v).Silent c (Hollow c) := by
  cases h with
  | joined hop harity hcount h =>
    rw [exprLayout_operator hop,
      OperatorPolicy.silent_layout _ _ _ _ (variadic_of_builtin _ (Table.mem_of_get? hop))]
    exact ⟨harity, hcount, h⟩
  | verbatim hop =>
    rw [exprLayout_form (hop ▸ form_raw), silent_verbatim]
    exact .inl rfl
  | fragments hop h =>
    rw [exprLayout_form (hop ▸ form_raw), silent_verbatim]
    exact .inr ⟨_, rfl, h⟩
  | inlined hop h =>
    rw [exprLayout_form (hop ▸ form_inline), Form.silent_inlined]
    exact h
  | lifted hop h =>
    rw [exprLayout_form (hop ▸ form_lift)]
    exact h
  | parameter hop harg hname h =>
    rw [exprLayout_form (hop ▸ form_param), Form.silent_parameter]
    exact ⟨_, _, _, rfl, harg, hname, h⟩
  | named hs hne hname h =>
    rw [exprLayout, nameLayout_param hs hne]
    exact ⟨_, hname, h⟩
  | sigil hs hcall h =>
    simp only [exprLayout, nameLayout, hs, hcall]
    exact h

theorem hollow_of_silent_name {s : String} (h : (nameLayout s).Silent c (Hollow c)) :
    Hollow c (.ident s) := by
  cases hsigil : Text.stripLeading? '%' s with
  | some rest =>
    rw [nameLayout, hsigil] at h
    cases hcall : sigilCall? rest with
    | some call =>
      simp only [hcall] at h
      exact .sigil hsigil hcall h
    | none =>
      simp only [hcall] at h
      exact h.elim
  | none =>
    cases hparam : Text.stripLeading? '?' s with
    | some name =>
      by_cases hne : name = ""
      · rw [nameLayout, hsigil, hparam, hne] at h
        exact h.elim
      · rw [nameLayout_param hparam hne] at h
        obtain ⟨v, hname, hv⟩ := h
        exact .named hparam hne hname hv
    | none =>
      rw [nameLayout, hsigil, hparam] at h
      exact h.elim

/-- A list that heads no form and no operator is a call. -/
theorem worded_plainList (head : Value) (args : List Value) :
    (plainList false head args).Worded := by
  unfold plainList
  cases head with
  | ident op => exact (Layout.phrased_call op args).worded
  | _ => trivial

theorem hollow_of_silent_call {op : String} {args : List Value}
    (h : (standard.exprLayout false (.call op args)).Silent c (Hollow c)) :
    Hollow c (.call op args) := by
  cases hform : standard.form? (Text.lower op) with
  | some rule =>
    rw [exprLayout_form hform] at h
    by_cases hquiet : Text.lower op ∈ Form.quiet
    · simp only [Form.quiet, List.mem_cons, List.not_mem_nil, or_false] at hquiet
      rcases hquiet with hop | hop | hop | hop
      · rw [hop, form_raw] at hform
        cases hform
        rcases silent_verbatim.mp h with rfl | ⟨parts, rfl, hparts⟩
        · exact .verbatim hop
        · exact .fragments hop hparts
      · rw [hop, form_inline] at hform
        cases hform
        exact .inlined hop ((Form.silent_inlined _ _).mp h)
      · rw [hop, form_param] at hform
        cases hform
        obtain ⟨arg, name, v, rfl, harg, hname, hv⟩ := (Form.silent_parameter _ _).mp h
        exact .parameter hop harg hname hv
      · rw [hop, form_lift] at hform
        cases hform
        obtain ⟨v, rfl, hv⟩ := (Form.silent_unary _ _).mp h
        exact .lifted hop hv
    · have hworded := Form.worded_builtin (Text.lower op) args _ (Table.mem_of_get? hform) hquiet
      exact absurd h (Layout.not_silent_of_worded hworded)
  | none =>
    cases hop : Table.get? (Text.lower op) OperatorPolicy.builtin with
    | some p =>
      rw [exprLayout_operator hop,
        p.silent_layout _ _ _ (variadic_of_builtin _ (Table.mem_of_get? hop))] at h
      exact .joined hop h.1 h.2.1 h.2.2
    | none =>
      have hoperator : standard.operator? (Text.lower op) = none := hop
      have hplain :
          standard.exprLayout false (.call op args) = plainList false (.ident op) args := by
        simp only [Value.call, exprLayout, listLayout, Value.ident?, Option.bind_some, headed?,
          hform, hoperator, Option.map_none]
      rw [hplain] at h
      exact absurd h (Layout.not_silent_of_worded (worded_plainList _ _))

theorem hollow_of_silent {v : Value} (h : (standard.exprLayout false v).Silent c (Hollow c)) :
    Hollow c v := by
  cases v with
  | null => exact absurd h (Layout.not_silent_of_worded (by simp [exprLayout]))
  | bool b => cases h.2
  | int n => cases h.2
  | float x => cases h.2
  | str s => cases h.2
  | ident s => exact hollow_of_silent_name h
  | map s => exact absurd h (Layout.not_silent_of_worded (Layout.phrased_parens _).worded)
  | seq items =>
    cases items with
    | nil => exact h.elim
    | cons head args =>
      cases head with
      | ident op => exact hollow_of_silent_call h
      | _ => exact absurd h (Layout.not_silent_of_worded trivial)

theorem hollow_iff_silent (v : Value) :
    Hollow c v ↔ (standard.exprLayout false v).Silent c (Hollow c) :=
  ⟨silent_of_hollow, hollow_of_silent⟩

/-- **Hollow expressions are those written as nothing**, at every depth. -/
theorem tell_hollow (hstyle : c.style.Visible) (depth : Nat) :
    (standard.evaluators c depth).Tell (Hollow c) := by
  induction depth with
  | zero => exact fun _ h => absurd h Run.of_throw_ok
  | succ depth ih =>
    intro nested v s t sql hs h
    -- No alias may stand here, so the layout is that of an expression without alias.
    have hunder : Run.under (fun m => { m with aliasPosition := false, nested := nested })
        ((standard.exprLayout s.marker.aliasPosition v).eval c (standard.evaluators c depth)) s =
          (.ok sql, t) := h
    rw [hs] at hunder
    obtain ⟨u, heval, ht⟩ := Run.of_under_ok hunder
    rw [hollow_iff_silent]
    exact ⟨Layout.isEmpty_eval hstyle ih (worded_or_bare v) rfl heval, ht⟩

end Grammar
end Clausal
