import Clausal.Proofs.Congruence
import Clausal.Proofs.Interchange

/-! # Places for expressions in expressions

Operators, forms and calls lay out their operands and arguments as expressions, so exchanged
expressions can stand there.  A value *stands for* another when it may take its place and looks the
same to the rules around it (`Grammar.StandsFor`).  This goes on from operands to operators and from
arguments to forms and calls.

What is refused is shown as it stands.  The wrong number of operands is therefore no place for
exchanged expressions, and neither is what is laid out as a name, a literal or a bound value.
-/
namespace Clausal

open Layout (OrRefused)

/-! ### Operators that take their operands -/

namespace OperatorPolicy
variable {p : OperatorPolicy} {args : List Value}

theorem takes_zero (p : OperatorPolicy) : p.takes 0 = false := by
  unfold takes
  cases p.arity with
  | variadic => cases p.unary <;> rfl
  | _ => rfl

theorem unary_of_takes_one (h : p.takes 1 = true) : p.unary = true := by
  unfold takes at h
  cases harity : p.arity with
  | variadic =>
    rw [harity] at h
    cases hunary : p.unary with
    | true => rfl
    | false => simp [hunary] at h
  | _ => simp [harity] at h

/-- An operator that takes so many operands does not complain. -/
theorem layout_ne_fail
    (hcount : p.takes (p.operands args).length = true ∨ p.ignoreNull = true ∧ p.operands args = [])
    (op : String) (whole : Value) (complaint : Complaint) (v : Value) :
    p.layout op args whole ≠ .fail complaint v := by
  rcases hoperands : p.operands args with _ | ⟨x, _ | ⟨y, rest⟩⟩
  · have hnull : p.ignoreNull = true := by
      rcases hcount with htakes | ⟨hnull, -⟩
      · rw [hoperands, List.length_nil, takes_zero] at htakes
        cases htakes
      · exact hnull
    rw [layout_of_nil op whole hoperands, hnull]
    intro hfail
    cases hfail
  · have hunary : p.unary = true := by
      rcases hcount with htakes | ⟨-, hnil⟩
      · rw [hoperands] at htakes
        exact unary_of_takes_one htakes
      · rw [hoperands] at hnil
        cases hnil
    rw [layout_of_single op whole hoperands, hunary]
    intro hfail
    cases hfail
  · rw [layout_of_many op whole hoperands]
    unfold joined
    cases harity : p.arity with
    | binary =>
      rw [hoperands] at hcount
      simp only [takes, harity, List.length_cons, beq_iff_eq, reduceCtorEq, and_false,
        or_false, Nat.reduceEqDiff, List.length_eq_zero_iff] at hcount
      rw [hcount]
      intro hfail
      cases hfail
    | comparison =>
      intro hfail
      cases hfail
    | variadic =>
      intro hfail
      cases hfail

end OperatorPolicy

/-- The forms whose first argument is an expression, and whose others are not. -/
def Form.leading : List String :=
  ["in", "not-in", "cast", "interval", "escape", "within-group", "over", "at-time-zone",
    "order-by"]

namespace Grammar

/-! ### Values that stand for one another -/

/-- The values are exchanged, or values inside are, and both are calls of one name or both are
statements. -/
inductive StandsFor (g : Grammar) (c : Context) (R : Value → Value → Prop) : Value → Value → Prop
  | same (v : Value) : StandsFor g c R v v
  | call {op : String} {as bs : List Value} (h : Exchanged g c R (.call op as) (.call op bs)) :
      StandsFor g c R (.call op as) (.call op bs)
  | statement {s t : Statement} (h : ExchangedIn g c R (.statement s) (.statement t)) :
      StandsFor g c R (.map s) (.map t)

variable {g : Grammar} {c : Context} {R : Value → Value → Prop} {v w : Value}
  {as bs : List Value} {op : String}

theorem StandsFor.exchanged (h : StandsFor g c R v w) : Exchanged g c R v w := by
  cases h with
  | same v => exact .inside (.same _)
  | call h => exact h
  | statement h => exact .inside (.append (.append (.same _) h) (.same _))

theorem StandsFor.exchangedIn_statement {s t : Statement} (h : StandsFor g c R (.map s) (.map t)) :
    ExchangedIn g c R (.statement s) (.statement t) := by
  cases h with
  | same => exact .same _
  | statement h => exact h

/-- **Layouts around values that stand for one another are put together alike.** -/
theorem exchangedIn_congruence : Layout.Congruence (StandsFor g c R) (ExchangedIn g c R) where
  text _ := .same _
  expr nesting _ _ h := .expr nesting h.exchanged
  append := .append
  beside := .beside
  wrap := .wrap
  isNull h := by cases h <;> rfl
  isWord h word := by cases h <;> rfl
  statement h := by
    cases h with
    | same =>
      rename_i v
      cases v with
      | map s => exact .inl ⟨s, s, rfl, rfl, .same _⟩
      | _ => exact .inr ⟨rfl, rfl⟩
    | call => exact .inr ⟨rfl, rfl⟩
    | statement h => exact .inl ⟨_, _, rfl, rfl, h⟩

/-- A name heads a form, an operator or neither, whatever its arguments. -/
theorem isSome_headed? (g : Grammar) (op : String) (as bs : List Value) :
    (g.headed? op as).isSome = (g.headed? op bs).isSome := by
  simp only [headed?]
  cases g.form? (Text.lower op) with
  | some rule => rfl
  | none => simp only [Option.isSome_map]

/-! ### Operands and arguments -/

namespace StandsFor

/-- **Operands**, if the operator takes so many. -/
theorem operator {p : OperatorPolicy}
    (hp : Table.get? (Text.lower op) OperatorPolicy.builtin = some p)
    (h : List.Forall₂ (StandsFor standard c R) as bs)
    (hcount : p.takes (p.operands as).length = true ∨ p.ignoreNull = true ∧ p.operands as = []) :
    StandsFor standard c R (.call op as) (.call op bs) := by
  refine .call (.inside ?_)
  rw [exprLayout_operator hp, exprLayout_operator hp]
  exact (exchangedIn_congruence.operator p _ h _ _).of_not_fail
    (OperatorPolicy.layout_ne_fail hcount _ _)

theorem of_form {rule : FormRule} (hform : g.form? (Text.lower op) = some rule)
    (h : OrRefused (ExchangedIn g c R) (rule (Text.lower op) as) (rule (Text.lower op) bs))
    (htaken : ∀ complaint v, rule (Text.lower op) as ≠ .fail complaint v) :
    StandsFor g c R (.call op as) (.call op bs) := by
  refine .call (.inside ?_)
  rw [exprLayout_form hform, exprLayout_form hform]
  exact h.of_not_fail htaken

/-- **Arguments of a form that takes expressions only.** -/
theorem form {rule : FormRule} (hform : standard.form? (Text.lower op) = some rule)
    (hop : Text.lower op ∈ Form.wholly) (h : List.Forall₂ (StandsFor standard c R) as bs)
    (htaken : ∀ complaint v, rule (Text.lower op) as ≠ .fail complaint v) :
    StandsFor standard c R (.call op as) (.call op bs) :=
  of_form hform (exchangedIn_congruence.form h _ (Table.mem_of_get? hform) hop) htaken

/-- **Arguments of a call** that heads no form and no operator. -/
theorem arguments (hop : ∀ args, g.headed? op args = none)
    (h : List.Forall₂ (StandsFor g c R) as bs) :
    StandsFor g c R (.call op as) (.call op bs) := by
  have hcall (args : List Value) : g.exprLayout false (.call op args) = .call op args := by
    simp only [Value.call, exprLayout, listLayout, Value.ident?, Option.bind_some, hop, plainList]
  refine .call (.inside ?_)
  rw [hcall, hcall]
  exact exchangedIn_congruence.call op h

/-- The first of two arguments. -/
theorem orRefused_binary {S : Layout → Layout → Prop} {body : String → Value → Value → Layout}
    (h : ∀ arg, S (body op v arg) (body op w arg)) (args : List Value) :
    OrRefused S (Form.binary body op (v :: args)) (Form.binary body op (w :: args)) := by
  rcases args with _ | ⟨arg, _ | ⟨arg', args⟩⟩
  · exact .refused _ _ _
  · exact .related (h arg)
  · exact .refused _ _ _

theorem orRefused_leading (h : StandsFor g c R v w) (args : List Value) :
    ∀ e ∈ Form.builtin, e.1 ∈ Form.leading →
      OrRefused (ExchangedIn g c R) (e.2 op (v :: args)) (e.2 op (w :: args)) := by
  have htop : ExchangedIn g c R (.top v) (.top w) := .expr .top h.exchanged
  have hinner : ExchangedIn g c R (.inner v) (.inner w) := .expr .nested h.exchanged
  have hmembership : OrRefused (ExchangedIn g c R) (Form.membership op (v :: args))
      (Form.membership op (w :: args)) :=
    orRefused_binary (fun _ => .wrap (.append (.append hinner (.same _)) (.same _))) args
  have hcast : OrRefused (ExchangedIn g c R) (Form.cast op (v :: args))
      (Form.cast op (w :: args)) :=
    orRefused_binary (fun _ => .append (.append (.append (.append (.same _) htop) (.same _))
      (.same _)) (.same _)) args
  have hinterval : OrRefused (ExchangedIn g c R) (Form.interval op (v :: args))
      (Form.interval op (w :: args)) := by
    rcases args with _ | ⟨arg, _ | ⟨arg', args⟩⟩
    · exact .related (.append (.same _) htop)
    · exact .related (.append (.append (.append (.same _) htop) (.same _)) (.same _))
    · exact .refused _ _ _
  have hescaping : OrRefused (ExchangedIn g c R) (Form.escaping op (v :: args))
      (Form.escaping op (w :: args)) :=
    orRefused_binary (fun _ => .wrap (.append (.append htop (.same _)) (.same _))) args
  have hwithinGroup : OrRefused (ExchangedIn g c R) (Form.withinGroup op (v :: args))
      (Form.withinGroup op (w :: args)) :=
    orRefused_binary (fun _ => .append (.append (.append htop (.same _)) (.same _)) (.same _)) args
  have hwindowed : OrRefused (ExchangedIn g c R) (Form.windowed op (v :: args))
      (Form.windowed op (w :: args)) :=
    orRefused_binary (fun _ => .append (.append htop (.same _)) (.same _)) args
  have hatTimeZone : OrRefused (ExchangedIn g c R) (Form.atTimeZone op (v :: args))
      (Form.atTimeZone op (w :: args)) :=
    orRefused_binary (fun _ => .wrap (.append (.append hinner (.same _)) (.same _))) args
  have hordered : OrRefused (ExchangedIn g c R) (Form.ordered op (v :: args))
      (Form.ordered op (w :: args)) := .related (.append (.append htop (.same _)) (.same _))
  simp [Form.builtin, Form.leading, hmembership, hcast, hinterval, hescaping, hwithinGroup,
    hwindowed, hatTimeZone, hordered]

/-- **The first argument of a form**, where the others are no expressions. -/
theorem first {rule : FormRule} (hform : standard.form? (Text.lower op) = some rule)
    (hop : Text.lower op ∈ Form.leading) (h : StandsFor standard c R v w) {args : List Value}
    (htaken : ∀ complaint u, rule (Text.lower op) (v :: args) ≠ .fail complaint u) :
    StandsFor standard c R (.call op (v :: args)) (.call op (w :: args)) :=
  of_form hform (orRefused_leading h args _ (Table.mem_of_get? hform) hop) htaken

/-- **The items of an array.** -/
theorem array (hop : Text.lower op = "array") (h : List.Forall₂ (StandsFor standard c R) as bs) :
    StandsFor standard c R (.call op [.seq as]) (.call op [.seq bs]) :=
  of_form (hop ▸ rfl : standard.form? (Text.lower op) = some Form.array)
    (.related (.append (.append (.same _) (exchangedIn_congruence.commas_top h)) (.same _))) nofun

/-- **Listed candidates**, if the list is not read as the reference to a parameter. -/
theorem candidates (hop : Text.lower op ∈ ["in", "not-in"]) (h : StandsFor standard c R v w)
    (hlist : List.Forall₂ (StandsFor standard c R) as bs) (has : (Value.seq as).paramRef? = none)
    (hbs : (Value.seq bs).paramRef? = none) :
    StandsFor standard c R (.call op [v, .seq as]) (.call op [w, .seq bs]) := by
  have hlisted :
      ExchangedIn standard c R (Form.candidates (.seq as)) (Form.candidates (.seq bs)) := by
    unfold Form.candidates
    rw [has, hbs]
    exact exchangedIn_congruence.valueList hlist
  exact of_form (form_membership hop) (.related (.wrap (.append (.append
    (.expr .nested h.exchanged) (.same _)) hlisted))) nofun

/-- **Candidates that a statement gives.** -/
theorem subquery (hop : Text.lower op ∈ ["in", "not-in"]) (h : StandsFor standard c R v w)
    {s t : Statement} (hst : StandsFor standard c R (.map s) (.map t)) :
    StandsFor standard c R (.call op [v, .map s]) (.call op [w, .map t]) :=
  of_form (form_membership hop) (.related (.wrap (.append (.append (.expr .nested h.exchanged)
    (.same _)) (exchangedIn_congruence.nest hst)))) nofun

/-- **The window of a window function**, and the function itself. -/
theorem windowed (hop : Text.lower op = "over") (h : StandsFor standard c R v w)
    {s t : Statement} (hst : StandsFor standard c R (.map s) (.map t)) :
    StandsFor standard c R (.call op [v, .map s]) (.call op [w, .map t]) :=
  of_form (hop ▸ rfl : standard.form? (Text.lower op) = some Form.windowed)
    (.related (.append (.append (.expr .top h.exchanged) (.same _))
      (exchangedIn_congruence.nest hst))) nofun

end StandsFor

/-! ### Items -/

/-- The items are the same but for expressions that are exchanged, where an alias may stand. -/
inductive ItemStandsFor (g : Grammar) (c : Context) (R : Value → Value → Prop) :
    Value → Value → Prop
  | same (v : Value) : ItemStandsFor g c R v v
  | aliased {v w : Value} (h : StandsFor g c R v w) (name : Value) :
      ItemStandsFor g c R (.seq [v, name]) (.seq [w, name])
  /-- A call of another name with one argument would be a target and its alias. -/
  | plain {v w : Value} (h : StandsFor g c R v w)
      (hhead : ∀ op args, v = .call op args → (g.headed? op args).isSome = true) :
      ItemStandsFor g c R v w

namespace ItemStandsFor

theorem exchangedIn (h : ItemStandsFor g c R v w) :
    ExchangedIn g c R (.aliased v) (.aliased w) := by
  cases h with
  | same => exact .same _
  | aliased h name =>
    cases h with
    | same => exact .same _
    | call h => exact .target (.append (.expr .top h) (.same _))
    | statement h =>
      exact .target (.append (.expr .top (StandsFor.statement h).exchanged) (.same _))
  | plain h hhead =>
    cases h with
    | same => exact .same _
    | statement h => exact .target (.append (.append (.same _) h) (.same _))
    | @call op as bs h =>
      cases h with
      | here h => exact .aliased h
      | inside h =>
        have hlayout (args : List Value) :
            g.exprLayout true (.call op args) = g.exprLayout false (.call op args) := by
          have hheaded : (g.headed? op args).isSome = true :=
            (isSome_headed? g op args as).trans (hhead op as rfl)
          obtain ⟨l, hl⟩ := Option.isSome_iff_exists.mp hheaded
          simp only [Value.call, exprLayout, listLayout, Value.ident?, Option.bind_some, hl]
        refine .target ?_
        rw [hlayout, hlayout]
        exact h

theorem table (h : ItemStandsFor g c R v w) : ExchangedIn g c R (.table v) (.table w) := by
  have hitem := h.exchangedIn
  cases h with
  | same => exact .same _
  | aliased => exact hitem
  | plain h =>
    cases h with
    | same => exact .same _
    | call => exact hitem
    | statement => exact hitem

end ItemStandsFor

end Grammar
end Clausal
