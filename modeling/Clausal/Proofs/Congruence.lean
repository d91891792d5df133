import Clausal.Proofs.Operands
import Mathlib.Data.List.Forall2

/-! # Layouts of related values

Rules put layouts together from a few pieces.  A relation between layouts that respects these
pieces, and relates expressions that are related as values, is a *congruence*
(`Layout.Congruence`).  It holds of the phrases that many rules share, of operators
(`Congruence.operator`), of calls, and of the forms all of whose arguments are expressions
(`Congruence.form`), as soon as it holds of the operands.

A rule that gets the wrong number of arguments shows them in its complaint, so there the layouts
are related only up to what is shown (`Layout.OrRefused`).
-/
namespace Clausal

namespace Layout

/-- A relation between layouts that respects how they are put together, if `T` relates values that
stand as expressions. -/
structure Congruence (T : Value → Value → Prop) (S : Layout → Layout → Prop) : Prop where
  text (s : String) : S (.text s) (.text s)
  expr (nesting : Nesting) {v w : Value} (h : T v w) : S (.expr nesting v) (.expr nesting w)
  append {k l m n : Layout} (h : S k m) (h' : S l n) : S (k ++ l) (m ++ n)
  beside (sep : String) {k l m n : Layout} (h : S k m) (h' : S l n) :
    S (.beside sep k l) (.beside sep m n)
  wrap {l m : Layout} (h : S l m) : S (.wrap l) (.wrap m)
  isNull {v w : Value} (h : T v w) : v.isNull = w.isNull
  isWord {v w : Value} (h : T v w) (word : String) : v.isWord word = w.isWord word
  /-- A statement is related to statements only. -/
  statement {v w : Value} (h : T v w) :
    (∃ s t, v = .map s ∧ w = .map t ∧ S (.statement s) (.statement t)) ∨
      v.map? = none ∧ w.map? = none

/-- The layouts are related, or both are refused for the same reason. -/
inductive OrRefused (S : Layout → Layout → Prop) : Layout → Layout → Prop
  | related {l m : Layout} (h : S l m) : OrRefused S l m
  | refused (complaint : Complaint) (v w : Value) :
      OrRefused S (.fail complaint v) (.fail complaint w)

variable {T : Value → Value → Prop} {S : Layout → Layout → Prop} {l m : Layout}

/-- Nothing is shown of values that are not refused. -/
theorem OrRefused.of_not_fail (h : OrRefused S l m) (hl : ∀ complaint v, l ≠ .fail complaint v) :
    S l m := by
  cases h with
  | related h => exact h
  | refused complaint v w => exact absurd rfl (hl complaint v)

/-- Relations that do not look at what is shown. -/
theorem OrRefused.of_fail (h : OrRefused S l m)
    (hfail : ∀ complaint v w, S (.fail complaint v) (.fail complaint w)) : S l m := by
  cases h with
  | related h => exact h
  | refused complaint v w => exact hfail complaint v w

namespace Congruence
variable (hS : Congruence T S) {v w : Value} {as bs : List Value}
include hS

/-! ### Phrases -/

theorem parens (h : S l m) : S l.parens m.parens := hS.append (hS.append (hS.text _) h) (hS.text _)

/-- A word set off by spaces. -/
theorem spaced (word : String) :
    S (Layout.text " " ++ Layout.text word ++ Layout.text " ")
      (Layout.text " " ++ Layout.text word ++ Layout.text " ") :=
  hS.append (hS.append (hS.text _) (hS.text _)) (hS.text _)

theorem join (sep : String) {ls ms : List Layout} (h : List.Forall₂ S ls ms) :
    S (join sep ls) (join sep ms) := by
  induction h with
  | nil => exact hS.text ""
  | cons hl h ih =>
    cases h with
    | nil => exact hl
    | cons hl' h => exact hS.append (hS.append hl (hS.text sep)) ih

/-- Parts that are related one by one. -/
theorem join_map {α : Type} {R : α → α → Prop} {f g : α → Layout} (sep : String) {xs ys : List α}
    (h : List.Forall₂ R xs ys) (hf : ∀ a b, R a b → S (f a) (g b)) :
    S (Layout.join sep (xs.map f)) (Layout.join sep (ys.map g)) := by
  refine hS.join sep ?_
  rw [List.forall₂_map_left_iff, List.forall₂_map_right_iff]
  exact h.imp fun _ _ => hf _ _

theorem joinKept (sep : String) {ls ms : List Layout} (h : List.Forall₂ S ls ms) :
    S (joinKept sep ls) (joinKept sep ms) := by
  induction h with
  | nil => exact hS.text ""
  | cons hl _ ih => exact hS.beside sep hl ih

theorem commas_top (h : List.Forall₂ T as bs) : S (commas (as.map top)) (commas (bs.map top)) :=
  hS.join_map ", " h fun _ _ => hS.expr .top

theorem valueList (h : List.Forall₂ T as bs) : S (valueList as) (valueList bs) :=
  hS.parens (hS.commas_top h)

theorem nest (h : T v w) : S (nest v) (nest w) := by
  have htop := hS.parens (hS.expr .top h)
  rcases hS.statement h with ⟨s, t, rfl, rfl, hst⟩ | ⟨hv, hw⟩
  · exact hS.parens hst
  · cases v with
    | map s => cases hv
    | _ =>
      cases w with
      | map t => cases hw
      | _ => exact htop

/-- A lone statement is written without parentheses of its own. -/
theorem call (name : String) (h : List.Forall₂ T as bs) : S (call name as) (call name bs) := by
  have hcommas := hS.commas_top h
  refine hS.append (hS.text _) (hS.parens ?_)
  cases h with
  | nil => exact hcommas
  | @cons a b as bs hab h =>
    cases h with
    | cons => cases a <;> cases b <;> exact hcommas
    | nil =>
      rcases hS.statement hab with ⟨s, t, rfl, rfl, hst⟩ | ⟨ha, hb⟩
      · exact hst
      · cases a with
        | map s => cases ha
        | _ =>
          cases b with
          | map t => cases hb
          | _ => exact hcommas

/-! ### Operators -/

theorem comparison (op sql : String) {a b c d : Value} (hab : T a b) (hcd : T c d) :
    S (comparison op sql a c) (comparison op sql b d) := by
  have hplain : S (inner a ++ (" " ++ sql ++ " ") ++ inner c)
      (inner b ++ (" " ++ sql ++ " ") ++ inner d) :=
    hS.append (hS.append (hS.expr .nested hab) (hS.spaced sql)) (hS.expr .nested hcd)
  unfold Clausal.comparison
  dsimp only
  rw [hS.isNull hab, hS.isNull hcd]
  split
  · exact hplain
  · split
    · exact hS.append (hS.expr .nested hab) (hS.text _)
    · split
      · exact hS.append (hS.expr .nested hcd) (hS.text _)
      · exact hplain

omit hS in
theorem forall₂_neighbours (h : List.Forall₂ T as bs) :
    List.Forall₂ (fun p q => T p.1 q.1 ∧ T p.2 q.2) (neighbours as) (neighbours bs) := by
  induction h with
  | nil => exact .nil
  | cons hab h ih =>
    cases h with
    | nil => exact .nil
    | cons hcd h => exact .cons ⟨hab, hcd⟩ ih

theorem forall₂_operands (p : OperatorPolicy) (h : List.Forall₂ T as bs) :
    List.Forall₂ T (p.operands as) (p.operands bs) := by
  unfold OperatorPolicy.operands
  split
  · refine List.rel_filter ?_ h
    intro v w hvw
    simp only [hS.isNull hvw]
  · exact h

theorem joined (p : OperatorPolicy) (op sql : String) (h : List.Forall₂ T as bs)
    (whole whole' : Value) :
    OrRefused S (p.joined op sql as whole) (p.joined op sql bs whole') := by
  unfold OperatorPolicy.joined
  split
  · cases h with
    | nil => exact .refused _ _ _
    | cons hab h =>
      cases h with
      | nil => exact .refused _ _ _
      | cons hcd h =>
        cases h with
        | nil => exact .related (hS.wrap (hS.comparison op sql hab hcd))
        | cons => exact .refused _ _ _
  · exact .related (hS.wrap (hS.join_map " AND " (forall₂_neighbours h) fun _ _ hpq =>
      hS.comparison op sql hpq.1 hpq.2))
  · refine .related (hS.wrap (hS.joinKept _ ?_))
    rw [List.forall₂_map_left_iff, List.forall₂_map_right_iff]
    exact h.imp fun _ _ => hS.expr .nested

/-- **Operators with related operands have related layouts**, unless they refuse them. -/
theorem operator (p : OperatorPolicy) (op : String) (h : List.Forall₂ T as bs)
    (whole whole' : Value) :
    OrRefused S (p.layout op as whole) (p.layout op bs whole') := by
  have hoperands := hS.forall₂_operands p h
  generalize has : p.operands as = operands, hbs : p.operands bs = operands' at hoperands
  cases hoperands with
  | nil =>
    rw [OperatorPolicy.layout_of_nil op whole has, OperatorPolicy.layout_of_nil op whole' hbs]
    split
    · exact .related (hS.text "")
    · exact .refused _ _ _
  | cons hab hrest =>
    cases hrest with
    | nil =>
      rw [OperatorPolicy.layout_of_single op whole has,
        OperatorPolicy.layout_of_single op whole' hbs]
      split
      · exact .related (hS.expr .same hab)
      · exact .refused _ _ _
    | cons hcd hrest =>
      rw [OperatorPolicy.layout_of_many op whole has, OperatorPolicy.layout_of_many op whole' hbs]
      exact hS.joined p op _ (.cons hab (.cons hcd hrest)) whole whole'

end Congruence

end Layout

/-! ### Forms -/

namespace Form
variable {T : Value → Value → Prop} {S : Layout → Layout → Prop} {op : String} {as bs : List Value}

open Layout

theorem related_unary {body : String → Value → Layout} (h : List.Forall₂ T as bs)
    (hbody : ∀ a b, T a b → S (body op a) (body op b)) :
    OrRefused S (unary body op as) (unary body op bs) := by
  cases h with
  | nil => exact .refused _ _ _
  | cons hab h =>
    cases h with
    | nil => exact .related (hbody _ _ hab)
    | cons => exact .refused _ _ _

theorem related_binary {body : String → Value → Value → Layout} (h : List.Forall₂ T as bs)
    (hbody : ∀ a b c d, T a b → T c d → S (body op a c) (body op b d)) :
    OrRefused S (binary body op as) (binary body op bs) := by
  cases h with
  | nil => exact .refused _ _ _
  | cons hab h =>
    cases h with
    | nil => exact .refused _ _ _
    | cons hcd h =>
      cases h with
      | nil => exact .related (hbody _ _ _ _ hab hcd)
      | cons => exact .refused _ _ _

theorem related_ternary {body : String → Value → Value → Value → Layout}
    (h : List.Forall₂ T as bs)
    (hbody : ∀ a b c d e f, T a b → T c d → T e f → S (body op a c e) (body op b d f)) :
    OrRefused S (ternary body op as) (ternary body op bs) := by
  cases h with
  | nil => exact .refused _ _ _
  | cons hab h =>
    cases h with
    | nil => exact .refused _ _ _
    | cons hcd h =>
      cases h with
      | nil => exact .refused _ _ _
      | cons hef h =>
        cases h with
        | nil => exact .related (hbody _ _ _ _ _ _ hab hcd hef)
        | cons => exact .refused _ _ _

/-- The forms all of whose arguments are expressions. -/
def wholly : List String :=
  ["not", "exists", "between", "not-between", "case", "nest", "composite", "distinct", "filter"]

end Form

namespace Layout.Congruence
variable {T : Value → Value → Prop} {S : Layout → Layout → Prop} (hS : Congruence T S)
  {op : String} {as bs : List Value}
include hS

open Form

theorem existence (h : List.Forall₂ T as bs) :
    OrRefused S (existence op as) (existence op bs) := by
  refine related_unary h fun a b hab => ?_
  have htop := hS.append (hS.text "EXISTS") (hS.parens (hS.expr .top hab))
  rcases hS.statement hab with ⟨s, t, rfl, rfl, hst⟩ | ⟨ha, hb⟩
  · exact hS.append (hS.text _) (hS.parens hst)
  · cases a with
    | map s => cases ha
    | _ =>
      cases b with
      | map t => cases hb
      | _ => exact htop

theorem branches (h : List.Forall₂ T as bs) : S (branches as) (branches bs) := by
  fun_induction Form.branches as generalizing bs with
  | case1 condition result as ih =>
    cases h with
    | cons hcondition h =>
      cases h with
      | cons hresult h =>
        refine hS.append ?_ (ih h)
        rw [hS.isWord hcondition]
        split
        · exact hS.append (hS.text _) (hS.expr .top hresult)
        · exact hS.append (hS.append (hS.append (hS.text _) (hS.expr .top hcondition))
            (hS.text _)) (hS.expr .top hresult)
  | case2 as hne =>
    cases h with
    | nil => exact hS.text ""
    | cons _ h =>
      cases h with
      | nil => exact hS.text ""
      | cons => exact absurd rfl (hne _ _ _)

theorem distinction (h : List.Forall₂ T as bs) :
    OrRefused S (distinction op as) (distinction op bs) := by
  have hempty : as.isEmpty = bs.isEmpty := by
    cases h <;> rfl
  unfold Form.distinction
  rw [hempty, h.length_eq]
  split
  · exact .refused _ _ _
  · exact .related (hS.append (hS.append (hS.text _) (hS.branches h)) (hS.text _))

/-- **Forms of related expressions have related layouts**, unless they refuse them. -/
theorem form (h : List.Forall₂ T as bs) :
    ∀ e ∈ builtin, e.1 ∈ wholly → OrRefused S (e.2 op as) (e.2 op bs) := by
  have hnegation : OrRefused S (negation op as) (negation op bs) :=
    related_unary h fun _ _ hab => hS.wrap (hS.append (hS.text _) (hS.expr .nested hab))
  have hrange : OrRefused S (range op as) (range op bs) :=
    related_ternary h fun _ _ _ _ _ _ hab hcd hef =>
      hS.wrap (hS.append (hS.append (hS.append (hS.append (hS.expr .nested hab) (hS.spaced _))
        (hS.expr .nested hcd)) (hS.text _)) (hS.expr .nested hef))
  have hnested : OrRefused S (nested op as) (nested op bs) :=
    related_unary h fun _ _ hab => hS.nest hab
  have hcomposite : OrRefused S (composite op as) (composite op bs) := .related (hS.valueList h)
  have hdistinct : OrRefused S (distinct op as) (distinct op bs) :=
    related_unary h fun _ _ hab => hS.append (hS.text _) (hS.expr .top hab)
  have hfiltered : OrRefused S (filtered op as) (filtered op bs) :=
    related_binary h fun _ _ _ _ hab hcd =>
      hS.append (hS.append (hS.append (hS.expr .top hab) (hS.text _)) (hS.expr .top hcd))
        (hS.text _)
  simp [builtin, wholly, hnegation, hrange, hnested, hcomposite, hdistinct, hfiltered,
    hS.existence h, hS.distinction h]

end Layout.Congruence

end Clausal
