import Clausal.Proofs.Congruence
import Clausal.Proofs.KeyOrder.Alike

/-! # Alike layouts

Layouts are *alike* when they have one shape and one wording, and alike values where values stand
(`Layout.Like`).  This is a congruence (`Layout.like_congruence`), and the phrases that clauses and
forms share make alike layouts of alike values.  Only assignments write a map entry by entry, so
only they ask for the same columns in the same order.
-/
namespace Clausal

open Value (Alike)

namespace Layout

/-- The layouts differ at most in the order of clauses of the values inside.  What goes wrong
need not be the same. -/
@[simp] def Like : Layout → Layout → Prop
  | .text s, .text t => s = t
  | .fail _ _, .fail _ _ => True
  | .entity m, .entity n => m = n
  | .aliasName m, .aliasName n => m = n
  | .aliasMark, .aliasMark => True
  | .missing m, .missing n => m = n
  | .value v, .value w => v.Alike w
  | .named m, .named n => m = n
  | .namedList m, .namedList n => m = n
  | .literal v, .literal w => v.Alike w
  | .expr m v, .expr n w => m = n ∧ v.Alike w
  | .aliased v, .aliased w => v.Alike w
  | .statement s, .statement t => (Value.map s).Alike (.map t)
  | .append a b, .append a' b' => a.Like a' ∧ b.Like b'
  | .beside sep a b, .beside sep' a' b' => sep = sep' ∧ a.Like a' ∧ b.Like b'
  | .lead s a, .lead t b => s = t ∧ a.Like b
  | .wrap a, .wrap b => a.Like b
  | .within s a, .within t b => s = t ∧ a.Like b
  | _, _ => False

/-! ### Phrases -/

section
variable {v w : Value} {as bs : List Value} {s t : Statement}

@[simp] theorem like_append (a b a' b' : Layout) :
    (a ++ b).Like (a' ++ b') ↔ a.Like a' ∧ b.Like b' := Iff.rfl

@[simp] theorem like_empty : empty.Like empty := rfl

@[simp] theorem like_top : (top v).Like (top w) ↔ v.Alike w := by
  simp [top]

@[simp] theorem like_inner : (inner v).Like (inner w) ↔ v.Alike w := by
  simp [inner]

@[simp] theorem like_parens (l l' : Layout) : (parens l).Like (parens l') ↔ l.Like l' := by
  simp [parens]

@[simp] theorem like_nestedStatement :
    (nestedStatement s).Like (nestedStatement t) ↔ (Value.map s).Alike (.map t) := by
  simp [nestedStatement]

/-- **Alike layouts are put together from alike layouts.** -/
theorem like_congruence : Congruence Alike Like where
  text _ := rfl
  expr _ _ _ h := ⟨rfl, h⟩
  append h h' := ⟨h, h'⟩
  beside _ _ _ _ _ h h' := ⟨rfl, h, h'⟩
  wrap h := h
  isNull h := h.isNull
  isWord h := h.isWord
  statement h := by
    have hwhole := h
    cases h with
    | map => exact .inl ⟨_, _, rfl, rfl, hwhole⟩
    | _ => exact .inr ⟨rfl, rfl⟩

/-- What a refused layout shows does not count. -/
theorem OrRefused.like {l m : Layout} (h : OrRefused Like l m) : l.Like m :=
  h.of_fail fun _ _ _ => trivial

theorem like_commas {f : Value → Layout} (hf : ∀ v w, Alike v w → (f v).Like (f w))
    (h : List.Forall₂ Alike as bs) : (commas (as.map f)).Like (commas (bs.map f)) :=
  like_congruence.join_map ", " h hf

theorem like_column (h : Alike v w) : (column v).Like (column w) := by
  unfold column
  rw [h.text?]
  split <;> simp

theorem like_columns (h : List.Forall₂ Alike as bs) : (columns as).Like (columns bs) :=
  (like_parens _ _).mpr (like_commas (fun _ _ => like_column) h)

theorem like_table (h : Alike v w) : (table v).Like (table w) := by
  have hwhole := h
  cases h <;> simp [table, hwhole]

theorem like_withAlias {target target' name name' : Value} (htarget : Alike target target')
    (hname : Alike name name') : (withAlias target name).Like (withAlias target' name') := by
  refine ⟨?_, ?_⟩
  · have hwhole := htarget
    cases htarget <;> simp [hwhole]
  · rw [hname.text?]
    split <;> simp

theorem like_aliasedList (h : Alike v w) : (aliasedList v).Like (aliasedList w) :=
  like_commas (fun _ _ h => h) h.items

theorem like_tables (h : Alike v w) : (tables v).Like (tables w) :=
  like_commas (fun _ _ => like_table) h.items

theorem like_exprs (h : Alike v w) : (exprs v).Like (exprs w) :=
  like_commas (fun _ _ => like_top.mpr) h.items

theorem like_orderItem (h : Alike v w) : (orderItem v).Like (orderItem w) := by
  have hwhole := h
  cases h with
  | seq h =>
    cases h with
    | nil => simp [orderItem, hwhole]
    | cons hab h =>
      cases h with
      | nil => simp [orderItem, hab]
      | cons hcd h =>
        -- Only a pair whose second member is a name has a direction of its own.
        cases h with
        | nil => cases hcd <;> simp [orderItem, hab, hwhole]
        | cons => simp [orderItem, hwhole]
  | _ => simp [orderItem, hwhole]

theorem like_orderItems (h : List.Forall₂ Alike as bs) : (orderItems as).Like (orderItems bs) :=
  like_commas (fun _ _ => like_orderItem) h

/-- Assignments are written in the order of the columns, so this order must be the same. -/
theorem like_assignments (h : Alike (.map s) (.map t)) (htags : s.tags = t.tags) :
    (assignments s).Like (assignments t) := by
  have hentries := h.entries htags
  have hempty : s.isEmpty = t.isEmpty := by
    cases hentries <;> rfl
  unfold assignments
  rw [hempty]
  split
  · trivial
  · refine like_congruence.join_map ", " hentries fun e f hef => ?_
    simp [hef.1, hef.2]

theorem like_raw (h : Alike v w) : (raw v).Like (raw w) := by
  cases h with
  | seq h =>
    unfold raw
    induction h with
    | nil => exact like_empty
    | cons hab h ih =>
      refine (like_append _ _ _ _).mpr ⟨?_, ih⟩
      have hpart := hab
      cases hab <;> simp [hpart]
  | _ => simp [raw]

end

end Layout

end Clausal
