import Clausal.Proofs.Draft.Format

/-! # Placeholders

Every bound parameter has exactly one placeholder, and the placeholders stand in
the order of the parameters: the text with `?` and the text with `$1`, `$2`, … are
woven from the same segments (`Grammar.placeholders_aligned`).

The draft of a statement does not depend on how holes are written, and neither
does its settled form, so both texts are read off one settled draft.  There a slot
is a parameter and its place in one, which is why none can lose its placeholder.
-/
namespace Clausal

/-- The outcomes are one fault, or one list of `n` parameters and two texts: `n + 1`
segments with question marks between them, and the same segments with `$1` to `$n`
between them. -/
def Aligned (positional numbered : Except Fault Formatted) : Prop :=
  (∃ e, positional = .error e ∧ numbered = .error e) ∨
    ∃ (first : String) (rest : List String) (params : List Value),
      rest.length = params.length ∧
      positional = .ok ⟨weave first rest (Placeholder.positional.marks params.length), params⟩ ∧
      numbered = .ok ⟨weave first rest (Placeholder.numbered.marks params.length), params⟩

namespace Grammar

theorem aligned_bind (g : Grammar) (o : Options) (admitted : Except Fault Dialect)
    (draft : Shape → Draft) :
    Aligned
      (admitted.bind fun d => g.formatDraft { o with numbered := false } d draft)
      (admitted.bind fun d => g.formatDraft { o with numbered := true } d draft) := by
  cases admitted with
  | error e => exact .inl ⟨e, rfl, rfl⟩
  | ok d =>
    have hagree : Token.Agree (g.context { o with numbered := false } d false)
        (g.context { o with numbered := true } d false) := ⟨rfl, rfl, rfl⟩
    have hshape : (g.context { o with numbered := false } d false).shape =
        (g.context { o with numbered := true } d false).shape := rfl
    simp only [Except.bind, formatDraft_eq]
    rw [Draft.settle_congr hagree, hshape]
    cases hs : Draft.settle (g.context { o with numbered := true } d false)
        (draft (g.context { o with numbered := true } d false).shape) with
    | error e => exact .inl ⟨e, rfl, rfl⟩
    | ok r =>
      have hl := Draft.settle_literal rfl hs
      refine .inr ⟨r.outline.first, r.outline.rest, r.values, ?_, rfl, rfl⟩
      rw [Settled.length_rest, hl.length_values]

/-- **Placeholder discipline.**  Unless values are written into the text, a statement
or an expression of the standard grammar has the same parameters and the same
segments, whether holes are written by position or by number. -/
theorem placeholders_aligned (o : Options) :
    (∀ s, Aligned
      (standard.format s { o with inline := false, numbered := false })
      (standard.format s { o with inline := false, numbered := true })) ∧
    ∀ v, Aligned
      (standard.formatExpr v { o with inline := false, numbered := false })
      (standard.formatExpr v { o with inline := false, numbered := true }) := by
  have hsolid : ∀ b d l, Draft.Solid
      (standard.context { o with inline := false, numbered := b } d false) l :=
    fun _ _ l => Draft.solid_of_not_inline rfl l
  constructor
  · intro s
    rw [standard_plain.format_eq s _ fun d _ => hsolid _ d _,
      standard_plain.format_eq s _ fun d _ => hsolid _ d _]
    exact aligned_bind standard { o with inline := false } _ _
  · intro v
    rw [standard_plain.formatExpr_eq v _ fun d _ => hsolid _ d _,
      standard_plain.formatExpr_eq v _ fun d _ => hsolid _ d _]
    cases v <;> exact aligned_bind standard { o with inline := false } _ _

end Grammar
end Clausal
