import Clausal.Literal

/-! # Literals in SQL text

Only the empty name is written as empty text (`Value.literal_ne_empty`): numbers
have a digit, strings have their quotes, lists have their parentheses, and no
character disappears when a name is put in capitals.
-/
namespace Clausal

namespace Text

/-- Every character has a capital form. -/
theorem upperChar_ne_nil (c : Char) : upperChar c ≠ [] := by
  unfold upperChar
  dsimp only
  split
  · exact List.cons_ne_nil _ _
  · split
    · exact List.cons_ne_nil _ _
    · split
      · rename_i ns hns
        have hall : ∀ e ∈ wideCapitals, e.2 ≠ [] := by decide
        have hmem : (c.toNat, ns) ∈ wideCapitals := by
          obtain ⟨l, r, hsplit, -⟩ := List.lookup_eq_some_iff.mp hns
          rw [hsplit]
          simp
        simpa using hall _ hmem
      · exact List.cons_ne_nil _ _

theorem upper_eq_empty {s : String} (h : upper s = "") : s = "" := by
  have hnil : s.toList.flatMap upperChar = [] := by
    simpa [upper] using h
  rw [List.flatMap_eq_nil_iff] at hnil
  cases hs : s.toList with
  | nil => exact String.toList_eq_nil_iff.mp hs
  | cons c cs => exact absurd (hnil c (by simp [hs])) (upperChar_ne_nil c)

theorem replaceChar_eq_empty {a b : Char} {s : String} (h : replaceChar a b s = "") : s = "" := by
  have hlist := congrArg String.toList h
  simpa [replaceChar] using hlist

end Text

namespace Decimal

theorem toString_int_ne_empty (i : Int) : toString i ≠ "" := by
  intro h
  cases i with
  | ofNat m => exact Nat.repr_ne_empty (n := m) h
  | negSucc m =>
    have hminus : "-" ++ Nat.repr (m + 1) = "" := h
    simp at hminus

theorem finiteText_ne_empty (style : Style) (x : Binary64) : style.finiteText x ≠ "" := by
  unfold Style.finiteText
  dsimp only
  split
  · simp
  · rw [ne_eq, String.append_eq_empty_iff, not_and]
    intro _
    split
    · unfold plainText
      split <;> simp
    · unfold scientificText
      dsimp only
      split <;> simp

end Decimal

/-- **Only the empty name is written as nothing.** -/
theorem Value.literal_ne_empty {v : Value} (hv : v ≠ .ident "") : v.literal ≠ .ok "" := by
  intro h
  cases v with
  | null => simp [literal] at h
  | bool b => cases b <;> simp [literal] at h
  | int n =>
    rw [literal] at h
    exact Decimal.toString_int_ne_empty _ (Except.ok.inj h)
  | float x =>
    rw [literal] at h
    split at h
    · rename_i hx
      have ht : x.readable = "" := Except.ok.inj h
      rw [Decimal.Binary64.readable, if_pos hx] at ht
      exact Decimal.finiteText_ne_empty _ x ht
    · cases h
  | str s => simp [literal, stringLiteral] at h
  | ident name =>
    rw [literal] at h
    have hname := Text.upper_eq_empty (Text.replaceChar_eq_empty (Except.ok.inj h))
    exact hv (congrArg Value.ident hname)
  | seq items =>
    rw [literal] at h
    split at h
    · simp at h
    · cases h
  | map entries => simp [literal] at h

end Clausal
