import Clausal.Proofs.Draft.Format

/-! # Spellings

A spelling is SQL text in which each parameter stands for itself where its mark will
be.  As long as no other character is a question mark, text and parameters together
determine the spelling (`Spelling.eq_of_text`): the marks are found in the text and the
parameters fill them from left to right.

A draft without names and faults has a spelling, and is settled to the text and the
parameters of its spelling (`Draft.Spells.settle`).
-/
namespace Clausal

/-- A symbol of SQL: a character, or a parameter in its place. -/
inductive Symbol where
  | char (c : Char)
  | param (v : Value)

/-- SQL as symbols. -/
abbrev Spelling := List Symbol

/-- The character that stands for a symbol when parameters are marked by position. -/
def Symbol.shown : Symbol → Char
  | .char c => c
  | .param _ => '?'

namespace Spelling

/-- The spelling of text without parameters. -/
def ofText (s : String) : Spelling := s.toList.map .char

/-- The text, with a question mark for each parameter. -/
def text (s : Spelling) : String := String.ofList (s.map Symbol.shown)

/-- The parameters from left to right. -/
def params (s : Spelling) : List Value :=
  s.filterMap fun
    | .char _ => none
    | .param v => some v

/-- No character looks like the mark of a parameter. -/
def Clear (s : Spelling) : Prop := .char '?' ∉ s

theorem ofText_append (a b : String) : ofText (a ++ b) = ofText a ++ ofText b := by
  simp [ofText]

theorem ofText_eq_nil {s : String} : ofText s = [] ↔ s.isEmpty = true := by
  simp [ofText]

theorem text_append (a b : Spelling) : text (a ++ b) = text a ++ text b := by
  simp [text]

theorem text_ofText (s : String) : text (ofText s) = s := by
  have hshown : Symbol.shown ∘ Symbol.char = id := rfl
  simp [text, ofText, hshown]

theorem text_param_cons (v : Value) (s : Spelling) : text (.param v :: s) = "?" ++ text s :=
  text_append [.param v] s

theorem params_append (a b : Spelling) : params (a ++ b) = params a ++ params b := by
  simp [params]

theorem params_ofText (s : String) : params (ofText s) = [] := by
  simp [params, ofText]

theorem clear_append {a b : Spelling} : Clear (a ++ b) ↔ Clear a ∧ Clear b := by
  simp [Clear]

theorem clear_ofText {s : String} : Clear (ofText s) ↔ '?' ∉ s.toList := by
  simp [Clear, ofText]

/-- The symbols are determined by what is shown of them and by the parameters. -/
theorem eq_of_shown {a b : Spelling} (ha : a.Clear) (hb : b.Clear)
    (hshown : a.map Symbol.shown = b.map Symbol.shown) (hparams : a.params = b.params) :
    a = b := by
  induction a generalizing b with
  | nil =>
    cases b with
    | nil => rfl
    | cons y b => cases hshown
  | cons x a ih =>
    cases b with
    | nil => cases hshown
    | cons y b =>
      have hrest := ih (b := b) (fun h => ha (List.mem_cons_of_mem x h))
        (fun h => hb (List.mem_cons_of_mem y h)) (List.cons.inj hshown).2
      have hhead : x.shown = y.shown := (List.cons.inj hshown).1
      cases x with
      | char c =>
        cases y with
        | char d =>
          have hcd : c = d := hhead
          rw [hcd, hrest hparams]
        | param w =>
          -- A character that is shown as a mark is excluded on the left.
          have hc : c = '?' := hhead
          exact absurd List.mem_cons_self (hc ▸ ha)
      | param v =>
        cases y with
        | char d =>
          have hd : '?' = d := hhead
          exact absurd List.mem_cons_self (hd ▸ hb)
        | param w =>
          obtain ⟨hv, hvs⟩ := List.cons.inj (show v :: params a = w :: params b from hparams)
          rw [hv, hrest hvs]

/-- **Text and parameters determine the spelling.** -/
theorem eq_of_text {a b : Spelling} (ha : a.Clear) (hb : b.Clear) (htext : a.text = b.text)
    (hparams : a.params = b.params) : a = b :=
  eq_of_shown ha hb (String.ofList_inj.mp htext) hparams

end Spelling

namespace Draft

/-- The draft is text and values only, with this spelling. -/
inductive Spells : Draft → Spelling → Prop where
  | nil : Spells [] []
  | text (t : String) {d : Draft} {s : Spelling} :
      Spells d s → Spells (.text t :: d) (Spelling.ofText t ++ s)
  | value (v : Value) {d : Draft} {s : Spelling} :
      Spells d s → Spells (.value v :: d) (.param v :: s)

namespace Spells
variable {a b d : Draft} {s t : Spelling}

theorem single (x : String) : Spells [.text x] (Spelling.ofText x) := by
  simpa using Spells.text x .nil

theorem append (ha : Spells a s) (hb : Spells b t) : Spells (a ++ b) (s ++ t) := by
  induction ha with
  | nil => exact hb
  | text x _ ih =>
    rw [List.cons_append, List.append_assoc]
    exact .text x ih
  | value v _ ih => exact .value v ih

theorem isEmpty_iff (h : Spells d s) : d.isEmpty = true ↔ s = [] := by
  induction h with
  | nil => simp [Draft.isEmpty]
  | text x _ ih =>
    rw [List.append_eq_nil_iff, Spelling.ofText_eq_nil, ← ih]
    simp [Draft.isEmpty, Token.isEmpty]
  | value v _ _ => simp [Draft.isEmpty, Token.isEmpty]

theorem isEmpty_eq_false (h : Spells d s) (hs : s ≠ []) : d.isEmpty = false := by
  rw [← Bool.not_eq_true, h.isEmpty_iff]
  exact hs

/-- A part with text is put in parentheses exactly when it is nested. -/
theorem wrap (h : Spells d s) (hs : s ≠ []) (nested : Bool) :
    Spells (d.wrap nested) (if nested then .char '(' :: s ++ [.char ')'] else s) := by
  cases nested with
  | false => simpa [Draft.wrap] using h
  | true =>
    have hparens := ((single "(").append h).append (single ")")
    simpa [Draft.wrap, h.isEmpty_eq_false hs, Spelling.ofText] using hparens

/-- Two parts with text have the separator between them. -/
theorem beside (ha : Spells a s) (hb : Spells b t) (hs : s ≠ []) (ht : t ≠ []) (sep : String) :
    Spells (Draft.beside sep a b) (s ++ Spelling.ofText sep ++ t) := by
  have h := ha.append (.text sep hb)
  rw [← List.append_assoc] at h
  simpa [Draft.beside, ha.isEmpty_eq_false hs, hb.isEmpty_eq_false ht] using h

/-- **A spelled draft is settled to the text and the parameters of its spelling.** -/
theorem settle {c : Context} (hc : c.inline = false) (h : Spells d s) :
    ∃ r, Draft.settle c d = .ok r ∧ r.values = s.params ∧
      weave r.outline.first r.outline.rest (Placeholder.positional.marks r.values.length) =
        s.text := by
  induction h with
  | nil => exact ⟨[], rfl, rfl, rfl⟩
  | text x _ ih =>
    obtain ⟨r, hr, hvalues, htext⟩ := ih
    refine ⟨.text x :: r, ?_, ?_, ?_⟩
    · rw [settle_cons, hr]
      rfl
    · rw [Spelling.params_append, Spelling.params_ofText, List.nil_append, ← hvalues]
      rfl
    · rw [Spelling.text_append, Spelling.text_ofText, ← htext, ← Outline.weave_some_cons]
      rfl
  | value v _ ih =>
    obtain ⟨r, hr, hvalues, htext⟩ := ih
    refine ⟨.slot (.literal v) :: r, ?_, congrArg (v :: ·) hvalues, ?_⟩
    · rw [settle_cons, hr, Token.settle, Token.send_of_not_inline hc]
      rfl
    · rw [Spelling.text_param_cons, ← htext, ← Outline.weave_none_cons]
      rfl

end Spells
end Draft

end Clausal
