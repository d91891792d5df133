import Clausal.Proofs.Condition.Wording
import Clausal.Proofs.Readability.Spelling

/-! # Words and phrases

Settled text has a spelling, in which every parameter stands for itself, and with marks by
position it is handed out as the text and the parameters of its spelling
(`Settled.formatted_spelling`).

A spelling with a blank or an opening bracket is a *phrase*.  Some layouts are written as a
phrase whatever stands in them (`Layout.Phrased`).  For the others `Layout.Reads` tells, from what
the expressions inside are written as, what the layout is written as.  It has to be right only
about expressions that are not phrases: a layout around a phrase is a phrase again
(`Layout.Bare.exact_settle`).
-/
namespace Clausal

/-! ### Phrases -/

namespace Spelling

/-- Between parentheses. -/
def parens (s : Spelling) : Spelling := ofText "(" ++ s ++ ofText ")"

/-- Two parts with a separator; a part without symbols takes the separator with it. -/
def beside (sep : String) (a b : Spelling) : Spelling :=
  if a.isEmpty then b else if b.isEmpty then a else a ++ ofText sep ++ b

/-- Text before a body, unless the body is empty. -/
def lead (text : String) (s : Spelling) : Spelling := if s.isEmpty then [] else ofText text ++ s

/-- In parentheses when nested, unless there is nothing. -/
def wrap (nested : Bool) (s : Spelling) : Spelling :=
  if nested && !s.isEmpty then parens s else s

/-- The text and the parameters. -/
def formatted (s : Spelling) : Formatted := ⟨s.text, s.params⟩

/-- There is a blank or an opening bracket. -/
def IsPhrase (s : Spelling) : Prop := ∃ c ∈ [' ', '(', '['], .char c ∈ s

theorem IsPhrase.mono {a b : Spelling} (h : a.IsPhrase) (hab : a <:+: b) : b.IsPhrase := by
  obtain ⟨c, hc, hmem⟩ := h
  exact ⟨c, hc, hab.subset hmem⟩

@[simp] theorem isPhrase_ofText {s : String} : (ofText s).IsPhrase ↔ Text.IsPhrase s := by
  simp [IsPhrase, ofText]

theorem isPhrase_append {a b : Spelling} : (a ++ b).IsPhrase ↔ a.IsPhrase ∨ b.IsPhrase := by
  constructor
  · rintro ⟨c, hc, hmem⟩
    rcases List.mem_append.mp hmem with hmem | hmem
    · exact .inl ⟨c, hc, hmem⟩
    · exact .inr ⟨c, hc, hmem⟩
  · rintro (h | h)
    · exact h.mono (List.prefix_append a b).isInfix
    · exact h.mono (List.suffix_append a b).isInfix

theorem isPhrase_parens (s : Spelling) : (parens s).IsPhrase :=
  ⟨'(', by simp, by simp [parens, ofText]⟩

theorem isEmpty_beside (sep : String) (a b : Spelling) :
    (beside sep a b).isEmpty = (a.isEmpty && b.isEmpty) := by
  cases a with
  | nil => rfl
  | cons x a => by_cases hb : b.isEmpty = true <;> simp [beside, hb]

theorem infix_beside_left (sep : String) (a b : Spelling) : a <:+: beside sep a b := by
  unfold beside
  split
  · rename_i ha
    rw [List.isEmpty_iff.mp ha]
    exact List.nil_infix
  · split
    · exact List.infix_rfl
    · rw [List.append_assoc]
      exact (List.prefix_append a _).isInfix

theorem infix_beside_right (sep : String) (a b : Spelling) : b <:+: beside sep a b := by
  unfold beside
  split
  · exact List.infix_rfl
  · split
    · rename_i hb
      rw [List.isEmpty_iff.mp hb]
      exact List.nil_infix
    · exact (List.suffix_append _ b).isInfix

theorem infix_lead (text : String) (s : Spelling) : s <:+: lead text s := by
  unfold lead
  split
  · rename_i hs
    obtain rfl := List.isEmpty_iff.mp hs
    exact List.nil_infix
  · exact (List.suffix_append _ s).isInfix

theorem infix_wrap (nested : Bool) (s : Spelling) : s <:+: wrap nested s := by
  unfold wrap
  split
  · exact List.infix_append _ s _
  · exact List.infix_rfl

end Spelling

/-! ### The spelling of settled text -/

/-- The symbol of a bound parameter.  A name that is still to be looked up stands as a reference. -/
def Slot.symbol : Slot → Symbol
  | .literal v => .param v
  | .named name => .param (.param name)

namespace Settled

/-- The symbols of settled text. -/
def spelling (r : Settled) : Spelling :=
  r.flatMap fun
    | .text s => Spelling.ofText s
    | .slot slot => [slot.symbol]

@[simp] theorem spelling_nil : spelling [] = [] := rfl

@[simp] theorem spelling_text_cons (s : String) (r : Settled) :
    spelling (.text s :: r) = Spelling.ofText s ++ r.spelling := rfl

@[simp] theorem spelling_slot_cons (slot : Slot) (r : Settled) :
    spelling (.slot slot :: r) = slot.symbol :: r.spelling := rfl

@[simp] theorem spelling_append (a b : Settled) :
    spelling (a ++ b) = a.spelling ++ b.spelling := by
  simp [spelling]

theorem isEmpty_spelling (r : Settled) : r.spelling.isEmpty = r.isEmpty := by
  induction r with
  | nil => rfl
  | cons spot r ih =>
    cases spot with
    | text s =>
      have hcons : Settled.isEmpty (.text s :: r) = (s.isEmpty && Settled.isEmpty r) := rfl
      rw [spelling_text_cons, hcons, ← ih, Bool.eq_iff_iff, List.isEmpty_iff, Bool.and_eq_true,
        List.isEmpty_iff, List.append_eq_nil_iff, Spelling.ofText_eq_nil]
    | slot slot => rfl

theorem spelling_parens (r : Settled) : (parens r).spelling = r.spelling.parens := by
  simp [parens, Spelling.parens]

theorem spelling_beside (sep : String) (a b : Settled) :
    (beside sep a b).spelling = Spelling.beside sep a.spelling b.spelling := by
  rw [beside, Spelling.beside, isEmpty_spelling, isEmpty_spelling]
  by_cases ha : a.isEmpty = true
  · rw [if_pos ha, if_pos ha]
  · rw [if_neg ha, if_neg ha]
    by_cases hb : b.isEmpty = true
    · rw [if_pos hb, if_pos hb]
    · rw [if_neg hb, if_neg hb, spelling_append, spelling_text_cons, List.append_assoc]

theorem spelling_lead (text : String) (r : Settled) :
    (lead text r).spelling = Spelling.lead text r.spelling := by
  rw [lead, Spelling.lead, isEmpty_spelling]
  by_cases hr : r.isEmpty = true
  · rw [if_pos hr, if_pos hr, spelling_nil]
  · rw [if_neg hr, if_neg hr, spelling_text_cons]

theorem spelling_wrap (nested : Bool) (r : Settled) :
    (wrap nested r).spelling = Spelling.wrap nested r.spelling := by
  rw [wrap, Spelling.wrap, isEmpty_spelling]
  by_cases hr : (nested && !r.isEmpty) = true
  · rw [if_pos hr, if_pos hr, spelling_parens]
  · rw [if_neg hr, if_neg hr]

/-- **With marks by position, text and parameters are those of the spelling.** -/
theorem formatted_spelling {o : Options} (ho : o.placeholder = .positional) {r : Settled}
    (hr : r.Literal) : r.formatted o = r.spelling.formatted := by
  unfold Spelling.formatted
  induction r with
  | nil => rw [formatted, ho]; rfl
  | cons spot r ih =>
    cases spot with
    | text s =>
      have hrest := Formatted.mk.inj (ih hr)
      rw [ho] at hrest
      rw [formatted, ho, spelling_text_cons, Spelling.text_append, Spelling.text_ofText,
        Spelling.params_append, Spelling.params_ofText, ← hrest.1, ← hrest.2]
      exact congrArg (Formatted.mk · _) (Outline.weave_some_cons s (outline r) _)
    | slot slot =>
      obtain ⟨⟨v, rfl⟩, hliteral⟩ := literal_slot_cons hr
      have hrest := Formatted.mk.inj (ih hliteral)
      rw [ho] at hrest
      have hsymbol : (Slot.literal v).symbol = .param v := rfl
      have hvalues : values (.slot (.literal v) :: r) = v :: values r := rfl
      rw [formatted, ho, spelling_slot_cons, hsymbol, Spelling.text_param_cons, hvalues, ← hrest.1]
      refine congr (congrArg Formatted.mk ?_) (congrArg (v :: ·) hrest.2)
      exact Outline.weave_none_cons "?" (outline r) _

end Settled

/-! ### Parts of drafts -/

theorem Token.get?_of_lookup {c : Context} {name : String} {v : Value}
    (h : lookup c name = .ok v) : Table.get? name c.params = some v := by
  unfold lookup at h
  split at h
  · rename_i hget
    cases h
    exact hget
  · cases h

namespace Draft
variable {c : Context} {a b d : Draft} {r : Settled}

theorem of_settle_append (h : settle c (a ++ b) = .ok r) :
    ∃ x y, settle c a = .ok x ∧ settle c b = .ok y ∧ r = x ++ y := by
  rw [settle_append] at h
  obtain ⟨x, hx, h⟩ := bind_eq_ok.mp h
  obtain ⟨y, hy, h⟩ := bind_eq_ok.mp h
  cases h
  exact ⟨x, y, hx, hy, rfl⟩

theorem of_settle_beside (hc : c.inline = false) {sep : String}
    (h : settle c (beside sep a b) = .ok r) :
    ∃ x y, settle c a = .ok x ∧ settle c b = .ok y ∧ r = Settled.beside sep x y := by
  rw [settle_beside sep (solid_of_not_inline hc a) (solid_of_not_inline hc b)] at h
  obtain ⟨x, hx, h⟩ := bind_eq_ok.mp h
  obtain ⟨y, hy, h⟩ := bind_eq_ok.mp h
  cases h
  exact ⟨x, y, hx, hy, rfl⟩

theorem of_settle_lead (hc : c.inline = false) {text : String}
    (h : settle c (lead text d) = .ok r) : ∃ x, settle c d = .ok x ∧ r = Settled.lead text x := by
  rw [settle_lead text (solid_of_not_inline hc d)] at h
  obtain ⟨x, hx, hr⟩ := map_eq_ok.mp h
  exact ⟨x, hx, hr.symm⟩

theorem of_settle_wrap (hc : c.inline = false) {nested : Bool}
    (h : settle c (wrap nested d) = .ok r) :
    ∃ x, settle c d = .ok x ∧ r = Settled.wrap nested x := by
  rw [settle_wrap nested (solid_of_not_inline hc d)] at h
  obtain ⟨x, hx, hr⟩ := map_eq_ok.mp h
  exact ⟨x, hx, hr.symm⟩

theorem of_settle_text {text : String} (h : settle c [.text text] = .ok r) :
    r.spelling = Spelling.ofText text := by
  rw [settle_singleton] at h
  cases h
  exact List.append_nil _

end Draft

/-! ### What layouts are written as -/

/-- What `reads` allows is `s` and nothing else; it need not allow `s` if that is a phrase. -/
structure Exact (reads : Spelling → Prop) (s : Spelling) : Prop where
  found : s.IsPhrase ∨ reads s
  unique : ∀ w, reads w → w = s

theorem exact_eq (s : Spelling) : Exact (· = s) s := ⟨.inr rfl, fun _ h => h⟩

theorem Exact.reads_iff {reads : Spelling → Prop} {s w : Spelling} (h : Exact reads s)
    (hw : ¬ w.IsPhrase) : reads w ↔ s = w := by
  constructor
  · intro hreads
    exact (h.unique w hreads).symm
  · rintro rfl
    exact h.found.resolve_left hw

/-- Two parts put together: a phrase in one of them is a phrase in the whole. -/
theorem Exact.both {reads reads' : Spelling → Prop} {a b : Spelling}
    {place : Spelling → Spelling → Spelling} (ha : Exact reads a) (hb : Exact reads' b)
    (hleft : a <:+: place a b) (hright : b <:+: place a b) :
    Exact (fun w => ∃ x y, reads x ∧ reads' y ∧ w = place x y) (place a b) := by
  constructor
  · rcases ha.found with hphrase | hreads
    · exact .inl (hphrase.mono hleft)
    · rcases hb.found with hphrase | hreads'
      · exact .inl (hphrase.mono hright)
      · exact .inr ⟨a, b, hreads, hreads', rfl⟩
  · rintro w ⟨x, y, hx, hy, rfl⟩
    rw [ha.unique x hx, hb.unique y hy]

theorem Exact.after {reads : Spelling → Prop} {a : Spelling} {change : Spelling → Spelling}
    (ha : Exact reads a) (h : a <:+: change a) :
    Exact (fun w => ∃ x, reads x ∧ w = change x) (change a) := by
  constructor
  · rcases ha.found with hphrase | hreads
    · exact .inl (hphrase.mono h)
    · exact .inr ⟨a, hreads, rfl⟩
  · rintro w ⟨x, hx, rfl⟩
    rw [ha.unique x hx]

/-- Where no alias may stand, `reads` tells what expressions are written as, nested or not. -/
def Drafters.Exact (drafts : Drafters) (c : Context) (reads : Bool → Value → Spelling → Prop) :
    Prop :=
  ∀ {m : Marker} {nested : Bool} {v : Value} {r : Settled}, m.aliasPosition = false →
    Draft.settle c (drafts.expr m nested v) = .ok r → Clausal.Exact (reads nested v) r.spelling

namespace Layout

/-- What the layout is written as, if `reads` tells what the expressions inside are written as. -/
@[simp] def Reads (c : Context) (reads : Bool → Value → Spelling → Prop) (nested : Bool) :
    Layout → Spelling → Prop
  | .text s, w => w = Spelling.ofText s
  | .entity name, w => w = Spelling.ofText (c.style.entity name)
  | .aliasName name, w => w = Spelling.ofText (c.style.aliasText name)
  | .aliasMark, w => w = Spelling.ofText (if c.style.dialect.aliasKeyword then " AS " else " ")
  | .missing column, w =>
    w = Spelling.ofText (if c.defaultColumns.contains column then "DEFAULT" else "NULL")
  | .value v, w => w = [.param v]
  | .named name, w => ∃ v, Table.get? name c.params = some v ∧ w = [.param v]
  | .literal v, w => ∃ s, v.literal = .ok s ∧ w = Spelling.ofText s
  | .expr .top v, w => reads false v w
  | .expr .nested v, w => reads true v w
  | .expr .same v, w => reads nested v w
  | .append a b, w => ∃ x y, a.Reads c reads nested x ∧ b.Reads c reads nested y ∧ w = x ++ y
  | .beside sep a b, w =>
    ∃ x y, a.Reads c reads nested x ∧ b.Reads c reads nested y ∧ w = Spelling.beside sep x y
  | .lead s body, w => ∃ x, body.Reads c reads nested x ∧ w = Spelling.lead s x
  | .wrap body, w => ∃ x, body.Reads c reads nested x ∧ w = Spelling.wrap nested x
  | .within _ body, w => body.Reads c reads nested w
  | _, _ => False

variable {c : Context} {drafts : Drafters} {reads : Bool → Value → Spelling → Prop} {m : Marker}
  {l : Layout} {r : Settled}

/-- **A phrased layout is written as a phrase**, whatever stands in it. -/
theorem Phrased.isPhrase_settle (hc : c.inline = false) (hl : l.Phrased)
    (h : Draft.settle c (l.draft c.shape drafts m) = .ok r) : r.spelling.IsPhrase := by
  induction l generalizing m r with
  | text s =>
    rw [Draft.of_settle_text h, Spelling.isPhrase_ofText]
    exact hl
  | fail complaint fragment => cases h
  | namedList name =>
    rw [draft, Draft.settle_singleton, Token.settle] at h
    split at h
    · cases h
    · obtain ⟨v, -, h⟩ := bind_eq_ok.mp h
      obtain ⟨q, -, rfl⟩ := map_eq_ok.mp h
      rw [Settled.spelling_parens]
      exact Spelling.isPhrase_parens _
  | append a b iha ihb =>
    obtain ⟨x, y, hx, hy, rfl⟩ := Draft.of_settle_append h
    rw [Settled.spelling_append, Spelling.isPhrase_append]
    exact hl.imp (iha · hx) (ihb · hy)
  | beside sep a b iha ihb =>
    obtain ⟨x, y, hx, hy, rfl⟩ := Draft.of_settle_beside hc h
    rw [Settled.spelling_beside]
    rcases hl with hl | hl
    · exact (iha hl hx).mono (Spelling.infix_beside_left _ _ _)
    · exact (ihb hl hy).mono (Spelling.infix_beside_right _ _ _)
  | lead text body ih =>
    obtain ⟨x, hx, rfl⟩ := Draft.of_settle_lead hc h
    rw [Settled.spelling_lead]
    exact (ih hl hx).mono (Spelling.infix_lead _ _)
  | wrap body ih =>
    obtain ⟨x, hx, rfl⟩ := Draft.of_settle_wrap hc h
    rw [Settled.spelling_wrap]
    exact (ih hl hx).mono (Spelling.infix_wrap _ _)
  | within tag body ih => exact ih hl h
  | _ => exact hl.elim

/-- **A bare layout is written as `Reads` tells**, up to phrases. -/
theorem Bare.exact_settle (hc : c.inline = false) (hcaching : c.caching = false)
    (hsub : drafts.Exact c reads) (hl : l.Bare) (hm : m.aliasPosition = false)
    (h : Draft.settle c (l.draft c.shape drafts m) = .ok r) :
    Exact (l.Reads c reads m.nested) r.spelling := by
  -- On the layout, at every marker: `within` changes the marker for what is inside.
  induction l generalizing m r with
  | text s =>
    rw [Draft.of_settle_text h]
    exact exact_eq _
  | fail complaint fragment => cases h
  | entity name =>
    rw [Draft.of_settle_text h]
    exact exact_eq _
  | aliasName name =>
    rw [Draft.of_settle_text h]
    exact exact_eq _
  | aliasMark =>
    rw [Draft.of_settle_text h]
    exact exact_eq _
  | missing column =>
    rw [Draft.of_settle_text h]
    exact exact_eq _
  | value v =>
    rw [draft, Draft.settle_singleton, Token.settle, Token.send_of_not_inline hc] at h
    cases h
    exact exact_eq _
  | named name =>
    rw [draft, Draft.settle_singleton, Token.settle, hcaching] at h
    obtain ⟨v, hv, h⟩ := bind_eq_ok.mp h
    rw [Token.send_of_not_inline hc] at h
    cases h
    have hget := Token.get?_of_lookup hv
    constructor
    · exact .inr ⟨v, hget, rfl⟩
    · rintro w ⟨v', hget', rfl⟩
      rw [hget] at hget'
      cases hget'
      rfl
  | literal v =>
    rw [draft] at h
    cases hv : v.literal with
    | error e =>
      rw [hv] at h
      cases h
    | ok text =>
      rw [hv] at h
      rw [Draft.of_settle_text h]
      constructor
      · exact .inr ⟨text, hv, rfl⟩
      · rintro w ⟨text', hv', rfl⟩
        rw [hv] at hv'
        cases hv'
        rfl
  | expr nesting v =>
    cases nesting with
    | top => exact hsub hm h
    | nested => exact hsub hm h
    | same => exact hsub hm h
  | append a b iha ihb =>
    obtain ⟨x, y, hx, hy, rfl⟩ := Draft.of_settle_append h
    rw [Settled.spelling_append]
    exact (iha hl.1 hm hx).both (ihb hl.2 hm hy) (List.prefix_append _ _).isInfix
      (List.suffix_append _ _).isInfix
  | beside sep a b iha ihb =>
    obtain ⟨x, y, hx, hy, rfl⟩ := Draft.of_settle_beside hc h
    rw [Settled.spelling_beside]
    exact (iha hl.1 hm hx).both (ihb hl.2 hm hy) (Spelling.infix_beside_left _ _ _)
      (Spelling.infix_beside_right _ _ _)
  | lead text body ih =>
    obtain ⟨x, hx, rfl⟩ := Draft.of_settle_lead hc h
    rw [Settled.spelling_lead]
    exact (ih hl hm hx).after (Spelling.infix_lead _ _)
  | wrap body ih =>
    obtain ⟨x, hx, rfl⟩ := Draft.of_settle_wrap hc h
    rw [Settled.spelling_wrap]
    exact (ih hl hm hx).after (Spelling.infix_wrap _ _)
  | within tag body ih =>
    exact ih (m := { m with clause := some tag, aliasPosition := false }) hl rfl h
  | _ => exact absurd hl (by simp)

end Layout
end Clausal
