import Clausal.Proofs.Decimal.Spelling
import Clausal.Proofs.Literal

/-! # Literals can be told apart

A literal that stands in a list, or at the end of a text, is followed by a comma, by a closing
parenthesis or by nothing.  Whatever follows it in this way, the text says where the literal ends
and which value it stands for (`Value.literal_unambiguous`).  No content of a string ends its
literal early, and no two neighbours run together.

The first character tells a string and a list from a word.  A word has no comma and no
parenthesis, so it goes as far as it can.  A string goes on over quotes that are doubled.  A list
is read item by item, and each item ends where the text that follows it begins.
-/
namespace Clausal

/-- What can follow a literal: nothing, or a text that starts with a comma or a closing
parenthesis. -/
def Closing (r : List Char) : Prop := r = [] ∨ ∃ cs, r = ',' :: cs ∨ r = ')' :: cs

/-! ### Quotes written twice -/

namespace Text
variable {q : Char} {r₁ r₂ : List Char}

theorem cons_ne_double_append (h₁ : r₁.head? ≠ some q) (d : Char) (ds : List Char) :
    q :: r₁ ≠ double q (d :: ds) ++ q :: r₂ := by
  intro h
  by_cases hd : d = q
  · rw [double, if_pos hd, hd] at h
    exact h₁ (congrArg List.head? (List.tail_eq_of_cons_eq h))
  · rw [double, if_neg hd] at h
    exact hd (List.head_eq_of_cons_eq h).symm

/-- A quote that ends the text can be told from quotes that are written twice. -/
theorem double_append_inj {cs ds : List Char} (h₁ : r₁.head? ≠ some q) (h₂ : r₂.head? ≠ some q)
    (h : double q cs ++ q :: r₁ = double q ds ++ q :: r₂) : cs = ds ∧ r₁ = r₂ := by
  induction cs generalizing ds with
  | nil =>
    cases ds with
    | nil => exact ⟨rfl, List.tail_eq_of_cons_eq h⟩
    | cons d ds => exact absurd h (cons_ne_double_append h₁ d ds)
  | cons c cs ih =>
    cases ds with
    | nil => exact absurd h.symm (cons_ne_double_append h₂ c cs)
    | cons d ds =>
      have hhead (c : Char) (cs r : List Char) : (double q (c :: cs) ++ r).head? = some c := by
        by_cases hc : c = q <;> simp [double, hc]
      have hcd : c = d := by
        have heads := congrArg List.head? h
        rwa [hhead, hhead, Option.some.injEq] at heads
      subst hcd
      have htail : double q cs ++ q :: r₁ = double q ds ++ q :: r₂ := by
        by_cases hc : c = q <;> simpa [double, hc] using h
      obtain ⟨rfl, hr⟩ := ih htail
      exact ⟨rfl, hr⟩

end Text

theorem Closing.head?_ne_quote {r : List Char} (h : Closing r) : r.head? ≠ some '\x27' := by
  rcases h with rfl | ⟨cs, rfl | rfl⟩
  · exact nofun
  · simp
  · simp

/-! ### Words -/

/-- The values whose literals are words, and the words. -/
inductive BareWord : Value → String → Prop
  | null : BareWord .null "NULL"
  | bool (b : Bool) : BareWord (.bool b) (if b then "TRUE" else "FALSE")
  | int (n : Int64) : BareWord (.int n) (toString n.toInt)
  | float (x : Decimal.Binary64) : BareWord (.float x) (Decimal.Style.readable.finiteText x)

theorem digit_or_minus_of_mem_int {i : Int} {c : Char} (hc : c ∈ (toString i).toList) :
    c.isDigit = true ∨ c = '-' := by
  rw [Decimal.toList_toString, Decimal.exponentChars] at hc
  split at hc
  · rcases List.mem_cons.mp hc with hminus | hdigit
    · exact .inr hminus
    · exact .inl (Decimal.allDigits_toDigits _ c hdigit)
  · exact .inl (Decimal.allDigits_toDigits _ c hc)

/-- What is seen of a word at once: whether it can be a number at all, and whether it has a point or
an exponent. -/
def appearance (s : String) : Bool × Bool :=
  (s.toList.all fun c => decide (Decimal.NumberChar c), s.toList.any fun c => c == '.' || c == 'e')

/-- The characters of words. -/
def isBareChar (c : Char) : Bool := c.isAlphanum || c == '-' || c == '.'

theorem isBareChar_of_numberChar {c : Char} (h : Decimal.NumberChar c) : isBareChar c = true := by
  rcases h with hdigit | rfl | rfl | rfl
  · simp [isBareChar, Char.isAlphanum, hdigit]
  · rfl
  · rfl
  · rfl

namespace BareWord
variable {v w : Value} {s t : String}

theorem bare (h : BareWord v s) : s.toList.all isBareChar = true := by
  cases h with
  | null => decide +kernel
  | bool b => cases b <;> decide +kernel
  | int n =>
    refine List.all_eq_true.mpr fun c hc => ?_
    rcases digit_or_minus_of_mem_int hc with hdigit | hminus
    · exact isBareChar_of_numberChar (.inl hdigit)
    · exact isBareChar_of_numberChar (.inr (.inl hminus))
  | float x =>
    refine List.all_eq_true.mpr fun c hc => ?_
    exact isBareChar_of_numberChar (x.numberChars_finiteText c hc)

theorem appearance_int (n : Int64) : appearance (toString n.toInt) = (true, false) := by
  refine Prod.ext (List.all_eq_true.mpr fun c hc => ?_) (List.any_eq_false.mpr fun c hc hmark => ?_)
  · exact decide_eq_true ((digit_or_minus_of_mem_int hc).imp_right .inl)
  · rw [Bool.or_eq_true, beq_iff_eq, beq_iff_eq] at hmark
    rcases hmark with rfl | rfl <;> exact absurd (digit_or_minus_of_mem_int hc) (by decide)

theorem appearance_float (x : Decimal.Binary64) :
    appearance (Decimal.Style.readable.finiteText x) = (true, true) := by
  refine Prod.ext (List.all_eq_true.mpr fun c hc => ?_) (List.any_eq_true.mpr ?_)
  · exact decide_eq_true (x.numberChars_finiteText c hc)
  · obtain ⟨c, hc, hmark⟩ := x.exists_mark_finiteText
    exact ⟨c, hc, by simpa using hmark⟩

/-- The kind of a value as its word shows it. -/
theorem appearance_eq (h : BareWord v s) :
    appearance s = match v with
      | .int _ => (true, false)
      | .float _ => (true, true)
      | _ => (false, false) := by
  cases h with
  | null => decide +kernel
  | bool b => cases b <;> decide +kernel
  | int n => exact appearance_int n
  | float x => exact appearance_float x

/-- **A word stands for one value.** -/
theorem inj (hv : BareWord v s) (hw : BareWord w t) (h : s = t) : v = w := by
  have hkind := congrArg appearance h
  rw [hv.appearance_eq, hw.appearance_eq] at hkind
  cases hv with
  | null =>
    cases hw with
    | null => rfl
    | bool b => cases b <;> exact absurd h (by decide)
    | int | float => cases hkind
  | bool b =>
    cases hw with
    | null => cases b <;> exact absurd h (by decide)
    | bool b' =>
      cases b <;> cases b'
      · rfl
      · exact absurd h (by decide)
      · exact absurd h (by decide)
      · rfl
    | int | float => cases hkind
  | int n =>
    cases hw with
    | int m =>
      rw [Int64.toInt_inj.mp (Decimal.toString_int_injective h)]
    | null | bool | float => cases hkind
  | float x =>
    cases hw with
    | float y => rw [Decimal.Binary64.finiteText_injective h]
    | null | bool | int => cases hkind

end BareWord

theorem Closing.takeWhile_bare {r : List Char} (h : Closing r) : r.takeWhile isBareChar = [] := by
  rcases h with rfl | ⟨cs, rfl | rfl⟩
  · rfl
  · exact List.takeWhile_cons_of_neg (by decide)
  · exact List.takeWhile_cons_of_neg (by decide)

/-- A word goes on up to the text that follows it. -/
theorem bare_append_inj {cs ds r₁ r₂ : List Char} (hcs : cs.all isBareChar = true)
    (hds : ds.all isBareChar = true) (h₁ : Closing r₁) (h₂ : Closing r₂)
    (h : cs ++ r₁ = ds ++ r₂) : cs = ds ∧ r₁ = r₂ := by
  have hwords := congrArg (List.takeWhile isBareChar) h
  rw [List.takeWhile_append_of_pos (List.all_eq_true.mp hcs), h₁.takeWhile_bare,
    List.takeWhile_append_of_pos (List.all_eq_true.mp hds), h₂.takeWhile_bare, List.append_nil,
    List.append_nil] at hwords
  rw [hwords] at h
  exact ⟨hwords, List.append_cancel_left h⟩

/-! ### The forms of literals -/

namespace Value

/-- Values without names and statements, and with finite numbers only. -/
inductive Inlinable : Value → Prop
  | null : Inlinable .null
  | bool (b : Bool) : Inlinable (.bool b)
  | int (n : Int64) : Inlinable (.int n)
  | float {x : Decimal.Binary64} (hx : x.isFinite = true) : Inlinable (.float x)
  | str (s : String) : Inlinable (.str s)
  | seq {items : List Value} (hitems : ∀ v ∈ items, Inlinable v) : Inlinable (.seq items)

/-- The values of the list have these literals. -/
abbrev Texts (items : List Value) (texts : List String) : Prop :=
  List.Forall₂ (fun v s => v.literal = .ok s) items texts

theorem literals_of_texts {items : List Value} {texts : List String} (h : Texts items texts) :
    Value.literals items = .ok texts := by
  induction h with
  | nil => rw [Value.literals]
  | cons hv _ ih => rw [Value.literals, hv, ih]

theorem exists_texts {items : List Value} (h : ∀ v ∈ items, ∃ s, v.literal = .ok s) :
    ∃ texts, Texts items texts := by
  induction items with
  | nil => exact ⟨[], .nil⟩
  | cons v items ih =>
    obtain ⟨hv, hitems⟩ := List.forall_mem_cons.mp h
    obtain ⟨s, hs⟩ := hv
    obtain ⟨texts, htexts⟩ := ih hitems
    exact ⟨s :: texts, .cons hs htexts⟩

/-- The forms of literals: a word, a string in quotes or a list in parentheses. -/
inductive Form : Value → String → Prop
  | word {v : Value} {s : String} (h : BareWord v s) : Form v s
  | quoted (a : String) : Form (.str a) (stringLiteral a)
  | listed {items : List Value} {texts : List String} (hitems : ∀ v ∈ items, Inlinable v)
      (h : Texts items texts) : Form (.seq items) ("(" ++ String.intercalate ", " texts ++ ")")

theorem Inlinable.exists_form {v : Value} (hv : v.Inlinable) :
    ∃ s, v.literal = .ok s ∧ Form v s := by
  induction hv with
  | null => exact ⟨_, by rw [literal], .word .null⟩
  | bool b => exact ⟨_, by rw [literal], .word (.bool b)⟩
  | int n => exact ⟨_, by rw [literal], .word (.int n)⟩
  | @float x hx =>
    have htext : literal (.float x) = .ok (Decimal.Style.readable.finiteText x) := by
      rw [literal, if_pos hx, Decimal.Binary64.readable, if_pos hx]
    exact ⟨_, htext, .word (.float x)⟩
  | str s => exact ⟨_, by rw [literal], .quoted s⟩
  | seq hitems ih =>
    obtain ⟨texts, htexts⟩ := exists_texts fun v hv => (ih v hv).imp fun _ h => h.1
    exact ⟨_, by rw [literal, literals_of_texts htexts], .listed hitems htexts⟩

theorem Inlinable.form {v : Value} (hv : v.Inlinable) {s : String} (hs : v.literal = .ok s) :
    Form v s := by
  obtain ⟨t, ht, hform⟩ := hv.exists_form
  rw [ht, Except.ok.injEq] at hs
  exact hs ▸ hform

/-! ### Where a literal ends -/

/-- The character that a string or a list starts with. -/
def opening? : Value → Option Char
  | .str _ => some '\x27'
  | .seq _ => some '('
  | _ => none

theorem opening?_of_word {v : Value} {s : String} (h : BareWord v s) : v.opening? = none := by
  cases h <;> rfl

theorem toList_parenthesized (s : String) :
    ("(" ++ s ++ ")").toList = '(' :: (s.toList ++ [')']) := by
  rw [String.toList_append, String.toList_append]
  rfl

theorem toList_stringLiteral (a : String) :
    (stringLiteral a).toList = '\x27' :: (Text.double '\x27' a.toList ++ ['\x27']) :=
  String.toList_ofList

/-- The first character of a literal tells whether it is a word, a string or a list. -/
theorem Inlinable.head {v : Value} {s : String} (hv : v.Inlinable) (hs : v.literal = .ok s) :
    ∃ c cs, s.toList = c :: cs ∧ v.opening? = if isBareChar c then none else some c := by
  cases hv.form hs with
  | word h =>
    have hne : s ≠ "" := by
      rintro rfl
      refine literal_ne_empty ?_ hs
      rintro rfl
      cases hv
    obtain ⟨c, cs, htext⟩ := List.exists_cons_of_ne_nil (mt String.toList_eq_nil_iff.mp hne)
    have hbare := h.bare
    rw [htext, List.all_cons, Bool.and_eq_true] at hbare
    exact ⟨c, cs, htext, by rw [opening?_of_word h, if_pos hbare.1]⟩
  | quoted a => exact ⟨_, _, toList_stringLiteral a, rfl⟩
  | listed => exact ⟨_, _, toList_parenthesized _, rfl⟩

theorem Inlinable.opening?_eq {v w : Value} {s t : String} {r₁ r₂ : List Char} (hv : v.Inlinable)
    (hw : w.Inlinable) (hs : v.literal = .ok s) (ht : w.literal = .ok t)
    (h : s.toList ++ r₁ = t.toList ++ r₂) : v.opening? = w.opening? := by
  obtain ⟨c, cs, hcs, hc⟩ := hv.head hs
  obtain ⟨d, ds, hds, hd⟩ := hw.head ht
  rw [hcs, hds] at h
  rw [hc, hd, List.head_eq_of_cons_eq h]

/-! ### Lists -/

/-- What follows an item of a list, up to the end of the list and on. -/
def afterItem : List String → List Char → List Char
  | [], r => ')' :: r
  | s :: ss, r => ',' :: ' ' :: (s.toList ++ afterItem ss r)

theorem closing_afterItem (ss : List String) (r : List Char) : Closing (afterItem ss r) := by
  cases ss with
  | nil => exact .inr ⟨_, .inr rfl⟩
  | cons s ss => exact .inr ⟨_, .inl rfl⟩

theorem toList_items (s : String) (ss : List String) (r : List Char) :
    (String.intercalate ", " (s :: ss)).toList ++ ')' :: r = s.toList ++ afterItem ss r := by
  induction ss generalizing s with
  | nil => rw [String.intercalate_singleton, afterItem]
  | cons t ss ih =>
    rw [String.intercalate_cons_cons, String.toList_append, List.append_assoc, ih, afterItem]
    simp

/-- Whatever follows it, the literal can be told from every other literal. -/
def Separable (v : Value) : Prop :=
  ∀ ⦃w : Value⦄ ⦃s t : String⦄ ⦃r₁ r₂ : List Char⦄, w.Inlinable → v.literal = .ok s →
    w.literal = .ok t → Closing r₁ → Closing r₂ → s.toList ++ r₁ = t.toList ++ r₂ →
      v = w ∧ r₁ = r₂

theorem afterItem_inj {as bs : List Value} {ss ts : List String} {r₁ r₂ : List Char}
    (has : ∀ v ∈ as, Separable v) (hbs : ∀ v ∈ bs, Inlinable v) (hss : Texts as ss)
    (hts : Texts bs ts) (h : afterItem ss r₁ = afterItem ts r₂) : as = bs ∧ r₁ = r₂ := by
  induction hss generalizing bs ts with
  | nil =>
    cases hts with
    | nil => exact ⟨rfl, List.tail_eq_of_cons_eq h⟩
    | cons => exact absurd (List.head_eq_of_cons_eq h) (by decide)
  | @cons a s as ss hs _ ih =>
    cases hts with
    | nil => exact absurd (List.head_eq_of_cons_eq h) (by decide)
    | @cons b t bs ts ht hts =>
      rw [List.forall_mem_cons] at has hbs
      have hitems := List.tail_eq_of_cons_eq (List.tail_eq_of_cons_eq h)
      obtain ⟨rfl, hafter⟩ :=
        has.1 hbs.1 hs ht (closing_afterItem ss r₁) (closing_afterItem ts r₂) hitems
      obtain ⟨rfl, hr⟩ := ih has.2 hbs.2 hts hafter
      exact ⟨rfl, hr⟩

theorem Inlinable.ne_parenthesis {v : Value} {s : String} {r₁ r₂ : List Char} (hv : v.Inlinable)
    (hs : v.literal = .ok s) : ')' :: r₁ ≠ s.toList ++ r₂ := by
  intro h
  obtain ⟨c, cs, hcs, hc⟩ := hv.head hs
  rw [hcs] at h
  rw [← List.head_eq_of_cons_eq h] at hc
  cases v <;> cases hc

/-- Lists are the same if their texts in parentheses are. -/
theorem items_inj {as bs : List Value} {ss ts : List String} {r₁ r₂ : List Char}
    (has : ∀ v ∈ as, Inlinable v) (hsep : ∀ v ∈ as, Separable v) (hbs : ∀ v ∈ bs, Inlinable v)
    (hss : Texts as ss) (hts : Texts bs ts)
    (h : (String.intercalate ", " ss).toList ++ ')' :: r₁ =
      (String.intercalate ", " ts).toList ++ ')' :: r₂) : as = bs ∧ r₁ = r₂ := by
  cases hss with
  | nil =>
    cases hts with
    | nil => exact ⟨rfl, List.tail_eq_of_cons_eq h⟩
    | @cons b t bs ts ht hts =>
      rw [toList_items] at h
      exact absurd h ((hbs b List.mem_cons_self).ne_parenthesis ht)
  | @cons a s as ss hs hss =>
    cases hts with
    | nil =>
      rw [toList_items] at h
      exact absurd h.symm ((has a List.mem_cons_self).ne_parenthesis hs)
    | @cons b t bs ts ht hts =>
      -- With a comma in front, the items are what follows an item.
      rw [toList_items, toList_items] at h
      have hafter : afterItem (s :: ss) r₁ = afterItem (t :: ts) r₂ := by
        rw [afterItem, afterItem, h]
      exact afterItem_inj hsep hbs (.cons hs hss) (.cons ht hts) hafter

/-! ### All literals -/

/-- **Literals can be told apart**, whatever follows them.  By recursion over the items of lists. -/
theorem Inlinable.separable {v : Value} (hv : v.Inlinable) : v.Separable := by
  intro w s t r₁ r₂ hw hs ht h₁ h₂ h
  have hopening := hv.opening?_eq hw hs ht h
  cases hv.form hs with
  | word hword =>
    cases hw.form ht with
    | word hword' =>
      obtain ⟨htext, hr⟩ := bare_append_inj hword.bare hword'.bare h₁ h₂ h
      exact ⟨hword.inj hword' (String.toList_inj.mp htext), hr⟩
    | quoted | listed =>
      rw [opening?_of_word hword] at hopening
      cases hopening
  | quoted a =>
    cases hw.form ht with
    | word hword' =>
      rw [opening?_of_word hword'] at hopening
      cases hopening
    | quoted b =>
      rw [toList_stringLiteral, toList_stringLiteral, List.cons_append, List.cons_append,
        List.append_assoc, List.append_assoc] at h
      have hquoted := List.tail_eq_of_cons_eq h
      obtain ⟨htext, hr⟩ := Text.double_append_inj h₁.head?_ne_quote h₂.head?_ne_quote hquoted
      rw [String.toList_inj.mp htext]
      exact ⟨rfl, hr⟩
    | listed => cases hopening
  | @listed items texts hitems htexts =>
    cases hw.form ht with
    | word hword' =>
      rw [opening?_of_word hword'] at hopening
      cases hopening
    | quoted => cases hopening
    | @listed items' texts' hitems' htexts' =>
      have hsep : ∀ v ∈ items, Separable v := fun v hv => (hitems v hv).separable
      rw [toList_parenthesized, toList_parenthesized, List.cons_append, List.cons_append,
        List.append_assoc, List.append_assoc] at h
      have hlisted := List.tail_eq_of_cons_eq h
      obtain ⟨rfl, hr⟩ := items_inj hitems hsep hitems' htexts htexts' hlisted
      exact ⟨rfl, hr⟩
termination_by sizeOf v

/-- **A text says where a literal ends and which value it stands for.**  Both values have literals,
and where these make one text with what follows them, they stand for one value and the same
follows. -/
theorem literal_unambiguous {v w : Value} (hv : v.Inlinable) (hw : w.Inlinable) :
    ∃ s t, v.literal = .ok s ∧ w.literal = .ok t ∧
      ∀ r₁ r₂ : String, Closing r₁.toList → Closing r₂.toList → s ++ r₁ = t ++ r₂ →
        v = w ∧ r₁ = r₂ := by
  obtain ⟨s, hs, -⟩ := hv.exists_form
  obtain ⟨t, ht, -⟩ := hw.exists_form
  refine ⟨s, t, hs, ht, fun r₁ r₂ h₁ h₂ h => ?_⟩
  have htext : s.toList ++ r₁.toList = t.toList ++ r₂.toList := by
    rw [← String.toList_append, ← String.toList_append, h]
  obtain ⟨hvw, hr⟩ := hv.separable hw hs ht h₁ h₂ htext
  exact ⟨hvw, String.toList_inj.mp hr⟩

/-- One string with quotes and a comma inside is never taken for two strings. -/
theorem literal_unambiguous_quotes :
    (seq [.str "a', 'b"]).Inlinable ∧ (seq [.str "a", .str "b"]).Inlinable ∧
      ∃ s t, (seq [.str "a', 'b"]).literal = .ok s ∧ (seq [.str "a", .str "b"]).literal = .ok t ∧
        ∀ r₁ r₂ : String, Closing r₁.toList → Closing r₂.toList → s ++ r₁ ≠ t ++ r₂ := by
  have hone : (seq [.str "a', 'b"]).Inlinable := .seq (by simp [Inlinable.str])
  have htwo : (seq [.str "a", .str "b"]).Inlinable := .seq (by simp [Inlinable.str])
  obtain ⟨s, t, hs, ht, hapart⟩ := literal_unambiguous hone htwo
  refine ⟨hone, htwo, s, t, hs, ht, fun r₁ r₂ h₁ h₂ h => ?_⟩
  exact absurd (hapart r₁ r₂ h₁ h₂ h).1 (by simp)

end Value

end Clausal
