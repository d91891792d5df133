import Clausal.Proofs.QualifiedName

/-! # Well-formed conditions

The texts of conditions that are made of names, placeholders, negations and connectives, as a
grammar (`Derives`): a phrase is an operand, a negated operand, or two and more operands with one
connective between them; an operand is a name, a placeholder, or a phrase in parentheses.

A pen that reads such a text from left to right never meets a closing parenthesis, nor the end,
right after a blank (`Derives.sound`).  It has to keep track of delimiters, since a name may have
blanks and parentheses in it.  So a text in which the operand of a negation is missing has no
derivation (`Lame.not_derives`).
-/
namespace Clausal

/-- The names of a condition, as they are written unless options ask otherwise. -/
def plainStyle : NameStyle := ⟨.ansi, false, false⟩

/-- What stands in a condition. -/
inductive Role where
  | phrase
  | operand

/-- The texts of well-formed conditions. -/
inductive Derives : Role → String → Prop where
  | name (s : String) : Derives .operand (plainStyle.entity s)
  | placeholder : Derives .operand "?"
  | group {p : String} (h : Derives .phrase p) : Derives .operand ("(" ++ p ++ ")")
  | alone {a : String} (h : Derives .operand a) : Derives .phrase a
  | negation {a : String} (h : Derives .operand a) : Derives .phrase ("NOT " ++ a)
  | chain {word : String} (hword : word = " AND " ∨ word = " OR ") {texts : List String}
      (hlength : 2 ≤ texts.length) (h : ∀ a ∈ texts, Derives .operand a) :
      Derives .phrase (String.intercalate word texts)

/-! ### Reading from left to right -/

/-- Where the pen stands: between delimiters, or outside, after a blank or not. -/
inductive Pen where
  | quoted
  | outside (blank : Bool)
deriving DecidableEq

namespace Pen

/-- One more character.  A parenthesis does not close after a blank. -/
def step (ch : Char) : Pen → Option Pen
  | .quoted => some (if ch = '\x22' then .outside false else .quoted)
  | .outside blank =>
    if ch = '\x22' then some .quoted
    else if ch = ' ' then some (.outside true)
    else if ch = ')' ∧ blank = true then none
    else some (.outside false)

/-- Reading a text. -/
def read : List Char → Pen → Option Pen
  | [], pen => some pen
  | ch :: rest, pen => (pen.step ch).bind (read rest)

theorem read_append (a b : List Char) (pen : Pen) :
    read (a ++ b) pen = (read a pen).bind (read b) := by
  induction a generalizing pen with
  | nil => rfl
  | cons ch a ih =>
    rw [List.cons_append, read, read]
    cases pen.step ch with
    | none => rfl
    | some next => exact ih next

/-- After a word the pen stands outside and not after a blank. -/
theorem read_word {cs : List Char} (hne : cs ≠ []) (hcs : ∀ c ∈ cs, isWordChar c = true)
    (blank : Bool) : read cs (.outside blank) = some (.outside false) := by
  induction cs generalizing blank with
  | nil => exact absurd rfl hne
  | cons c cs ih =>
    have hc := hcs c List.mem_cons_self
    have hstep : step c (.outside blank) = some (.outside false) := by
      have hquote : c ≠ '\x22' := fun h => by rw [h] at hc; cases hc
      have hspace : c ≠ ' ' := fun h => by rw [h] at hc; cases hc
      have hparen : c ≠ ')' := fun h => by rw [h] at hc; cases hc
      simp [step, hquote, hspace, hparen]
    rw [read, hstep, Option.bind_some]
    cases cs with
    | nil => rfl
    | cons d ds =>
      exact ih (List.cons_ne_nil d ds) (fun x hx => hcs x (List.mem_cons_of_mem c hx)) _

/-- A doubled delimiter ends the quotation and begins it again. -/
theorem read_double (cs : List Char) :
    read (Text.double '\x22' cs) .quoted = some .quoted := by
  induction cs with
  | nil => rfl
  | cons c cs ih =>
    by_cases hc : c = '\x22'
    · simpa [Text.double, hc, read, step] using ih
    · simpa [Text.double, hc, read, step] using ih

theorem read_delimit (s : String) (blank : Bool) :
    read (delimit '\x22' '\x22' s).toList (.outside blank) = some (.outside false) := by
  rw [delimit, String.toList_ofList, List.cons_append, read]
  show (read (Text.double '\x22' s.toList ++ ['\x22']) .quoted) = _
  rw [read_append, read_double]
  rfl

theorem read_parens (x : String) (blank : Bool) :
    read ("(" ++ x ++ ")").toList (.outside blank) =
      (read x.toList (.outside false)).bind (step ')') := by
  have hopen : read "(".toList (.outside blank) = some (.outside false) := by
    cases blank <;> decide
  have hclose : read ")".toList = step ')' := by
    funext pen
    show (pen.step ')').bind (read []) = pen.step ')'
    cases pen.step ')' <;> rfl
  rw [String.toList_append, String.toList_append, read_append, read_append, hopen, hclose]
  rfl

theorem read_negation (x : String) (blank : Bool) :
    read ("NOT " ++ x).toList (.outside blank) = read x.toList (.outside true) := by
  have hword : read "NOT ".toList (.outside blank) = some (.outside true) := by
    cases blank <;> decide
  rw [String.toList_append, read_append, hword]
  rfl

theorem read_intercalate {sep : String} {blank : Bool}
    (hsep : read sep.toList (.outside false) = some (.outside blank)) (x y : String)
    (rest : List String) (pen : Pen)
    (hx : read x.toList pen = some (.outside false)) :
    read (String.intercalate sep (x :: y :: rest)).toList pen =
      read (String.intercalate sep (y :: rest)).toList (.outside blank) := by
  rw [String.intercalate_cons_cons, String.toList_append, String.toList_append, read_append,
    read_append, hx, Option.bind_some, hsep, Option.bind_some]

end Pen

/-! ### Sound and lame texts -/

/-- The pen reads the text, wherever it stands outside of delimiters, and stands outside of them
afterwards, and not after a blank. -/
def Sound (x : String) : Prop :=
  ∀ blank, Pen.read x.toList (.outside blank) = some (.outside false)

/-- The pen comes to a parenthesis right after a blank. -/
def Stuck (x : String) : Prop := ∀ blank, Pen.read x.toList (.outside blank) = none

/-- The pen comes to a parenthesis or to the end right after a blank. -/
def Lame (x : String) : Prop :=
  ∀ blank, Pen.read x.toList (.outside blank) = none ∨
    Pen.read x.toList (.outside blank) = some (.outside true)

section Texts
variable {x : String}

theorem Stuck.lame (h : Stuck x) : Lame x := fun blank => .inl (h blank)

theorem Sound.ne_empty (h : Sound x) : x ≠ "" := by
  rintro rfl
  cases h true

theorem Lame.ne_empty (h : Lame x) : x ≠ "" := by
  rintro rfl
  rcases h false with h | h <;> cases h

theorem Sound.not_lame (h : Sound x) : ¬ Lame x := by
  intro hlame
  rcases hlame false with hnone | hblank
  · cases hnone.symm.trans (h false)
  · cases hblank.symm.trans (h false)

theorem Sound.parens (h : Sound x) : Sound ("(" ++ x ++ ")") := by
  intro blank
  rw [Pen.read_parens, h false]
  rfl

/-- In parentheses, a text that ends after a blank is stuck. -/
theorem Lame.parens (h : Lame x) : Stuck ("(" ++ x ++ ")") := by
  intro blank
  rw [Pen.read_parens]
  rcases h false with h | h <;> rw [h] <;> rfl

theorem Sound.negation (h : Sound x) : Sound ("NOT " ++ x) := by
  intro blank
  rw [Pen.read_negation, h true]

theorem Stuck.negation (h : Stuck x) : Stuck ("NOT " ++ x) := by
  intro blank
  rw [Pen.read_negation, h true]

/-- A negation without operand ends after a blank. -/
theorem lame_negation : Lame ("NOT " ++ "") := by
  intro blank
  rw [Pen.read_negation]
  exact .inr rfl

end Texts

/-- What stands between texts keeps the pen outside of delimiters. -/
def Divides (sep : String) : Prop :=
  ∃ blank, Pen.read sep.toList (.outside false) = some (.outside blank)

theorem divides_dot : Divides "." := ⟨false, by decide⟩

theorem divides_connective {word : String} (h : word = " AND " ∨ word = " OR ") :
    Divides word := by
  rcases h with rfl | rfl
  · exact ⟨true, by decide⟩
  · exact ⟨true, by decide⟩

section Lists
variable {sep : String} {texts : List String}

theorem sound_intercalate (hsep : Divides sep) (hne : texts ≠ []) (h : ∀ x ∈ texts, Sound x) :
    Sound (String.intercalate sep texts) := by
  obtain ⟨after, hsep⟩ := hsep
  induction texts with
  | nil => exact absurd rfl hne
  | cons x rest ih =>
    have hx := h x List.mem_cons_self
    cases rest with
    | nil => rwa [String.intercalate_singleton]
    | cons y rest =>
      intro blank
      rw [Pen.read_intercalate hsep x y rest _ (hx blank)]
      exact ih (List.cons_ne_nil y rest) (fun z hz => h z (List.mem_cons_of_mem x hz)) after

/-- A list of texts is stuck in the first one that is. -/
theorem stuck_intercalate (hsep : Divides sep) (h : ∀ x ∈ texts, Sound x ∨ Stuck x)
    (hstuck : ∃ x ∈ texts, Stuck x) : Stuck (String.intercalate sep texts) := by
  obtain ⟨after, hsep⟩ := hsep
  induction texts with
  | nil =>
    obtain ⟨x, hx, -⟩ := hstuck
    cases hx
  | cons x rest ih =>
    obtain ⟨z, hz, hzstuck⟩ := hstuck
    cases rest with
    | nil =>
      obtain rfl := List.mem_singleton.mp hz
      rwa [String.intercalate_singleton]
    | cons y rest =>
      intro blank
      rcases h x List.mem_cons_self with hx | hx
      · rw [Pen.read_intercalate hsep x y rest _ (hx blank)]
        have hrest : z ∈ y :: rest := by
          rcases List.mem_cons.mp hz with rfl | hz
          · exact absurd hzstuck.lame hx.not_lame
          · exact hz
        exact ih (fun w hw => h w (List.mem_cons_of_mem x hw)) ⟨z, hrest, hzstuck⟩ after
      · rw [String.intercalate_cons_cons, String.toList_append, String.toList_append,
          Pen.read_append, Pen.read_append, hx blank]
        rfl

end Lists

/-! ### Derivations are sound -/

theorem sound_part (s : String) : Sound (plainStyle.part s) := by
  intro blank
  have hquoted : plainStyle.quoted = false := rfl
  rw [NameStyle.part, hquoted]
  split
  · rename_i hstar
    subst hstar
    cases blank <;> decide
  · split
    · cases ‹false = true›
    · split
      · rename_i hplain
        simp only [isPlainName, Bool.and_eq_true, Bool.not_eq_true', List.all_eq_true] at hplain
        refine Pen.read_word ?_ hplain.2 blank
        intro hnil
        rw [String.toList_eq_nil_iff.mp hnil] at hplain
        cases hplain.1
      · exact Pen.read_delimit _ blank

theorem sound_entity (s : String) : Sound (plainStyle.entity s) := by
  refine sound_intercalate divides_dot ?_ ?_
  · simpa using nameParts_ne_nil s
  · intro x hx
    obtain ⟨part, -, rfl⟩ := List.mem_map.mp hx
    exact sound_part part

/-- **The pen reads whatever has a derivation.** -/
theorem Derives.sound {role : Role} {x : String} (h : Derives role x) : Sound x := by
  induction h with
  | name s => exact sound_entity s
  | placeholder =>
    intro blank
    cases blank <;> decide
  | group _ ih => exact ih.parens
  | alone _ ih => exact ih
  | negation _ ih => exact ih.negation
  | chain hword hlength _ ih =>
    refine sound_intercalate (divides_connective hword) ?_ ih
    rintro rfl
    cases hlength

theorem Lame.not_derives {x : String} (h : Lame x) (role : Role) : ¬ Derives role x :=
  fun hderives => hderives.sound.not_lame h

end Clausal
