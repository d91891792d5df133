import Clausal.Proofs.Readability.Spelling

/-! # Lexemes

The text of an expression consists of words and marks with blanks between them, and of
groups of such in parentheses.  Words have no blanks and no parentheses, so each
lexeme shows where it ends, and a list of lexemes ends with the text or at the next
closing parenthesis.  Hence the lexemes can be told from their spelling
(`Lexeme.spellAll_injective`).
-/
namespace Clausal

/-- A piece of an expression between blanks. -/
inductive Lexeme where
  | word (s : String)
  /-- A parameter in its place. -/
  | mark (v : Value)
  /-- Lexemes in parentheses. -/
  | group (inner : List Lexeme)

/-- What words consist of. -/
def isInk (c : Char) : Bool := c != ' ' && c != '(' && c != ')' && c != '?'

/-- A word is not empty and has no blanks, parentheses and question marks. -/
def isWord (s : String) : Bool := !s.isEmpty && s.toList.all isInk

namespace Lexeme

mutual

/-- The spelling of a lexeme. -/
def spell : Lexeme → Spelling
  | .word s => Spelling.ofText s
  | .mark v => [.param v]
  | .group inner => .char '(' :: spellAll inner ++ [.char ')']

/-- The spelling of lexemes with blanks between them. -/
def spellAll : List Lexeme → Spelling
  | [] => []
  | [t] => t.spell
  | t :: u :: us => t.spell ++ .char ' ' :: spellAll (u :: us)

end

mutual

/-- Words are words, and no group is empty. -/
def Valid : Lexeme → Prop
  | .word s => isWord s = true
  | .mark _ => True
  | .group inner => inner ≠ [] ∧ AllValid inner

/-- All of the lexemes are valid. -/
def AllValid : List Lexeme → Prop
  | [] => True
  | t :: ts => t.Valid ∧ AllValid ts

end

theorem allValid_iff {ts : List Lexeme} : AllValid ts ↔ ∀ t ∈ ts, t.Valid := by
  induction ts with
  | nil => simp [AllValid]
  | cons t ts ih => simp [AllValid, ih]

/-- A list of lexemes ends here: the text does, or a group. -/
def Closes (r : Spelling) : Prop := r = [] ∨ ∃ tail, r = .char ')' :: tail

/-- A lexeme ends here: a list of lexemes does, or a blank follows. -/
def Ends (r : Spelling) : Prop := Closes r ∨ ∃ tail, r = .char ' ' :: tail

/-- What follows the first lexeme of a list. -/
def after : List Lexeme → Spelling → Spelling
  | [], r => r
  | u :: us, r => .char ' ' :: (spellAll (u :: us) ++ r)

theorem spellAll_cons_append (t : Lexeme) (ts : List Lexeme) (r : Spelling) :
    spellAll (t :: ts) ++ r = t.spell ++ after ts r := by
  cases ts with
  | nil => rfl
  | cons u us =>
    rw [spellAll, List.append_assoc]
    rfl

theorem ends_after (ts : List Lexeme) {r : Spelling} (hr : Closes r) : Ends (after ts r) := by
  cases ts with
  | nil => exact .inl hr
  | cons u us => exact .inr ⟨_, rfl⟩

/-! ### Words -/

theorem ink_of_word {s : String} (hs : isWord s = true) : ∀ c ∈ s.toList, isInk c = true := by
  simp only [isWord, Bool.and_eq_true, List.all_eq_true] at hs
  exact hs.2

/-- A word starts with a character that is neither a parenthesis nor a mark. -/
theorem exists_ofText_of_word {s : String} (hs : isWord s = true) :
    ∃ c tail, isInk c = true ∧ Spelling.ofText s = .char c :: tail := by
  cases hlist : s.toList with
  | nil =>
    have hempty : s = "" := String.toList_eq_nil_iff.mp hlist
    simp [isWord, hempty] at hs
  | cons c cs =>
    have hc := ink_of_word hs c (by simp [hlist])
    exact ⟨c, cs.map .char, hc, by simp [Spelling.ofText, hlist]⟩

/-- Where a lexeme ends there is no character of a word. -/
theorem not_ends_ink {c : Char} (hc : isInk c = true) {tail : Spelling} :
    ¬ Ends (.char c :: tail) := by
  rintro ((h | ⟨_, h⟩) | ⟨_, h⟩)
  · cases h
  · cases h
    cases hc
  · cases h
    cases hc

/-- Characters of words up to the ends of two words. -/
theorem chars_append_inj {cs ds : List Char} (hcs : ∀ c ∈ cs, isInk c = true)
    (hds : ∀ d ∈ ds, isInk d = true) {r s : Spelling} (hr : Ends r) (hs : Ends s)
    (h : cs.map Symbol.char ++ r = ds.map Symbol.char ++ s) : cs = ds ∧ r = s := by
  induction cs generalizing ds with
  | nil =>
    cases ds with
    | nil => exact ⟨rfl, h⟩
    | cons d ds =>
      rw [List.map_nil, List.nil_append, List.map_cons, List.cons_append] at h
      exact absurd (h ▸ hr) (not_ends_ink (hds d List.mem_cons_self))
  | cons c cs ih =>
    cases ds with
    | nil =>
      rw [List.map_nil, List.nil_append, List.map_cons, List.cons_append] at h
      exact absurd (h ▸ hs) (not_ends_ink (hcs c List.mem_cons_self))
    | cons d ds =>
      obtain ⟨hcd, hrest⟩ := List.cons.inj h
      obtain ⟨htail, hrs⟩ := ih (fun x hx => hcs x (List.mem_cons_of_mem c hx))
        (fun x hx => hds x (List.mem_cons_of_mem d hx)) hrest
      exact ⟨by rw [Symbol.char.inj hcd, htail], hrs⟩

theorem word_append_inj {a b : String} (ha : isWord a = true) (hb : isWord b = true)
    {r s : Spelling} (hr : Ends r) (hs : Ends s)
    (h : Spelling.ofText a ++ r = Spelling.ofText b ++ s) : a = b ∧ r = s := by
  obtain ⟨hlist, hrs⟩ := chars_append_inj (ink_of_word ha) (ink_of_word hb) hr hs h
  exact ⟨String.toList_inj.mp hlist, hrs⟩

/-- A word is spelled like no mark and no group. -/
theorem word_append_ne {a : String} (ha : isWord a = true) {x : Symbol}
    (hx : ∀ c, x = .char c → isInk c = false) {r s : Spelling} :
    Spelling.ofText a ++ r ≠ x :: s := by
  intro h
  obtain ⟨c, tail, hc, hword⟩ := exists_ofText_of_word ha
  rw [hword, List.cons_append] at h
  have hink := hx c (List.cons.inj h).1.symm
  rw [hc] at hink
  cases hink

/-! ### Lexemes and lists of them -/

mutual

/-- **A lexeme can be told from its spelling and what follows.** -/
theorem spell_append_inj : ∀ {a b : Lexeme}, a.Valid → b.Valid → ∀ {r s : Spelling}, Ends r →
    Ends s → a.spell ++ r = b.spell ++ s → a = b ∧ r = s
  | .word x, .word y, ha, hb, r, s, hr, hs, h => by
    obtain ⟨hxy, hrs⟩ := word_append_inj ha hb hr hs h
    exact ⟨congrArg Lexeme.word hxy, hrs⟩
  | .word x, .mark w, ha, _, r, s, _, _, h => by
    exact absurd h (word_append_ne ha fun _ hc => by cases hc)
  | .word x, .group bs, ha, _, r, s, _, _, h => by
    exact absurd h (word_append_ne ha fun _ hc => by cases hc; rfl)
  | .mark v, .word y, _, hb, r, s, _, _, h => by
    exact absurd h.symm (word_append_ne hb fun _ hc => by cases hc)
  | .mark v, .mark w, _, _, r, s, _, _, h => by
    obtain ⟨hvw, hrs⟩ := List.cons.inj h
    exact ⟨congrArg Lexeme.mark (Symbol.param.inj hvw), hrs⟩
  | .mark v, .group bs, _, _, r, s, _, _, h => by cases (List.cons.inj h).1
  | .group as, .word y, _, hb, r, s, _, _, h => by
    exact absurd h.symm (word_append_ne hb fun _ hc => by cases hc; rfl)
  | .group as, .mark w, _, _, r, s, _, _, h => by cases (List.cons.inj h).1
  | .group as, .group bs, ha, hb, r, s, _, _, h => by
    -- Inside, both lists end at a closing parenthesis.
    rw [spell, spell, List.append_assoc, List.append_assoc] at h
    obtain ⟨hinner, hclose⟩ := spellAll_append_inj ha.1 hb.1 ha.2 hb.2 (.inr ⟨r, rfl⟩)
      (.inr ⟨s, rfl⟩) (List.cons.inj h).2
    exact ⟨congrArg Lexeme.group hinner, (List.cons.inj hclose).2⟩

/-- Lexemes can be told from their spelling and what follows. -/
theorem spellAll_append_inj : ∀ {as bs : List Lexeme}, as ≠ [] → bs ≠ [] → AllValid as →
    AllValid bs → ∀ {r s : Spelling}, Closes r → Closes s →
    spellAll as ++ r = spellAll bs ++ s → as = bs ∧ r = s
  | [], _, hne, _, _, _, _, _, _, _, _ => absurd rfl hne
  | _ :: _, [], _, hne, _, _, _, _, _, _, _ => absurd rfl hne
  | a :: as, b :: bs, _, _, ha, hb, r, s, hr, hs, h => by
    rw [spellAll_cons_append, spellAll_cons_append] at h
    obtain ⟨hab, hafter⟩ := spell_append_inj ha.1 hb.1 (ends_after as hr) (ends_after bs hs) h
    have hblank : ∀ {q tail : Spelling}, Closes q → q ≠ .char ' ' :: tail := by
      rintro q tail (rfl | ⟨_, rfl⟩) hq <;> cases hq
    cases as with
    | nil =>
      cases bs with
      | nil => exact ⟨by rw [hab], hafter⟩
      | cons c cs => exact absurd hafter (hblank hr)
    | cons c cs =>
      cases bs with
      | nil => exact absurd hafter.symm (hblank hs)
      | cons d ds =>
        obtain ⟨hrest, hrs⟩ := spellAll_append_inj (List.cons_ne_nil c cs) (List.cons_ne_nil d ds)
          ha.2 hb.2 hr hs (List.cons.inj hafter).2
        exact ⟨by rw [hab, hrest], hrs⟩

end

/-- **The lexemes of a text can be told from its spelling.** -/
theorem spellAll_injective {as bs : List Lexeme} (has : as ≠ []) (hbs : bs ≠ [])
    (ha : AllValid as) (hb : AllValid bs) (h : spellAll as = spellAll bs) : as = bs := by
  have happend : spellAll as ++ [] = spellAll bs ++ [] := by rw [h]
  exact (spellAll_append_inj has hbs ha hb (.inl rfl) (.inl rfl) happend).1

mutual

/-- Only marks are shown as question marks. -/
theorem clear_spell : ∀ {t : Lexeme}, t.Valid → t.spell.Clear
  | .word s, ht => by
    rw [spell, Spelling.clear_ofText]
    intro hmem
    have hink := ink_of_word ht '?' hmem
    cases hink
  | .mark v, _ => by simp [spell, Spelling.Clear]
  | .group inner, ht => by
    have hinner : Spelling.Clear (spellAll inner) := clear_spellAll ht.2
    simpa [spell, Spelling.Clear] using hinner

theorem clear_spellAll : ∀ {ts : List Lexeme}, AllValid ts → (spellAll ts).Clear
  | [], _ => by simp [spellAll, Spelling.Clear]
  | [t], ht => clear_spell ht.1
  | t :: u :: us, ht => by
    have hfirst := clear_spell ht.1
    have hrest : Spelling.Clear (spellAll (u :: us)) := clear_spellAll ht.2
    rw [spellAll, Spelling.clear_append]
    exact ⟨hfirst, by simpa [Spelling.Clear] using hrest⟩

end

end Lexeme
end Clausal
