import Clausal.Text.Quoted

/-! # Quoted text can be read back

Two strings with one quoted form are one string (`quoted_append_inj`), and two
lists of strings with one quoted form are one list (`quotedList_injective`).

What is written for a character is a prefix code: followed by anything, it fixes the
character and what follows (`quotedChar_append_inj`).  No character is written with a quote
in front, so the closing quote ends a string, and a comma or a bracket after it tells
whether another one comes.
-/
namespace Clausal.Text

/-! ### Hexadecimal digits -/

theorem digitChar_inj {m n : Nat} (hm : m < 16) (hn : n < 16)
    (h : Nat.digitChar m = Nat.digitChar n) : m = n := by
  have key : ∀ a : Fin 16, ∀ b : Fin 16, Nat.digitChar a = Nat.digitChar b → a = b := by decide
  exact congrArg Fin.val (key ⟨m, hm⟩ ⟨n, hn⟩ h)

theorem mem_toDigits {c : Char} {n : Nat} (h : c ∈ Nat.toDigits 16 n) :
    ∃ d : Fin 16, c = Nat.digitChar d := by
  induction n using Nat.strongRecOn with
  | _ n ih =>
    rw [Nat.toDigits_eq_if (by decide)] at h
    split at h
    case isTrue hn => exact ⟨⟨n, hn⟩, List.mem_singleton.mp h⟩
    case isFalse hn =>
      rcases List.mem_append.mp h with h | h
      · exact ih (n / 16) (by omega) h
      · exact ⟨⟨n % 16, by omega⟩, List.mem_singleton.mp h⟩

/-- No digit is the brace that ends an escape. -/
theorem brace_notMem_toDigits (n : Nat) : '\x7d' ∉ Nat.toDigits 16 n := by
  intro h
  obtain ⟨d, hd⟩ := mem_toDigits h
  exact absurd hd.symm ((by decide : ∀ d : Fin 16, Nat.digitChar d ≠ '\x7d') d)

theorem toDigits_injective {m n : Nat} (h : Nat.toDigits 16 m = Nat.toDigits 16 n) : m = n := by
  induction m using Nat.strongRecOn generalizing n with
  | _ m ih =>
    have hlast : ∀ {ds : List Char} {a b : Char}, [a] = ds ++ [b] → ds = [] := by
      intro ds a b heq
      cases ds with
      | nil => rfl
      | cons d ds => simp at heq
    rw [Nat.toDigits_eq_if (by decide), Nat.toDigits_eq_if (b := 16) (n := n) (by decide)] at h
    -- The last digits agree, and so do the digits before them, unless one number has none.
    split at h <;> split at h
    case isTrue.isTrue hm hn => exact digitChar_inj hm hn (List.singleton_inj.mp h)
    case isTrue.isFalse hm hn => exact absurd (hlast h) Nat.toDigits_ne_nil
    case isFalse.isTrue hm hn => exact absurd (hlast h.symm) Nat.toDigits_ne_nil
    case isFalse.isFalse hm hn =>
      obtain ⟨hinit, hdigit⟩ := List.append_inj' h rfl
      have hdiv : m / 16 = n / 16 := ih (m / 16) (by omega) hinit
      have hmod : m % 16 = n % 16 :=
        digitChar_inj (by omega) (by omega) (List.singleton_inj.mp hdigit)
      omega

/-! ### One character -/

/-- Lists that agree, with `e` first at one place of each, agree before and after it. -/
theorem append_cons_inj {α : Type} {e : α} {xs ys as bs : List α} (hx : e ∉ xs) (hy : e ∉ ys)
    (h : xs ++ e :: as = ys ++ e :: bs) : xs = ys ∧ as = bs := by
  induction xs generalizing ys with
  | nil =>
    cases ys with
    | nil => exact ⟨rfl, (List.cons.inj h).2⟩
    | cons y ys =>
      have hey : e = y := (List.cons.inj h).1
      exact absurd (hey ▸ List.mem_cons_self) hy
  | cons x xs ih =>
    cases ys with
    | nil =>
      have hxe : x = e := (List.cons.inj h).1
      exact absurd (hxe ▸ List.mem_cons_self) hx
    | cons y ys =>
      obtain ⟨hxy, hrest⟩ := List.cons.inj h
      obtain ⟨hinit, htail⟩ := ih (fun hm => hx (List.mem_cons_of_mem x hm))
        (fun hm => hy (List.mem_cons_of_mem y hm)) hrest
      exact ⟨congr (congrArg List.cons hxy) hinit, htail⟩

/-- The character that a backslash and one more character stand for. -/
def shortMeaning : Char → Char
  | 'n' => '\n'
  | 'r' => '\r'
  | 't' => '\t'
  | '0' => '\x00'
  | c => c

/-- A character is written as a short escape, as its code point, or as itself. -/
theorem quotedChar_cases (c : Char) :
    (∃ e, quotedChar c = shortEscape e ∧ e ≠ 'u' ∧ shortMeaning e = c) ∨
      quotedChar c = codeEscape c ∨ (quotedChar c = [c] ∧ c ≠ '\x22' ∧ c ≠ '\\') := by
  unfold quotedChar
  split
  case isTrue h => exact .inl ⟨_, rfl, by decide, h.symm⟩
  split
  case isTrue h => exact .inl ⟨_, rfl, by decide, h.symm⟩
  split
  case isTrue h => exact .inl ⟨_, rfl, by decide, h.symm⟩
  split
  case isTrue h => exact .inl ⟨_, rfl, by decide, h.symm⟩
  split
  case isTrue h => exact .inl ⟨_, rfl, by decide, h.symm⟩
  split
  case isTrue h => exact .inl ⟨_, rfl, by decide, (Char.toNat_inj.mp h).symm⟩
  split
  case isTrue => exact .inr (.inl rfl)
  case isFalse => exact .inr (.inr ⟨rfl, by assumption, by assumption⟩)

/-- **What is written for a character fixes the character and what follows.** -/
theorem quotedChar_append_inj {c d : Char} {x y : List Char}
    (h : quotedChar c ++ x = quotedChar d ++ y) : c = d ∧ x = y := by
  rcases quotedChar_cases c with ⟨e, hc, he, hmean⟩ | hc | ⟨hc, -, hback⟩ <;>
    rcases quotedChar_cases d with ⟨e', hd, he', hmean'⟩ | hd | ⟨hd, -, hback'⟩ <;>
    rw [hc, hd] at h
  · obtain ⟨hee, hxy⟩ := List.cons.inj (List.cons.inj h).2
    exact ⟨by rw [← hmean, ← hmean', hee], hxy⟩
  · exact absurd (List.cons.inj (List.cons.inj h).2).1 he
  · exact absurd (List.cons.inj h).1.symm hback'
  · exact absurd (List.cons.inj (List.cons.inj h).2).1.symm he'
  · -- Both are code points in braces: the digits end at the first closing brace.
    simp only [codeEscape, List.cons_append, List.nil_append, List.append_assoc,
      List.cons.injEq, true_and] at h
    obtain ⟨hdigits, hxy⟩ := append_cons_inj (brace_notMem_toDigits c.toNat)
      (brace_notMem_toDigits d.toNat) h
    exact ⟨Char.toNat_inj.mp (toDigits_injective hdigits), hxy⟩
  · exact absurd (List.cons.inj h).1.symm hback'
  · exact absurd (List.cons.inj h).1 hback
  · exact absurd (List.cons.inj h).1 hback
  · exact List.cons.inj h

/-- No character is written with a quote in front. -/
theorem quotedChar_append_ne_quote (c : Char) (x y : List Char) :
    quotedChar c ++ x ≠ '\x22' :: y := by
  intro h
  rcases quotedChar_cases c with ⟨e, hc, -, -⟩ | hc | ⟨hc, hquote, -⟩ <;> rw [hc] at h
  · exact absurd (List.cons.inj h).1 (by decide)
  · exact absurd (List.cons.inj h).1 (by decide)
  · exact hquote (List.cons.inj h).1

/-! ### Strings and lists of strings -/

theorem flatMap_quotedChar_inj {s t x y : List Char}
    (h : s.flatMap quotedChar ++ '\x22' :: x = t.flatMap quotedChar ++ '\x22' :: y) :
    s = t ∧ x = y := by
  -- A string that ends earlier has its closing quote where the other one has a character.
  induction s generalizing t with
  | nil =>
    cases t with
    | nil => exact ⟨rfl, (List.cons.inj h).2⟩
    | cons d t =>
      rw [List.flatMap_cons, List.append_assoc] at h
      exact absurd h.symm (quotedChar_append_ne_quote d _ _)
  | cons c s ih =>
    rw [List.flatMap_cons, List.append_assoc] at h
    cases t with
    | nil => exact absurd h (quotedChar_append_ne_quote c _ _)
    | cons d t =>
      rw [List.flatMap_cons, List.append_assoc] at h
      obtain ⟨hcd, hrest⟩ := quotedChar_append_inj h
      obtain ⟨hst, hxy⟩ := ih hrest
      exact ⟨congr (congrArg List.cons hcd) hst, hxy⟩

theorem toList_quoted (s : String) :
    (quoted s).toList = '\x22' :: (s.toList.flatMap quotedChar ++ ['\x22']) := by
  rw [quoted, String.toList_ofList, List.cons_append]

/-- A quoted string, followed by anything, fixes the string and what follows. -/
theorem quoted_append_inj {s t : String} {x y : List Char}
    (h : (quoted s).toList ++ x = (quoted t).toList ++ y) : s = t ∧ x = y := by
  simp only [toList_quoted, List.cons_append, List.append_assoc, List.nil_append,
    List.cons.injEq, true_and] at h
  obtain ⟨hst, hxy⟩ := flatMap_quotedChar_inj h
  exact ⟨String.toList_inj.mp hst, hxy⟩

/-- What stands between the brackets of a list. -/
def listed (ss : List String) : List Char := (String.intercalate ", " (ss.map quoted)).toList

theorem listed_cons (s : String) (ss : List String) :
    listed (s :: ss) =
      (quoted s).toList ++ if ss = [] then [] else ',' :: ' ' :: listed ss := by
  cases ss with
  | nil => simp [listed]
  | cons t ss => simp [listed]

theorem listed_inj {ss ts : List String} (h : listed ss ++ [']'] = listed ts ++ [']']) :
    ss = ts := by
  induction ss generalizing ts with
  | nil =>
    cases ts with
    | nil => rfl
    | cons t ts =>
      rw [listed_cons, toList_quoted] at h
      exact absurd (List.cons.inj h).1 (by decide)
  | cons s ss ih =>
    rw [listed_cons] at h
    cases ts with
    | nil =>
      rw [toList_quoted] at h
      exact absurd (List.cons.inj h).1 (by decide)
    | cons t ts =>
      rw [listed_cons, List.append_assoc, List.append_assoc] at h
      obtain ⟨hst, h⟩ := quoted_append_inj h
      -- After the first string comes a bracket or a comma.
      split at h <;> split at h
      case isTrue.isTrue hs ht => rw [hst, hs, ht]
      case isTrue.isFalse => exact absurd (List.cons.inj h).1 (by decide)
      case isFalse.isTrue => exact absurd (List.cons.inj h).1 (by decide)
      case isFalse.isFalse =>
        exact congr (congrArg List.cons hst) (ih (List.cons.inj (List.cons.inj h).2).2)

theorem toList_quotedList (ss : List String) :
    (quotedList ss).toList = '[' :: (listed ss ++ [']']) := by
  simp only [quotedList, String.toList_append]
  rfl

/-- **A quoted list fixes the list.** -/
theorem quotedList_injective {ss ts : List String} (h : quotedList ss = quotedList ts) :
    ss = ts := by
  have hlist := congrArg String.toList h
  rw [toList_quotedList, toList_quotedList] at hlist
  exact listed_inj (List.cons.inj hlist).2

/-! ### Where the quotes are

A reader that goes through a quoted list knows at each character whether it is inside a
string.  A text that is a quoted list for a reader outside of strings is none for
a reader inside of one (`read_quotedList_inside`): the quotes come in pairs, so such a reader is
inside a string at the end.
-/

/-- What a reader of a quoted list knows. -/
inductive Inspection where
  | outside
  | inside
  /-- Inside a string, after a backslash. -/
  | escaped
  /-- The text is no quoted list. -/
  | refused

namespace Inspection

/-- One character further. -/
def next : Inspection → Char → Inspection
  | outside, c =>
    if c = '\x22' then inside else if c ∈ ['[', ',', ' ', ']'] then outside else refused
  | inside, c => if c = '\x22' then outside else if c = '\\' then escaped else inside
  | escaped, _ => inside
  | refused, _ => refused

/-- Through the whole text. -/
def read (r : Inspection) (text : List Char) : Inspection := text.foldl next r

@[simp] theorem read_nil (r : Inspection) : r.read [] = r := rfl

@[simp] theorem read_cons (r : Inspection) (c : Char) (text : List Char) :
    r.read (c :: text) = (r.next c).read text := rfl

@[simp] theorem read_append (r : Inspection) (a b : List Char) :
    r.read (a ++ b) = (r.read a).read b := List.foldl_append

@[simp] theorem read_refused (text : List Char) : refused.read text = refused := by
  induction text with
  | nil => rfl
  | cons c text ih => exact ih

/-- Inside a string, only quotes and backslashes matter. -/
theorem read_inside {text : List Char} (hquote : '\x22' ∉ text) (hback : '\\' ∉ text) :
    inside.read text = inside := by
  induction text with
  | nil => rfl
  | cons c text ih =>
    rw [List.mem_cons, not_or] at hquote hback
    have hnext : inside.next c = inside := by
      rw [next, if_neg (Ne.symm hquote.1), if_neg (Ne.symm hback.1)]
    rw [read_cons, hnext]
    exact ih hquote.2 hback.2

theorem read_quotedChar_inside (c : Char) : inside.read (quotedChar c) = inside := by
  rcases quotedChar_cases c with ⟨e, hc, -, -⟩ | hc | ⟨hc, hquote, hback⟩ <;> rw [hc]
  · rfl
  · have hdigits : inside.read (Nat.toDigits 16 c.toNat) = inside := by
      refine read_inside (fun h => ?_) (fun h => ?_)
      · obtain ⟨d, hd⟩ := mem_toDigits h
        exact absurd hd.symm ((by decide : ∀ d : Fin 16, Nat.digitChar d ≠ '\x22') d)
      · obtain ⟨d, hd⟩ := mem_toDigits h
        exact absurd hd.symm ((by decide : ∀ d : Fin 16, Nat.digitChar d ≠ '\\') d)
    have hopen : inside.read ['\\', 'u', '\x7b'] = inside := rfl
    have hclose : inside.read ['\x7d'] = inside := rfl
    rw [codeEscape, read_append, read_append, hopen, hdigits, hclose]
  · exact read_inside (by simpa using hquote.symm) (by simpa using hback.symm)

theorem read_quotedChar_outside (c : Char) :
    outside.read (quotedChar c) = outside ∨ outside.read (quotedChar c) = refused := by
  rcases quotedChar_cases c with ⟨e, hc, -, -⟩ | hc | ⟨hc, hquote, -⟩ <;> rw [hc]
  · exact .inr rfl
  · exact .inr (read_refused _)
  · rw [read_cons, read_nil, next, if_neg hquote]
    split
    · exact .inl rfl
    · exact .inr rfl

theorem read_chars_inside (s : List Char) : inside.read (s.flatMap quotedChar) = inside := by
  induction s with
  | nil => rfl
  | cons c s ih => rw [List.flatMap_cons, read_append, read_quotedChar_inside, ih]

theorem read_chars_outside (s : List Char) :
    outside.read (s.flatMap quotedChar) = outside ∨
      outside.read (s.flatMap quotedChar) = refused := by
  induction s with
  | nil => exact .inl rfl
  | cons c s ih =>
    rw [List.flatMap_cons, read_append]
    rcases read_quotedChar_outside c with hc | hc
    · rw [hc]
      exact ih
    · rw [hc]
      exact .inr (read_refused _)

theorem read_quoted_outside (s : String) : outside.read (quoted s).toList = outside := by
  have hopen : outside.next '\x22' = inside := rfl
  rw [toList_quoted, read_cons, hopen, read_append, read_chars_inside]
  rfl

/-- To a reader inside a string, a quoted string closes one string and opens another. -/
theorem read_quoted_inside (s : String) :
    inside.read (quoted s).toList = inside ∨ inside.read (quoted s).toList = refused := by
  have hclose : inside.next '\x22' = outside := rfl
  rw [toList_quoted, read_cons, hclose, read_append]
  rcases read_chars_outside s.toList with hs | hs
  · rw [hs]
    exact .inl rfl
  · rw [hs]
    exact .inr rfl

theorem read_listed_outside (ss : List String) : outside.read (listed ss) = outside := by
  induction ss with
  | nil => rfl
  | cons s ss ih =>
    rw [listed_cons, read_append, read_quoted_outside]
    split
    · rfl
    · exact ih

theorem read_listed_inside (ss : List String) :
    inside.read (listed ss) = inside ∨ inside.read (listed ss) = refused := by
  induction ss with
  | nil => exact .inl rfl
  | cons s ss ih =>
    rw [listed_cons, read_append]
    rcases read_quoted_inside s with hs | hs
    · rw [hs]
      split
      · exact .inl rfl
      · exact ih
    · rw [hs]
      exact .inr (read_refused _)

theorem read_quotedList_outside (ss : List String) :
    outside.read (quotedList ss).toList = outside := by
  have hopen : outside.next '[' = outside := rfl
  rw [toList_quotedList, read_cons, hopen, read_append, read_listed_outside]
  rfl

/-- **A quoted list that starts inside a string does not end outside of one.** -/
theorem read_quotedList_inside (ss : List String) :
    inside.read (quotedList ss).toList ≠ outside := by
  have hopen : inside.next '[' = inside := rfl
  rw [toList_quotedList, read_cons, hopen, read_append]
  rcases read_listed_inside ss with hs | hs
  · rw [hs]
    exact nofun
  · rw [hs]
    exact nofun

end Inspection

end Clausal.Text
