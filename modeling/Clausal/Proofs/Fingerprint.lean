import Clausal.Engine
import Clausal.Proofs.Quoted

/-! # Fingerprints

Options with one fingerprint write names and holes alike: the name of the dialect, the flags and the
set of default columns can all be read off the fingerprint (`Options.alike_of_fingerprint`), and it
depends on nothing else (`Options.fingerprint_eq_iff`).

The name of a dialect is any text, so it might look like a later part of a
fingerprint.  It cannot be mistaken for one all the same.  If a longer name held the start
of the flags, a whole fingerprint would go on inside one of the quoted default
columns, and its own list of columns would be read from inside a string
(`name_inj`).
-/
namespace Clausal
namespace Options

/-- What a fingerprint has between the name of the dialect and the default columns. -/
def flagsText (quoted snake numbered : Bool) : List Char :=
  ";quoted=".toList ++ ((flag quoted).toList ++ (";snake=".toList ++ ((flag snake).toList ++
    (";numbered=".toList ++ ((flag numbered).toList ++ ";defaults=".toList)))))

/-- What a fingerprint has after the name of the dialect. -/
def tailText (o : Options) : List Char :=
  flagsText o.isQuoted o.quotedSnake o.numbered ++ (Text.quotedList o.sortedDefaults).toList

theorem toList_fingerprint (o : Options) (d : Dialect) :
    (o.fingerprint d).toList = "dialect=".toList ++ (d.name.toList ++ o.tailText) := by
  -- Stated for variables: the constant texts are not to be opened.
  have key : ∀ a b c d e f g h i j : String,
      (a ++ b ++ c ++ d ++ e ++ f ++ g ++ h ++ i ++ j).toList =
        a.toList ++ (b.toList ++ ((c.toList ++ (d.toList ++ (e.toList ++ (f.toList ++
          (g.toList ++ (h.toList ++ i.toList)))))) ++ j.toList)) := by
    simp only [String.toList_append, List.append_assoc, implies_true]
  exact key ..

/-! ### Flags -/

theorem flag_append_inj {b b' : Bool} {x y : List Char}
    (h : (flag b).toList ++ x = (flag b').toList ++ y) : b = b' ∧ x = y := by
  cases b <;> cases b'
  · exact ⟨rfl, List.append_cancel_left h⟩
  · exact absurd (List.cons.inj h).1 (by decide)
  · exact absurd (List.cons.inj h).1 (by decide)
  · exact ⟨rfl, List.append_cancel_left h⟩

/-- The words between the flags make no difference, as long as they are the same. -/
theorem flags_append_inj (a b c e : List Char) {q q' s s' n n' : Bool} {x y : List Char}
    (h :
      (a ++ ((flag q).toList ++ (b ++ ((flag s).toList ++ (c ++ ((flag n).toList ++ e)))))) ++ x =
      (a ++ ((flag q').toList ++ (b ++ ((flag s').toList ++
        (c ++ ((flag n').toList ++ e)))))) ++ y) :
    q = q' ∧ s = s' ∧ n = n' ∧ x = y := by
  simp only [List.append_assoc] at h
  obtain ⟨hq, h⟩ := flag_append_inj (List.append_cancel_left h)
  obtain ⟨hs, h⟩ := flag_append_inj (List.append_cancel_left h)
  obtain ⟨hn, h⟩ := flag_append_inj (List.append_cancel_left h)
  exact ⟨hq, hs, hn, List.append_cancel_left h⟩

theorem count_flagsText (q s n : Bool) : (flagsText q s n).count 'q' = 1 := by
  cases q <;> cases s <;> cases n <;> rfl

theorem exists_flagsText (q s n : Bool) : ∃ rest, flagsText q s n = ';' :: 'q' :: rest := ⟨_, rfl⟩

/-- Only at the start of the flags a `q` follows a semicolon. -/
theorem flagsText_suffix {q s n : Bool} {w v : List Char}
    (h : flagsText q s n = w ++ ';' :: 'q' :: v) : w = [] := by
  obtain ⟨rest, hstart⟩ := exists_flagsText q s n
  match w, h with
  | [], _ => rfl
  | [c], h =>
    rw [hstart] at h
    exact absurd (List.cons.inj (List.cons.inj h).2).1 (by decide)
  | c :: c' :: w, h =>
    have hq : 'q' = c' := by
      rw [hstart] at h
      exact (List.cons.inj (List.cons.inj h).2).1
    have hcount := count_flagsText q s n
    rw [h, ← hq] at hcount
    simp only [List.cons_append, List.count_cons, List.count_append, beq_self_eq_true,
      if_true] at hcount
    omega

open Text in
/-- Wherever a reader of a quoted list meets the flags, it is inside a string after them. -/
theorem read_flagsText (r : Inspection) (q s n : Bool) :
    r.read (flagsText q s n) = .inside ∨ r.read (flagsText q s n) = .refused := by
  have hinside : Inspection.inside.read (flagsText q s n) = .inside := by
    cases q <;> cases s <;> cases n <;> rfl
  obtain ⟨rest, hstart⟩ := exists_flagsText q s n
  cases r with
  | outside =>
    rw [hstart]
    exact .inr (Inspection.read_refused _)
  | inside => exact .inl hinside
  | escaped =>
    rw [hstart] at hinside ⊢
    exact .inl hinside
  | refused => exact .inr (Inspection.read_refused _)

/-! ### The name -/

open Text in
/-- The rest of a fingerprint does not hold the rest of a fingerprint as a proper end. -/
theorem tailText_suffix {o o' : Options} {w : List Char}
    (h : o.tailText = w ++ o'.tailText) : w = [] := by
  rcases List.append_eq_append_iff.mp h with ⟨v, hw, hlist⟩ | ⟨v, hflags, htail⟩
  · -- The end lies within the quoted columns, so their reader is inside a string at the end.
    have hread := Inspection.read_quotedList_outside o.sortedDefaults
    rw [hlist, Inspection.read_append, tailText, Inspection.read_append] at hread
    rcases read_flagsText (Inspection.outside.read v) o'.isQuoted o'.quotedSnake o'.numbered with
      hafter | hafter
    · rw [hafter] at hread
      exact absurd hread (Inspection.read_quotedList_inside _)
    · rw [hafter, Inspection.read_refused] at hread
      cases hread
  · -- The end starts within the flags.
    obtain ⟨rest, hstart⟩ := exists_flagsText o'.isQuoted o'.quotedSnake o'.numbered
    rw [tailText, hstart, toList_quotedList o.sortedDefaults] at htail
    match v, htail with
    | [], htail => exact absurd (List.cons.inj htail).1 (by decide)
    | [a], htail => exact absurd (List.cons.inj (List.cons.inj htail).2).1 (by decide)
    | a :: b :: v, htail =>
      obtain ⟨ha, htail⟩ := List.cons.inj htail
      obtain ⟨hb, -⟩ := List.cons.inj htail
      rw [← ha, ← hb] at hflags
      exact flagsText_suffix hflags

theorem name_inj {o o' : Options} {a b : List Char} (h : a ++ o.tailText = b ++ o'.tailText) :
    a = b := by
  rcases List.append_eq_append_iff.mp h with ⟨w, hb, htail⟩ | ⟨w, ha, htail⟩
  · rw [hb, tailText_suffix htail, List.append_nil]
  · rw [ha, tailText_suffix htail, List.append_nil]

/-! ### All of it -/

theorem mem_sortedDefaults (o : Options) (column : String) :
    column ∈ o.sortedDefaults ↔ column ∈ o.defaultColumns := by
  rw [sortedDefaults, List.mem_eraseDups, List.mem_mergeSort]

/-- The options write names, holes and missing columns alike. -/
structure Alike (o o' : Options) : Prop where
  isQuoted : o.isQuoted = o'.isQuoted
  quotedSnake : o.quotedSnake = o'.quotedSnake
  numbered : o.numbered = o'.numbered
  defaultColumns : ∀ column, column ∈ o.defaultColumns ↔ column ∈ o'.defaultColumns

/-- **What the SQL text depends on can be read off the fingerprint.** -/
theorem alike_of_fingerprint {o o' : Options} {d d' : Dialect}
    (h : o.fingerprint d = o'.fingerprint d') : d.name = d'.name ∧ o.Alike o' := by
  have hlist := congrArg String.toList h
  rw [toList_fingerprint, toList_fingerprint] at hlist
  have hrest := List.append_cancel_left hlist
  have hname := name_inj hrest
  rw [hname] at hrest
  obtain ⟨hquoted, hsnake, hnumbered, hcolumns⟩ :=
    flags_append_inj _ _ _ _ (List.append_cancel_left hrest)
  have hsorted := Text.quotedList_injective (String.toList_inj.mp hcolumns)
  refine ⟨String.toList_inj.mp hname, hquoted, hsnake, hnumbered, fun column => ?_⟩
  rw [← mem_sortedDefaults, ← mem_sortedDefaults, hsorted]

/-! ### Nothing else -/

/-- An ascending list ascends strictly when repetitions are dropped. -/
theorem pairwise_eraseDups {columns : List String} (h : columns.Pairwise (· ≤ ·)) :
    columns.eraseDups.Pairwise (· < ·) := by
  match columns with
  | [] =>
    rw [List.eraseDups_nil]
    exact .nil
  | first :: rest =>
    obtain ⟨hfirst, hrest⟩ := List.pairwise_cons.mp h
    have hkept : (rest.filter fun b => !b == first).length ≤ rest.length :=
      List.length_filter_le _ _
    rw [List.eraseDups_cons]
    refine .cons (fun column hcolumn => ?_) (pairwise_eraseDups (hrest.filter _))
    rw [List.mem_eraseDups, List.mem_filter] at hcolumn
    have hne : column ≠ first := by simpa using hcolumn.2
    refine Decidable.byContradiction fun hlt => hne ?_
    exact String.le_antisymm (String.not_lt.mp hlt) (hfirst column hcolumn.1)
termination_by columns.length

theorem pairwise_sortedDefaults (o : Options) : o.sortedDefaults.Pairwise (· < ·) := by
  refine pairwise_eraseDups ?_
  let le (a b : String) : Bool := decide (a ≤ b)
  have htrans : ∀ a b c, le a b = true → le b c = true → le a c = true := by
    simp only [le, decide_eq_true_eq]
    exact fun a b c => String.le_trans
  have htotal : ∀ a b, (le a b || le b a) = true := by
    simp only [le, Bool.or_eq_true, decide_eq_true_eq]
    exact fun a b => String.le_total a b
  have hsorted := List.pairwise_mergeSort htrans htotal o.defaultColumns
  simpa only [le, decide_eq_true_eq] using hsorted

/-- The sorted columns depend on the set of columns only: there is one way to put them in order. -/
theorem sortedDefaults_congr {o o' : Options}
    (h : ∀ column, column ∈ o.defaultColumns ↔ column ∈ o'.defaultColumns) :
    o.sortedDefaults = o'.sortedDefaults := by
  have hne : ∀ a b : String, a < b → a ≠ b := by
    rintro a _ hlt rfl
    exact String.lt_irrefl a hlt
  have hperm : o.sortedDefaults.Perm o'.sortedDefaults := by
    refine (List.perm_ext_iff_of_nodup ?_ ?_).mpr fun column => ?_
    · exact o.pairwise_sortedDefaults.imp (hne _ _)
    · exact o'.pairwise_sortedDefaults.imp (hne _ _)
    · rw [mem_sortedDefaults, mem_sortedDefaults, h]
  refine hperm.eq_of_pairwise (fun a b _ _ hab hba => ?_) o.pairwise_sortedDefaults
    o'.pairwise_sortedDefaults
  exact absurd (String.lt_trans hab hba) (String.lt_irrefl a)

/-- **Two fingerprints are one exactly if** the dialects have one name and the options write names,
holes and missing columns alike. -/
theorem fingerprint_eq_iff (o o' : Options) (d d' : Dialect) :
    o.fingerprint d = o'.fingerprint d' ↔ d.name = d'.name ∧ o.Alike o' := by
  refine ⟨alike_of_fingerprint, fun ⟨hname, halike⟩ => String.toList_inj.mp ?_⟩
  have htail : o.tailText = o'.tailText := by
    unfold tailText
    rw [halike.isQuoted, halike.quotedSnake, halike.numbered,
      sortedDefaults_congr halike.defaultColumns]
  rw [toList_fingerprint, toList_fingerprint, hname, htail]

end Options
end Clausal
