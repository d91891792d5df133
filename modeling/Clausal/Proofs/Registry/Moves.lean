import Clausal.Dialect

/-! # Clauses that move in an order

`insertBefore` puts a tag before another one, and `moveBefore` moves it there.  Both keep the order
of all other tags (`filter_insertBefore`, `filter_moveBefore`), and neither loses or repeats a tag
(`insertBefore_perm`, `moveBefore_perm`).  A tag that has moved stays where it is when it is moved
again (`moveBefore_moveBefore`), unless it comes more than once: each move takes its first copy.
-/
namespace Clausal

variable {tag before : String} {order : List String}

theorem insertBefore_perm (tag before : String) (order : List String) :
    (insertBefore tag before order).Perm (tag :: order) := by
  induction order with
  | nil => exact .refl _
  | cons t ts ih =>
    unfold insertBefore
    split
    · exact .refl _
    · exact (ih.cons t).trans (.swap tag t ts)

/-- The tag stands immediately before the first `before`. -/
theorem insertBefore_of_mem (tag : String) (h : before ∈ order) :
    ∃ left right, order = left ++ before :: right ∧ before ∉ left ∧
      insertBefore tag before order = left ++ tag :: before :: right := by
  induction order with
  | nil => cases h
  | cons t ts ih =>
    by_cases ht : t = before
    · subst ht
      exact ⟨[], ts, rfl, List.not_mem_nil, by simp [insertBefore]⟩
    · have hts : before ∈ ts := (List.mem_cons.mp h).resolve_left (Ne.symm ht)
      obtain ⟨left, right, horder, hleft, hinsert⟩ := ih hts
      refine ⟨t :: left, right, by rw [horder]; rfl, ?_, ?_⟩
      · intro hmem
        rcases List.mem_cons.mp hmem with heq | hmem
        · exact ht heq.symm
        · exact hleft hmem
      · rw [insertBefore, if_neg ht, hinsert]
        rfl

theorem filter_insertBefore (tag before : String) (order : List String) :
    (insertBefore tag before order).filter (· != tag) = order.filter (· != tag) := by
  induction order with
  | nil => simp [insertBefore]
  | cons t ts ih =>
    unfold insertBefore
    split
    · simp
    · rw [List.filter_cons, List.filter_cons, ih]

theorem moveBefore_eq_self (h : tag = before ∨ tag ∉ order ∨ before ∉ order) :
    moveBefore order tag before = order := by
  unfold moveBefore
  split
  · rfl
  · rename_i hne
    refine if_neg ?_
    rintro ⟨hbefore, htag⟩
    rcases h with heq | hmissing | hmissing
    · exact hne heq
    · exact hmissing htag
    · exact hmissing hbefore

theorem moveBefore_eq_insertBefore (hne : tag ≠ before) (htag : tag ∈ order)
    (hbefore : before ∈ order) :
    moveBefore order tag before = insertBefore tag before (order.erase tag) := by
  rw [moveBefore, if_neg hne, if_pos ⟨hbefore, htag⟩]

theorem moveBefore_perm (order : List String) (tag before : String) :
    (moveBefore order tag before).Perm order := by
  unfold moveBefore
  split
  · exact .refl _
  · split
    · rename_i h
      exact (insertBefore_perm tag before _).trans (List.perm_cons_erase h.2).symm
    · exact .refl _

/-- If both are there, the first copy of the tag is taken out and put immediately before the first
`before`. -/
theorem moveBefore_of_mem (hne : tag ≠ before) (htag : tag ∈ order) (hbefore : before ∈ order) :
    ∃ left right, order.erase tag = left ++ before :: right ∧ before ∉ left ∧
      moveBefore order tag before = left ++ tag :: before :: right := by
  rw [moveBefore_eq_insertBefore hne htag hbefore]
  exact insertBefore_of_mem tag ((List.mem_erase_of_ne (Ne.symm hne)).mpr hbefore)

/-- If both are there, the tag that moves stands immediately before the other one. -/
theorem moveBefore_adjacent (hne : tag ≠ before) (htag : tag ∈ order) (hbefore : before ∈ order) :
    ∃ left right, moveBefore order tag before = left ++ tag :: before :: right := by
  obtain ⟨left, right, -, -, hmoved⟩ := moveBefore_of_mem hne htag hbefore
  exact ⟨left, right, hmoved⟩

theorem filter_erase_self (order : List String) (tag : String) :
    (order.erase tag).filter (· != tag) = order.filter (· != tag) := by
  induction order with
  | nil => rfl
  | cons t ts ih =>
    by_cases ht : t = tag
    · simp [ht]
    · rw [List.erase_cons_tail (by simpa using ht), List.filter_cons, List.filter_cons, ih]

/-- All tags but the one that moves keep their order. -/
theorem filter_moveBefore (order : List String) (tag before : String) :
    (moveBefore order tag before).filter (· != tag) = order.filter (· != tag) := by
  unfold moveBefore
  split
  · rfl
  · split
    · rw [filter_insertBefore, filter_erase_self]
    · rfl

theorem erase_insertBefore (h : tag ∉ order) :
    (insertBefore tag before order).erase tag = order := by
  induction order with
  | nil => simp [insertBefore]
  | cons t ts ih =>
    rw [List.mem_cons, not_or] at h
    unfold insertBefore
    split
    · rw [List.erase_cons_head]
    · rw [List.erase_cons_tail (by simpa using Ne.symm h.1), ih h.2]

/-- What has moved stays where it is, if it has no other copy that could move instead. -/
theorem moveBefore_moveBefore (h : order.Nodup) (tag before : String) :
    moveBefore (moveBefore order tag before) tag before = moveBefore order tag before := by
  have hmem : ∀ t, t ∈ moveBefore order tag before ↔ t ∈ order :=
    fun t => (moveBefore_perm order tag before).mem_iff
  by_cases hstays : tag = before ∨ tag ∉ order ∨ before ∉ order
  · rw [moveBefore_eq_self hstays, moveBefore_eq_self hstays]
  · simp only [not_or, Decidable.not_not] at hstays
    obtain ⟨hne, htag, hbefore⟩ := hstays
    rw [moveBefore_eq_insertBefore hne ((hmem tag).mpr htag) ((hmem before).mpr hbefore),
      moveBefore_eq_insertBefore hne htag hbefore, erase_insertBefore h.not_mem_erase]

/-- **A clause moves stably.**  No tag is lost or repeated.  Nothing moves if the two tags are the
same or one is missing; otherwise the first copy of the clause leaves its place and stands
immediately before the first `before`.  All other tags keep their order.  If no tag comes twice,
moving the clause again changes nothing. -/
theorem moveBefore_stable (order : List String) (clause before : String) :
    (moveBefore order clause before).Perm order ∧
      (clause = before ∨ clause ∉ order ∨ before ∉ order →
        moveBefore order clause before = order) ∧
      (clause ≠ before → clause ∈ order → before ∈ order →
        ∃ left right, order.erase clause = left ++ before :: right ∧ before ∉ left ∧
          moveBefore order clause before = left ++ clause :: before :: right) ∧
      (moveBefore order clause before).filter (· != clause) = order.filter (· != clause) ∧
      (order.Nodup → moveBefore (moveBefore order clause before) clause before =
        moveBefore order clause before) := by
  exact ⟨moveBefore_perm order clause before, moveBefore_eq_self, moveBefore_of_mem,
    filter_moveBefore order clause before, fun h => moveBefore_moveBefore h clause before⟩

/-- The assignments move behind the joins, and only once. -/
theorem moveBefore_stable_set :
    let order := ["update", "set", "from", "join", "where"]
    let moved := ["update", "from", "join", "set", "where"]
    moveBefore order "set" "where" = moved ∧
      (∃ left right, order.erase "set" = left ++ "where" :: right ∧ "where" ∉ left ∧
        moved = left ++ "set" :: "where" :: right) ∧
      moveBefore order "set" "limit" = order ∧
      moveBefore moved "set" "where" = moved := by
  intro order moved
  have hmoved : moveBefore order "set" "where" = moved := by decide
  obtain ⟨-, -, hplace, -, hagain⟩ := moveBefore_stable order "set" "where"
  obtain ⟨-, hstays, -⟩ := moveBefore_stable order "set" "limit"
  rw [hmoved] at hplace hagain
  exact ⟨hmoved, hplace (by decide) (by decide) (by decide), hstays (.inr (.inr (by decide))),
    hagain (by decide)⟩

-- A tag that comes twice moves again: each move takes the copy that then stands first.
example : moveBefore (moveBefore ["c", "x", "c", "y", "b"] "c" "b") "c" "b" ≠
    moveBefore ["c", "x", "c", "y", "b"] "c" "b" := by decide

end Clausal
