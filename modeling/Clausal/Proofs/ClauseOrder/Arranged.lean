import Clausal.Proofs.KeyOrder.Arrangement

/-! # What it means to be in order

Entries are *in order* when those with a place come first, by the last position of their tags in the
order, and the others follow as they were given (`InOrder`).  Only one list of the same
entries is in order (`InOrder.unique`), and it is the one that a statement is arranged into
(`Grammar.arranged_inOrder`).
-/
namespace Clausal

/-- The last position of a tag in an order. -/
def LastAt (order : List String) (tag : String) (n : Nat) : Prop :=
  order[n]? = some tag ∧ ∀ m, order[m]? = some tag → m ≤ n

theorem LastAt.unique {order : List String} {tag : String} {m n : Nat} (hm : LastAt order tag m)
    (hn : LastAt order tag n) : m = n :=
  Nat.le_antisymm (hn.2 m hm.1) (hm.2 n hn.1)

theorem lastAt_of_lastIndex? {tag : String} {order : List String} {n : Nat}
    (h : lastIndex? tag order = some n) : LastAt order tag n := by
  refine ⟨get_of_lastIndex? h, ?_⟩
  -- On the order: a later position of the head's tag would have been found in the tail.
  induction order generalizing n with
  | nil => cases h
  | cons y ys ih =>
    intro m hm
    unfold lastIndex? at h
    cases hys : lastIndex? tag ys with
    | some k =>
      rw [hys] at h
      cases h
      cases m with
      | zero => exact Nat.zero_le _
      | succ m => exact Nat.succ_le_succ (ih hys m (by simpa using hm))
    | none =>
      rw [hys] at h
      dsimp only at h
      split at h
      · cases h
        cases m with
        | zero => exact Nat.le_refl _
        | succ m =>
          have hmem : tag ∈ ys := List.mem_of_getElem? (by simpa using hm)
          obtain ⟨k, hk⟩ := exists_lastIndex? hmem
          rw [hys] at hk
          cases hk
      · cases h

theorem lastIndex?_eq_none {tag : String} {order : List String} (h : tag ∉ order) :
    lastIndex? tag order = none := by
  cases hn : lastIndex? tag order with
  | none => rfl
  | some n => exact absurd (List.mem_of_getElem? (get_of_lastIndex? hn)) h

/-- The entries with a place come first, by the last positions of their tags; the others follow
as they were given. -/
def InOrder (order : List String) (entries arranged : List (String × Value)) : Prop :=
  ∃ placed, arranged = placed ++ entries.filter (fun e => e.1 ∉ order) ∧
    placed.Perm (entries.filter fun e => e.1 ∈ order) ∧
    placed.Pairwise fun e f => ∃ m n, LastAt order e.1 m ∧ LastAt order f.1 n ∧ m < n

namespace InOrder
variable {order : List String} {entries entries' arranged arranged' : List (String × Value)}

theorem filter (h : InOrder order entries arranged) (p : String × Value → Bool) :
    InOrder order (entries.filter p) (arranged.filter p) := by
  obtain ⟨placed, rfl, hperm, hsorted⟩ := h
  refine ⟨placed.filter p, ?_, ?_, hsorted.filter p⟩
  · rw [List.filter_append, List.filter_comm]
  · rw [List.filter_comm]
    exact hperm.filter p

/-- Two lists of the same entries that are in order are equal, if the entries without a place were
given in the same order. -/
theorem unique (h : InOrder order entries arranged) (h' : InOrder order entries' arranged')
    (hperm : entries.Perm entries')
    (hrest : (entries.filter fun e => e.1 ∉ order) = entries'.filter fun e => e.1 ∉ order) :
    arranged = arranged' := by
  obtain ⟨placed, rfl, hplaced, hsorted⟩ := h
  obtain ⟨placed', rfl, hplaced', hsorted'⟩ := h'
  have hsame : placed.Perm placed' := hplaced.trans ((hperm.filter _).trans hplaced'.symm)
  have heq : placed = placed' := by
    refine List.Perm.eq_of_pairwise ?_ hsorted hsorted' hsame
    rintro e f - - ⟨m, n, hm, hn, hlt⟩ ⟨n', m', hn', hm', hlt'⟩
    have hmm := hm.unique hm'
    have hnn := hn.unique hn'
    omega
  rw [heq, hrest]

end InOrder

/-- A list in which what satisfies `p` comes before what does not. -/
theorem filter_append_filter_not {α : Type} {p : α → Prop} [DecidablePred p] {l : List α}
    (h : l.Pairwise fun a b => p b → p a) :
    l.filter (fun a => p a) ++ l.filter (fun a => ¬ p a) = l := by
  induction l with
  | nil => rfl
  | cons a l ih =>
    obtain ⟨hhead, htail⟩ := List.pairwise_cons.mp h
    have hrest := ih htail
    by_cases ha : p a
    · rw [List.filter_cons_of_pos (by simpa using ha), List.filter_cons_of_neg (by simpa using ha),
        List.cons_append, hrest]
    · have hnone : l.filter (fun a => p a) = [] :=
        List.filter_eq_nil_iff.mpr fun b hb hpb => ha (hhead b hb (by simpa using hpb))
      rw [hnone, List.nil_append] at hrest
      rw [List.filter_cons_of_neg (by simpa using ha), hnone,
        List.filter_cons_of_pos (by simpa using ha), List.nil_append, hrest]

namespace Grammar
variable (c : Context) {s : Statement}

/-- Entries without a place keep the order in which they were given. -/
theorem filter_arranged (s : Statement) :
    (arranged c s).filter (fun e => e.1 ∉ c.order) = s.filter fun e => e.1 ∉ c.order := by
  have hpair : ((s.filter fun e => e.1 ∉ c.order).map
      fun e => ((c.rank? e.1, e) : Ranked)).Pairwise fun a b => Ranked.le a b = true := by
    refine List.pairwise_map.mpr (List.pairwise_of_forall_mem_list fun e he f hf => ?_)
    have he' : e.1 ∉ c.order := by simpa using (List.mem_filter.mp he).2
    have hf' : f.1 ∉ c.order := by simpa using (List.mem_filter.mp hf).2
    rw [Context.rank?, Context.rank?, lastIndex?_eq_none he', lastIndex?_eq_none hf']
    rfl
  have hsort := (List.sublist_mergeSort Ranked.le_trans Ranked.le_total hpair
    (List.filter_sublist.map _)).map Prod.snd
  have hsub : (s.filter fun e => e.1 ∉ c.order).Sublist (arranged c s) := by
    rwa [List.map_map, List.map_id''] at hsort
    intro e
    rfl
  have hkept := hsub.filter fun e => e.1 ∉ c.order
  rw [List.filter_filter] at hkept
  simp only [Bool.and_self] at hkept
  exact (hkept.eq_of_length ((arranged_perm c s).filter _).length_eq.symm).symm

/-- **A statement is arranged into the order of its context.** -/
theorem arranged_inOrder (hs : (Table.keys s).Nodup) : InOrder c.order s (arranged c s) := by
  have hplaced : (arranged c s).Pairwise fun e f => f.1 ∈ c.order → e.1 ∈ c.order := by
    refine (arranged_sorted c s).imp fun {e f} hle hf => ?_
    by_contra he
    obtain ⟨n, hn⟩ := exists_lastIndex? hf
    rw [Context.rank?, Context.rank?, lastIndex?_eq_none he, hn] at hle
    cases hle
  have hkeys : (arranged c s).Pairwise fun e f => e.1 ≠ f.1 :=
    List.pairwise_map.mp (((arranged_perm c s).map Prod.fst).nodup_iff.mpr hs)
  refine ⟨(arranged c s).filter fun e => e.1 ∈ c.order, ?_, (arranged_perm c s).filter _, ?_⟩
  · rw [← filter_arranged, filter_append_filter_not hplaced]
  · refine List.Pairwise.imp_of_mem ?_ (((arranged_pairwise c s).and hkeys).filter _)
    rintro e f he hf ⟨hle, hne⟩
    obtain ⟨m, hm⟩ := exists_lastIndex? (by simpa using (List.mem_filter.mp he).2)
    obtain ⟨n, hn⟩ := exists_lastIndex? (by simpa using (List.mem_filter.mp hf).2)
    refine ⟨m, n, lastAt_of_lastIndex? hm, lastAt_of_lastIndex? hn,
      Nat.lt_of_le_of_ne (hle m n hm hn) ?_⟩
    rintro rfl
    exact hne (Option.some.inj ((get_of_lastIndex? hm).symm.trans (get_of_lastIndex? hn)))

end Grammar
end Clausal
