import Clausal.Proofs.KeyOrder.Expressions
import Clausal.Proofs.Registry.Moves

/-! # The arrangement of clauses

Clauses are written in the order of the dialect; those outside that order keep the order in
which they were given.  When every clause that has a rule has a place in the order, as under
each built-in dialect (`Grammar.standard_ordered`), the tags that are written do not depend
on the order in which they were given (`Grammar.writtenTags_eq`).  Alike statements then have
alike layouts (`Grammar.Uniform.like_statementLayout`).
-/
namespace Clausal

open Value (Alike)

/-! ### Ranks -/

theorem get_of_lastIndex? {x : String} {l : List String} {n : Nat}
    (h : lastIndex? x l = some n) : l[n]? = some x := by
  induction l generalizing n with
  | nil => cases h
  | cons y ys ih =>
    unfold lastIndex? at h
    cases hys : lastIndex? x ys with
    | some m =>
      rw [hys] at h
      cases h
      exact ih hys
    | none =>
      rw [hys] at h
      dsimp only at h
      split at h
      · rename_i hy
        cases h
        rw [hy]
        rfl
      · cases h

theorem exists_lastIndex? {x : String} {l : List String} (h : x ∈ l) :
    ∃ n, lastIndex? x l = some n := by
  induction l with
  | nil => cases h
  | cons y ys ih =>
    unfold lastIndex?
    cases hys : lastIndex? x ys with
    | some m => exact ⟨m + 1, rfl⟩
    | none =>
      rcases List.mem_cons.mp h with hxy | hmem
      · exact ⟨0, if_pos hxy.symm⟩
      · obtain ⟨n, hn⟩ := ih hmem
        rw [hys] at hn
        cases hn

/-- Both tags have a place in the order, the first not after the second. -/
def Context.Before (c : Context) (a b : String) : Prop :=
  ∃ m n, c.rank? a = some m ∧ c.rank? b = some n ∧ m ≤ n

/-- Different tags have different places. -/
theorem Context.Before.antisymm {c : Context} {a b : String} (hab : c.Before a b)
    (hba : c.Before b a) : a = b := by
  obtain ⟨m, n, ha, hb, hmn⟩ := hab
  obtain ⟨n', m', hb', ha', hnm⟩ := hba
  rw [ha] at ha'
  rw [hb] at hb'
  cases ha'
  cases hb'
  have hplace : m = n := by omega
  subst hplace
  have hget := (get_of_lastIndex? ha).symm.trans (get_of_lastIndex? hb)
  exact Option.some.inj hget

namespace Grammar

theorem Ranked.le_trans (a b c : Ranked) (hab : a.le b = true) (hbc : b.le c = true) :
    a.le c = true := by
  obtain ⟨_ | l, _⟩ := a <;> obtain ⟨_ | m, _⟩ := b <;> obtain ⟨_ | n, _⟩ := c <;>
    simp_all [Ranked.le]
  omega

theorem Ranked.le_total (a b : Ranked) : (a.le b || b.le a) = true := by
  obtain ⟨_ | m, _⟩ := a <;> obtain ⟨_ | n, _⟩ := b <;> simp [Ranked.le]
  omega

/-! ### The tags that are written -/

variable {g : Grammar} {c : Context} {s t : Statement}

theorem arranged_perm (c : Context) (s : Statement) : (arranged c s).Perm s := by
  have hsort := (List.mergeSort_perm (s.map fun e => ((c.rank? e.1, e) : Ranked)) Ranked.le).map
    Prod.snd
  rwa [List.map_map, List.map_id''] at hsort
  intro e
  rfl

theorem arranged_sorted (c : Context) (s : Statement) :
    (arranged c s).Pairwise fun e f => Ranked.le (c.rank? e.1, e) (c.rank? f.1, f) = true := by
  have hsort := List.pairwise_mergeSort Ranked.le_trans Ranked.le_total
    (s.map fun e => ((c.rank? e.1, e) : Ranked))
  have hranked : ∀ r ∈ (s.map fun e => ((c.rank? e.1, e) : Ranked)).mergeSort Ranked.le,
      r = (c.rank? r.2.1, r.2) := by
    intro r hr
    obtain ⟨e, -, rfl⟩ := List.mem_map.mp ((List.mem_mergeSort).mp hr)
    rfl
  refine List.pairwise_map.mpr (List.Pairwise.imp_of_mem ?_ hsort)
  intro a b ha hb hle
  rwa [← hranked a ha, ← hranked b hb]

/-- Entries that have a place come in the order of their places. -/
theorem arranged_pairwise (c : Context) (s : Statement) :
    (arranged c s).Pairwise fun e f =>
      ∀ m n, c.rank? e.1 = some m → c.rank? f.1 = some n → m ≤ n := by
  refine (arranged_sorted c s).imp ?_
  intro e f hle m n hm hn
  simpa [Ranked.le, hm, hn] using hle

/-- The tags of the clauses that are written, in order. -/
def writtenTags (g : Grammar) (c : Context) (s : Statement) : List String :=
  (Table.keys (arranged c s)).filter fun tag => (g.clauses.rule? tag).isSome

/-- Every clause that has a rule has a place in the order. -/
def Ordered (g : Grammar) (c : Context) : Prop :=
  ∀ tag, (g.clauses.rule? tag).isSome = true → tag ∈ c.order

theorem writtenTags_pairwise (hc : g.Ordered c) : (g.writtenTags c s).Pairwise c.Before := by
  have hplaces : ∀ tag ∈ g.writtenTags c s, ∃ n, c.rank? tag = some n := by
    intro tag htag
    exact exists_lastIndex? (hc tag (by simpa using (List.mem_filter.mp htag).2))
  have hkeys : (Table.keys (arranged c s)).Pairwise fun a b =>
      ∀ m n, c.rank? a = some m → c.rank? b = some n → m ≤ n :=
    List.pairwise_map.mpr (arranged_pairwise c s)
  refine List.Pairwise.imp_of_mem ?_ (hkeys.sublist List.filter_sublist)
  intro a b ha hb hle
  obtain ⟨m, hm⟩ := hplaces a ha
  obtain ⟨n, hn⟩ := hplaces b hb
  exact ⟨m, n, hm, hn, hle m n hm hn⟩

/-- **The tags that are written do not depend on the order in which they were given.** -/
theorem writtenTags_eq (hc : g.Ordered c) (h : (Table.keys s).Perm (Table.keys t)) :
    g.writtenTags c s = g.writtenTags c t := by
  have hkeys : (Table.keys (arranged c s)).Perm (Table.keys (arranged c t)) :=
    ((arranged_perm c s).map Prod.fst).trans (h.trans ((arranged_perm c t).map Prod.fst).symm)
  exact List.Perm.eq_of_pairwise (fun _ _ _ _ => Context.Before.antisymm)
    (writtenTags_pairwise hc) (writtenTags_pairwise hc) (hkeys.filter _)

/-- The layout of the clause under a tag, if it is written. -/
def layoutAt? (g : Grammar) (s : Statement) (tag : String) : Option Layout :=
  (Table.get? tag s).bind (g.clauseLayout? s tag)

theorem statementLayout_writtenTags (hs : (Table.keys s).Nodup) :
    g.statementLayout c s = .joinKept " " ((g.writtenTags c s).filterMap (g.layoutAt? s)) := by
  have hentry : ∀ e ∈ arranged c s, g.clauseLayout? s e.1 e.2 =
      if (g.clauses.rule? e.1).isSome then g.layoutAt? s e.1 else none := by
    intro e he
    have hget : Table.get? e.1 s = some e.2 :=
      Table.get?_of_mem hs ((arranged_perm c s).subset he)
    unfold layoutAt? clauseLayout?
    rw [hget]
    cases g.clauses.rule? e.1 <;> rfl
  unfold statementLayout writtenTags Table.keys
  rw [List.filterMap_filter, List.filterMap_map]
  exact congrArg _ (List.filterMap_congr hentry)

/-- The clause under a tag is written in both statements or in none. -/
theorem Uniform.layoutAt?_cases (hg : g.Uniform) (h : Alike (.map s) (.map t)) (tag : String) :
    g.layoutAt? s tag = none ∧ g.layoutAt? t tag = none ∨
      ∃ l l', g.layoutAt? s tag = some l ∧ g.layoutAt? t tag = some l' ∧ l.Like l' := by
  unfold layoutAt? clauseLayout?
  rcases h.get? tag with ⟨hs, ht⟩ | ⟨a, b, hs, ht, hab, hcolumns⟩
  · rw [hs, ht]
    exact .inl ⟨rfl, rfl⟩
  · rw [hs, ht]
    cases hrule : g.clauses.rule? tag with
    | none => exact .inl ⟨rfl, rfl⟩
    | some rule => exact .inr ⟨_, _, rfl, rfl, rfl, hg.clause tag rule hrule h hab hcolumns⟩

/-- **Alike statements have alike layouts**, when every clause has a place in the order. -/
theorem Uniform.like_statementLayout (hg : g.Uniform) (hc : g.Ordered c)
    (h : Alike (.map s) (.map t)) : (g.statementLayout c s).Like (g.statementLayout c t) := by
  have hnodup : (Table.keys s).Nodup ∧ (Table.keys t).Nodup := by
    cases h with
    | map hs ht => exact ⟨hs, ht⟩
  have hperm := Table.perm_keys hnodup.1 hnodup.2 h.has
  rw [statementLayout_writtenTags hnodup.1, statementLayout_writtenTags hnodup.2,
    writtenTags_eq hc hperm]
  refine Layout.like_congruence.joinKept " " ?_
  generalize g.writtenTags c t = tags
  induction tags with
  | nil => exact .nil
  | cons tag tags ih =>
    rcases hg.layoutAt?_cases h tag with ⟨hs, ht⟩ | ⟨l, l', hs, ht, hl⟩
    · rwa [List.filterMap_cons_none hs, List.filterMap_cons_none ht]
    · rw [List.filterMap_cons_some hs, List.filterMap_cons_some ht]
      exact .cons hl ih

/-! ### The built-in dialects -/

theorem mem_arrange {d : Dialect} (hd : d ∈ Dialect.builtin) {tag : String} {order : List String}
    (h : tag ∈ order) : tag ∈ d.arrange order := by
  simp only [Dialect.builtin, List.mem_cons, List.not_mem_nil, or_false] at hd
  rcases hd with rfl | rfl | rfl | rfl
  · exact h
  · show tag ∈ moveBefore order "set" "where"
    exact (moveBefore_perm order _ _).mem_iff.mpr h
  · exact h
  · exact h

/-- Under a built-in dialect every built-in clause has a place in the order. -/
theorem standard_ordered {d : Dialect} (hd : d ∈ Dialect.builtin)
    (hc : c.order = standard.clauseOrder d) : standard.Ordered c := by
  intro tag htag
  rw [hc]
  exact mem_arrange hd ((Table.mem_keys_iff_has _ tag).mpr htag)

end Grammar
end Clausal
