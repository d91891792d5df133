import Clausal.Proofs.KeyOrder.Rearrangement

/-! # Digests

Equal values have the same digest, whatever the order of their keys (`Value.Rearranged.digest_eq`),
and so they come out alike from everything that is fed with it.  Values that are not equal have
different digests, because a digest can be read back: the first word is the kind of a value, and
lists and maps give their size before their parts (`Value.of_digest_append`).

A digest lists the entries of a map by their keys.  Entries under different keys can be
sorted in one after the other in any order (`insertByKey_comm`), and nothing else of the order in
which a map has them is left.
-/
namespace Clausal

/-! ### Sorted entries -/

section
variable {α β : Type} {e f : String × α}

theorem insertByKey_comm_of_lt (h : e.1 < f.1) (l : List (String × α)) :
    insertByKey e (insertByKey f l) = insertByKey f (insertByKey e l) := by
  have hnot : ¬ f.1 < e.1 := String.lt_asymm h
  induction l with
  | nil => simp [insertByKey, h, hnot]
  | cons g l ih =>
    by_cases he : g.1 < e.1
    · have hf : g.1 < f.1 := String.lt_trans he h
      simp [insertByKey, he, hf, ih]
    · by_cases hf : g.1 < f.1
      · simp [insertByKey, he, hf, h]
      · simp [insertByKey, he, hf, h, hnot]

theorem insertByKey_comm (h : e.1 ≠ f.1) (l : List (String × α)) :
    insertByKey e (insertByKey f l) = insertByKey f (insertByKey e l) := by
  by_cases hlt : e.1 < f.1
  · exact insertByKey_comm_of_lt hlt l
  · by_cases hgt : f.1 < e.1
    · exact (insertByKey_comm_of_lt hgt l).symm
    · exact absurd (String.le_antisymm (String.not_lt.mp hgt) (String.not_lt.mp hlt)) h

theorem insertByKey_perm (e : String × α) (l : List (String × α)) :
    (insertByKey e l).Perm (e :: l) := by
  induction l with
  | nil => exact .refl _
  | cons f l ih =>
    unfold insertByKey
    split
    · exact (ih.cons f).trans (.swap e f l)
    · exact .refl _

theorem sortByKey_perm (l : List (String × α)) : (sortByKey l).Perm l := by
  induction l with
  | nil => exact .refl _
  | cons e l ih => exact (insertByKey_perm e _).trans (ih.cons e)

/-- Entries under distinct keys are sorted into one order. -/
theorem sortByKey_eq_of_perm {s t : Table α} (h : s.Perm t) (hs : (Table.keys s).Nodup) :
    sortByKey s = sortByKey t := by
  refine h.foldr_eq' (fun e he f hf l => ?_) []
  by_cases hkey : e.1 = f.1
  · obtain rfl : e = f := List.inj_on_of_nodup_map hs he hf hkey
    rfl
  · exact insertByKey_comm (Ne.symm hkey) l

theorem map_insertByKey (g : α → β) (e : String × α) (l : List (String × α)) :
    (insertByKey e l).map (fun e => (e.1, g e.2)) =
      insertByKey (e.1, g e.2) (l.map fun e => (e.1, g e.2)) := by
  induction l with
  | nil => rfl
  | cons f l ih =>
    by_cases h : f.1 < e.1
    · simp [insertByKey, h, ih]
    · simp [insertByKey, h]

theorem map_sortByKey (g : α → β) (l : List (String × α)) :
    (sortByKey l).map (fun e => (e.1, g e.2)) = sortByKey (l.map fun e => (e.1, g e.2)) := by
  induction l with
  | nil => rfl
  | cons e l ih => exact (map_insertByKey g e _).trans (congrArg (insertByKey _) ih)

end

namespace Value

variable {v w : Value}

/-! ### What a digest lists -/

/-- The words of one entry. -/
def entryDigest (e : String × Value) : List Word := .text e.1 :: e.2.digest

theorem digestItems_eq (items : List Value) : digestItems items = items.flatMap digest := by
  induction items with
  | nil => rfl
  | cons v items ih => rw [digestItems, ih, List.flatMap_cons]

theorem digestEntries_eq (s : Statement) : digestEntries s = s.map fun e => (e.1, e.2.digest) := by
  induction s with
  | nil => rfl
  | cons e s ih => rw [digestEntries, ih, List.map_cons]

theorem digest_seq (items : List Value) :
    (Value.seq items).digest = .kind 6 :: .count items.length :: items.flatMap digest := by
  rw [digest, digestItems_eq]

theorem digest_map (s : Statement) :
    (Value.map s).digest = .kind 7 :: .count s.length :: (sortByKey s).flatMap entryDigest := by
  rw [digest, digestEntries_eq, ← map_sortByKey, List.flatMap_map]
  rfl

/-! ### Equal values have the same digest -/

theorem Reorders.digest_eq (h : Reorders v w) (hv : v.distinctKeys = true) :
    v.digest = w.digest := by
  induction h with
  | here hperm =>
    rw [digest_map, digest_map, hperm.length_eq,
      sortByKey_eq_of_perm hperm (distinctKeys_map_iff.mp hv).1]
  | item left right _ ih =>
    rw [distinctKeys_seq_iff, List.forall_mem_append, List.forall_mem_cons] at hv
    simp [digest_seq, ih hv.2.1]
  | entry left right k _ ih =>
    rw [distinctKeys_map_iff, List.forall_mem_append, List.forall_mem_cons] at hv
    simp [digest, digestEntries_eq, ih hv.2.2.1]

theorem Rearranged.digest_eq (h : Rearranged v w) (hv : v.distinctKeys = true) :
    v.digest = w.digest := by
  induction h with
  | refl => rfl
  | tail hsteps hlast ih => exact ih.trans (hlast.digest_eq (Rearranged.distinctKeys hsteps hv))

/-! ### A digest can be read back -/

/-- Parts that can be told apart, whatever follows them, can be told apart in a row. -/
theorem of_flatMap_append {α : Type} {f : α → List Word} {R : α → α → Prop} {as bs : List α}
    {x y : List Word} (hlength : as.length = bs.length)
    (hpart : ∀ a ∈ as, ∀ b ∈ bs, ∀ x y, f a ++ x = f b ++ y → R a b ∧ x = y)
    (h : as.flatMap f ++ x = bs.flatMap f ++ y) : List.Forall₂ R as bs ∧ x = y := by
  induction as generalizing bs with
  | nil =>
    obtain rfl : bs = [] := List.length_eq_zero_iff.mp hlength.symm
    exact ⟨.nil, h⟩
  | cons a as ih =>
    cases bs with
    | nil => cases hlength
    | cons b bs =>
      rw [List.flatMap_cons, List.flatMap_cons, List.append_assoc, List.append_assoc] at h
      obtain ⟨hab, hrest⟩ := hpart a List.mem_cons_self b List.mem_cons_self _ _ h
      obtain ⟨hparts, hend⟩ := ih (Nat.succ.inj hlength)
        (fun a ha b hb => hpart a (List.mem_cons_of_mem _ ha) b (List.mem_cons_of_mem _ hb)) hrest
      exact ⟨.cons hab hparts, hend⟩

theorem exists_of_forall₂ {α β : Type} {R : α → β → Prop} {as : List α} {bs : List β}
    (h : List.Forall₂ R as bs) : ∀ a ∈ as, ∃ b ∈ bs, R a b := by
  induction h with
  | nil => simp
  | cons hab _ ih =>
    rw [List.forall_mem_cons]
    refine ⟨⟨_, List.mem_cons_self, hab⟩, fun a ha => ?_⟩
    obtain ⟨b, hb, hab⟩ := ih a ha
    exact ⟨b, List.mem_cons_of_mem _ hb, hab⟩

/-- Maps whose sorted entries are partners one by one are equal. -/
theorem equal_map_of_sorted {s t : Statement} (ht : (Table.keys t).Nodup)
    (h : List.Forall₂ Partners (sortByKey s) (sortByKey t)) :
    (Value.map s).equal (.map t) = true := by
  have hs := sortByKey_perm s
  have ht' := sortByKey_perm t
  have hlength : s.length = t.length := by
    rw [← hs.length_eq, h.length_eq, ht'.length_eq]
  refine equal_map_of_partners hlength ht fun e he => ?_
  obtain ⟨f, hf, hpartners⟩ := exists_of_forall₂ h e (hs.mem_iff.mpr he)
  exact ⟨f, ht'.mem_iff.mp hf, hpartners⟩

/-- The key of an entry is read first, then its value. -/
theorem of_entryDigest_append {e f : String × Value} {x y : List Word}
    (hvalue : e.2.digest ++ x = f.2.digest ++ y → e.2.equal f.2 = true ∧ x = y)
    (h : entryDigest e ++ x = entryDigest f ++ y) : Partners e f ∧ x = y := by
  simp only [entryDigest, List.cons_append, List.cons.injEq, Word.text.injEq] at h
  obtain ⟨hequal, hrest⟩ := hvalue h.2
  exact ⟨⟨h.1.symm, hequal⟩, hrest⟩

/-- Numbers are compared by their bits. -/
theorem equal_float_iff {x y : Decimal.Binary64} :
    (Value.float x).equal (.float y) = true ↔ x.bits = y.bits := by
  obtain ⟨x⟩ := x
  obtain ⟨y⟩ := y
  simp [equal]

/-- **A digest can be read back, whatever follows it.** -/
theorem of_digest_append {x y : List Word} (hw : w.distinctKeys = true)
    (h : v.digest ++ x = w.digest ++ y) : v.equal w = true ∧ x = y := by
  induction v using nested_induction generalizing w x y with
  | atom v hatom =>
    cases v with
    | seq items => cases hatom
    | map entries => cases hatom
    | float a =>
      cases w with
      | float b => simpa [digest, equal_float_iff] using h
      | _ => simp [digest] at h
    | _ => cases w <;> simp_all [digest, equal]
  | seq as ih =>
    cases w with
    | seq bs =>
      have hbs := distinctKeys_seq_iff.mp hw
      simp only [digest_seq, List.cons_append, List.cons.injEq, Word.count.injEq, true_and] at h
      rw [Value.equal, equalItems_iff]
      exact of_flatMap_append h.1 (fun a ha b hb _ _ hab => ih a ha (hbs b hb) hab) h.2
    | _ => simp [digest] at h
  | map s ih =>
    cases w with
    | map t =>
      obtain ⟨hkeys, hvalues⟩ := distinctKeys_map_iff.mp hw
      simp only [digest_map, List.cons_append, List.cons.injEq, Word.count.injEq, true_and] at h
      obtain ⟨hlength, hwords⟩ := h
      have hs := sortByKey_perm s
      have ht := sortByKey_perm t
      have hsorted : (sortByKey s).length = (sortByKey t).length := by
        rw [hs.length_eq, ht.length_eq, hlength]
      obtain ⟨hentries, hend⟩ := of_flatMap_append hsorted
        (fun e he f hf _ _ => of_entryDigest_append
          (ih e (hs.mem_iff.mp he) (hvalues f (ht.mem_iff.mp hf)))) hwords
      exact ⟨equal_map_of_sorted hkeys hentries, hend⟩
    | _ => simp [digest] at h

theorem equal_iff_digest_eq (hv : v.distinctKeys = true) (hw : w.distinctKeys = true) :
    v.equal w = true ↔ v.digest = w.digest := by
  refine ⟨fun h => (Rearranged.of_equal h hv).digest_eq hv, fun h => ?_⟩
  exact (of_digest_append (x := []) (y := []) hw (by rw [h])).1

/-- **Equality of values is lawful as equality of keys.**  On values whose maps have no key twice it
is an equivalence.  Numbers are compared by their bits, so that a NaN equals itself and the two
zeros differ.  Values are equal if and only if one is the other with entries of maps in another
order, at any depth, and if and only if they have the same digest, word by word. -/
theorem equal_lawful :
    (∀ v : Value, v.distinctKeys = true → v.equal v = true) ∧
    (∀ v w : Value, v.distinctKeys = true → w.distinctKeys = true →
      v.equal w = true → w.equal v = true) ∧
    (∀ u v w : Value, u.equal v = true → v.equal w = true → u.equal w = true) ∧
    (∀ x y : Decimal.Binary64,
      (Value.float x).equal (.float y) = true ↔ x.bits = y.bits) ∧
    (∀ v w : Value, v.distinctKeys = true → (v.equal w = true ↔ v.Rearranged w)) ∧
    (∀ v w : Value, v.distinctKeys = true → w.distinctKeys = true →
      (v.equal w = true ↔ v.digest = w.digest)) :=
  ⟨equal_refl, fun _ _ => equal_symm, fun _ _ _ => equal_trans, fun _ _ => equal_float_iff,
    fun _ _ => equal_iff_rearranged, fun _ _ => equal_iff_digest_eq⟩

/-- A NaN and a negative zero in maps inside a map, listed in two orders: the digest is the same,
and it is another one with a positive zero. -/
theorem equal_lawful_nested :
    let nan : Value := .float ⟨0x7FF8000000000000⟩
    let row (zero : Decimal.Binary64) : Value := .map [("x", .float zero), ("y", .int 1)]
    let v : Value := .map [("a", nan), ("b", .seq [row ⟨0x8000000000000000⟩])]
    let w : Value :=
      .map [("b", .seq [.map [("y", .int 1), ("x", .float ⟨0x8000000000000000⟩)]]), ("a", nan)]
    let u : Value := .map [("a", nan), ("b", .seq [row ⟨0⟩])]
    v.Rearranged w ∧ w.equal v = true ∧ v.digest = w.digest ∧ v.digest ≠ u.digest := by
  intro nan row v w u
  have hv : v.distinctKeys = true := by decide +kernel
  have hw : w.distinctKeys = true := by decide +kernel
  have hu : u.distinctKeys = true := by decide +kernel
  have hvw : v.equal w = true := by decide +kernel
  have hvu : ¬ v.equal u = true := by decide +kernel
  obtain ⟨-, hsymm, -, -, hrearranged, hdigest⟩ := equal_lawful
  refine ⟨(hrearranged v w hv).mp hvw, hsymm v w hv hw hvw, (hdigest v w hv hw).mp hvw, ?_⟩
  exact fun h => hvu ((hdigest v u hv hu).mpr h)

end Value
end Clausal
