import Clausal.Proofs.KeyOrder.Equivalence
import Mathlib.Data.List.Nodup
import Mathlib.Logic.Relation

/-! # Values with their maps rearranged

Equality compares maps by look-up.  It is the same as rearranging: two values are equal if and only
if the first becomes the second when the entries of maps inside it, at any depth and as often as
needed, are put in another order (`Value.equal_iff_rearranged`).

One way, a single rearrangement keeps keys distinct and leaves an equal value.  The other way goes
from the inside out: the values under the keys are rearranged first, and then the entries.
-/
namespace Clausal
namespace Value

/-- The entries of one map, somewhere inside the value, are put in another order. -/
inductive Reorders : Value → Value → Prop where
  | here {s t : Statement} (h : s.Perm t) : Reorders (.map s) (.map t)
  | item (left right : List Value) {v w : Value} (h : Reorders v w) :
      Reorders (.seq (left ++ v :: right)) (.seq (left ++ w :: right))
  | entry (left right : Statement) (k : String) {v w : Value} (h : Reorders v w) :
      Reorders (.map (left ++ (k, v) :: right)) (.map (left ++ (k, w) :: right))

/-- The second value is the first with entries of maps in another order, at any depth. -/
def Rearranged : Value → Value → Prop := Relation.ReflTransGen Reorders

variable {v w : Value} {s t : Statement}

/-! ### Distinct keys -/

theorem distinctKeys_seq_iff {items : List Value} :
    (Value.seq items).distinctKeys = true ↔ ∀ v ∈ items, v.distinctKeys = true := by
  refine ⟨distinct_of_mem_items, fun h => ?_⟩
  rw [distinctKeys]
  induction items with
  | nil => rfl
  | cons v items ih =>
    rw [List.forall_mem_cons] at h
    rw [distinctItems, h.1, ih h.2, Bool.and_self]

theorem distinctKeys_map_iff :
    (Value.map s).distinctKeys = true ↔
      (Table.keys s).Nodup ∧ ∀ e ∈ s, e.2.distinctKeys = true := by
  refine ⟨fun h => ⟨nodup_keys h, distinct_of_mem_entries h⟩, ?_⟩
  rintro ⟨hkeys, hentries⟩
  rw [distinctKeys]
  induction s with
  | nil => rfl
  | cons e s ih =>
    obtain ⟨hnew, hkeys⟩ := List.nodup_cons.mp hkeys
    rw [List.forall_mem_cons] at hentries
    have hhas : Table.has e.1 s = false := by
      rwa [← Bool.not_eq_true, ← Table.mem_keys_iff_has]
    rw [distinctEntries, hhas, hentries.1, ih hkeys hentries.2]
    rfl

theorem Reorders.distinctKeys (h : Reorders v w) (hv : v.distinctKeys = true) :
    w.distinctKeys = true := by
  induction h with
  | here hperm =>
    obtain ⟨hkeys, hentries⟩ := distinctKeys_map_iff.mp hv
    refine distinctKeys_map_iff.mpr ⟨?_, fun e he => hentries e (hperm.mem_iff.mpr he)⟩
    exact (hperm.map Prod.fst).nodup_iff.mp hkeys
  | item left right _ ih =>
    rw [distinctKeys_seq_iff, List.forall_mem_append, List.forall_mem_cons] at hv ⊢
    exact ⟨hv.1, ih hv.2.1, hv.2.2⟩
  | entry left right k _ ih =>
    rw [distinctKeys_map_iff, List.forall_mem_append, List.forall_mem_cons] at hv ⊢
    obtain ⟨hkeys, hleft, hentry, hright⟩ := hv
    refine ⟨?_, hleft, ih hentry, hright⟩
    simpa [Table.keys] using hkeys

/-! ### A rearranged value is equal -/

/-- The entries have one key and equal values. -/
def Partners (e f : String × Value) : Prop := f.1 = e.1 ∧ e.2.equal f.2 = true

theorem partners_self {e : String × Value} (h : e.2.distinctKeys = true) : Partners e e :=
  ⟨rfl, equal_refl e.2 h⟩

/-- Maps of one size are equal if each entry of the first has a partner in the second, where no
key comes twice. -/
theorem equal_map_of_partners (hlength : s.length = t.length) (ht : (Table.keys t).Nodup)
    (h : ∀ e ∈ s, ∃ f ∈ t, Partners e f) : (Value.map s).equal (.map t) = true := by
  refine equal_map_iff.mpr ⟨hlength, fun e he => ?_⟩
  obtain ⟨f, hf, hkey, hequal⟩ := h e he
  exact ⟨f.2, hkey ▸ Table.get?_of_mem ht hf, hequal⟩

theorem Reorders.equal (h : Reorders v w) (hv : v.distinctKeys = true) : v.equal w = true := by
  have hw := h.distinctKeys hv
  induction h with
  | here hperm =>
    refine equal_map_of_partners hperm.length_eq (distinctKeys_map_iff.mp hw).1 fun e he => ?_
    exact ⟨e, hperm.mem_iff.mp he, partners_self (distinct_of_mem_entries hv e he)⟩
  | item left right hitem ih =>
    rw [distinctKeys_seq_iff, List.forall_mem_append, List.forall_mem_cons] at hv
    obtain ⟨hleft, hchanged, hright⟩ := hv
    have hrefl : ∀ items : List Value, (∀ v ∈ items, v.distinctKeys = true) →
        List.Forall₂ (fun a b => a.equal b = true) items items :=
      fun items hitems => List.forall₂_same.mpr fun v hmem => equal_refl v (hitems v hmem)
    rw [Value.equal, equalItems_iff]
    exact List.rel_append (hrefl left hleft)
      (.cons (ih hchanged (hitem.distinctKeys hchanged)) (hrefl right hright))
  | @entry left right k v w hentry ih =>
    refine equal_map_of_partners (by simp) (distinctKeys_map_iff.mp hw).1 fun e he => ?_
    have hdistinct := distinct_of_mem_entries hv e he
    rcases List.mem_append.mp he with hmem | hmem
    · exact ⟨e, List.mem_append_left _ hmem, partners_self hdistinct⟩
    · rcases List.mem_cons.mp hmem with rfl | hmem
      · exact ⟨(k, w), by simp, rfl, ih hdistinct (hentry.distinctKeys hdistinct)⟩
      · exact ⟨e, by simp [hmem], partners_self hdistinct⟩

theorem Rearranged.distinctKeys (h : Rearranged v w) (hv : v.distinctKeys = true) :
    w.distinctKeys = true := by
  induction h with
  | refl => exact hv
  | tail _ hlast ih => exact hlast.distinctKeys ih

theorem Rearranged.equal (h : Rearranged v w) (hv : v.distinctKeys = true) : v.equal w = true := by
  induction h with
  | refl => exact equal_refl v hv
  | tail hsteps hlast ih =>
    exact equal_trans ih (hlast.equal (Rearranged.distinctKeys hsteps hv))

/-! ### An equal value is rearranged -/

theorem Rearranged.inside {around : Value → Value}
    (hstep : ∀ a b, Reorders a b → Reorders (around a) (around b)) (h : Rearranged v w) :
    Rearranged (around v) (around w) :=
  Relation.ReflTransGen.lift around hstep v w h

/-- The items of a list are rearranged one after the other. -/
theorem rearranged_items {as bs : List Value} (h : List.Forall₂ Rearranged as bs)
    (left : List Value) : Rearranged (.seq (left ++ as)) (.seq (left ++ bs)) := by
  induction h generalizing left with
  | nil => exact .refl
  | @cons a b as bs hab _ ih =>
    have hitem : Rearranged (.seq (left ++ a :: as)) (.seq (left ++ b :: as)) :=
      hab.inside fun _ _ => .item left as
    have hrest := ih (left ++ [b])
    rw [List.append_assoc, List.append_assoc] at hrest
    exact hitem.trans hrest

/-- So are the values under the keys of a map. -/
theorem rearranged_entries
    (h : List.Forall₂ (fun e f : String × Value => e.1 = f.1 ∧ Rearranged e.2 f.2) s t)
    (left : Statement) : Rearranged (.map (left ++ s)) (.map (left ++ t)) := by
  induction h generalizing left with
  | nil => exact .refl
  | @cons e f s t hef _ ih =>
    obtain ⟨k, a⟩ := e
    obtain ⟨l, b⟩ := f
    obtain ⟨rfl, hab⟩ := hef
    have hentry : Rearranged (.map (left ++ (k, a) :: s)) (.map (left ++ (k, b) :: s)) :=
      hab.inside fun _ _ => .entry left s k
    have hrest := ih (left ++ [(k, b)])
    rw [List.append_assoc, List.append_assoc] at hrest
    exact hentry.trans hrest

/-- The entries of the second map in the order of the first. -/
def inOrderOf (s t : Statement) : Statement :=
  s.map fun e => (e.1, (Table.get? e.1 t).getD .null)

theorem inOrderOf_perm (hlength : s.length = t.length) (hs : (Table.keys s).Nodup)
    (h : ∀ e ∈ s, ∃ b, Table.get? e.1 t = some b) : (inOrderOf s t).Perm t := by
  have hkeys : Table.keys (inOrderOf s t) = Table.keys s := by
    simp [inOrderOf, Table.keys, Function.comp_def]
  have hnodup : (inOrderOf s t).Nodup := by
    refine List.Nodup.of_map Prod.fst ?_
    rwa [← Table.keys, hkeys]
  have hsubset : inOrderOf s t ⊆ t := by
    intro f hf
    obtain ⟨e, he, rfl⟩ := List.mem_map.mp hf
    obtain ⟨b, hb⟩ := h e he
    rw [hb]
    exact Table.mem_of_get? hb
  refine (List.subperm_of_subset hnodup hsubset).perm_of_length_le ?_
  simp [inOrderOf, hlength]

theorem Rearranged.of_equal (h : v.equal w = true) (hv : v.distinctKeys = true) :
    Rearranged v w := by
  induction v using nested_induction generalizing w with
  | atom v hatom =>
    rw [eq_of_equal_of_isAtom hatom h]
    exact .refl
  | seq as ih =>
    cases w with
    | seq bs =>
      rw [Value.equal, equalItems_iff] at h
      rw [distinctKeys_seq_iff] at hv
      refine rearranged_items ?_ []
      induction h with
      | nil => exact .nil
      | cons hab _ ihitems =>
        rw [List.forall_mem_cons] at ih hv
        exact .cons (ih.1 hab hv.1) (ihitems ih.2 hv.2)
    | _ => cases h
  | map s ih =>
    cases w with
    | map t =>
      obtain ⟨hlength, hentries⟩ := equal_map_iff.mp h
      obtain ⟨hkeys, hvalues⟩ := distinctKeys_map_iff.mp hv
      -- The values under the keys come first, then the entries find their places.
      have hinner : List.Forall₂ (fun e f : String × Value => e.1 = f.1 ∧ Rearranged e.2 f.2)
          s (inOrderOf s t) := by
        rw [inOrderOf, List.forall₂_map_right_iff, List.forall₂_same]
        intro e he
        obtain ⟨b, hb, hequal⟩ := hentries e he
        rw [hb]
        exact ⟨rfl, ih e he hequal (hvalues e he)⟩
      have hperm : (inOrderOf s t).Perm t :=
        inOrderOf_perm hlength hkeys fun e he => (hentries e he).imp fun _ hb => hb.1
      exact (rearranged_entries hinner []).tail (.here hperm)
    | _ => cases h

/-- **Equality is rearrangement.** -/
theorem equal_iff_rearranged (hv : v.distinctKeys = true) :
    v.equal w = true ↔ Rearranged v w :=
  ⟨fun h => .of_equal h hv, fun h => h.equal hv⟩

end Value
end Clausal
