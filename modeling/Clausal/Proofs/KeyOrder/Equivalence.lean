import Clausal.Proofs.KeyOrder.Alike

/-! # Equality of values is an equivalence

Values whose maps have no key twice are equal to themselves, and equality between them goes both
ways (`Value.equal_refl`, `Value.equal_symm`).  It is transitive for all values
(`Value.equal_trans`).

Maps are compared from one side: each entry of the first is looked up in the second.  The other side
follows by counting, because as many keys as there are, all different and all found, are
all the keys.
-/
namespace Clausal
namespace Value

/-- Induction on values, over the items of lists and the entries of maps. -/
theorem nested_induction {P : Value → Prop} (atom : ∀ v : Value, v.isAtom = true → P v)
    (seq : ∀ items : List Value, (∀ v ∈ items, P v) → P (.seq items))
    (map : ∀ s : Statement, (∀ e ∈ s, P e.2) → P (.map s)) (v : Value) : P v := by
  refine Value.rec (motive_1 := P) (motive_2 := fun items => ∀ v ∈ items, P v)
    (motive_3 := fun s => ∀ e ∈ s, P e.2) (motive_4 := fun e => P e.2) (atom _ rfl)
    (fun _ => atom _ rfl) (fun _ => atom _ rfl) (fun _ => atom _ rfl) (fun _ => atom _ rfl)
    (fun _ => atom _ rfl) seq map nofun ?_ nofun ?_ (fun _ _ hv => hv) v
  · intro v items hv hitems w hw
    rcases List.mem_cons.mp hw with rfl | hw
    · exact hv
    · exact hitems w hw
  · intro e s he hs f hf
    rcases List.mem_cons.mp hf with rfl | hf
    · exact he
    · exact hs f hf

/-! ### Items and entries -/

theorem equalItems_iff {as bs : List Value} :
    equalItems as bs = true ↔ List.Forall₂ (fun a b => a.equal b = true) as bs := by
  induction as generalizing bs with
  | nil => cases bs <;> simp [equalItems]
  | cons a as ih => cases bs <;> simp [equalItems, ih]

theorem equalEntries_iff {as bs : List (String × Value)} :
    equalEntries as bs = true ↔
      ∀ e ∈ as, ∃ b, Table.get? e.1 bs = some b ∧ e.2.equal b = true := by
  refine ⟨fun h => ?_, equalEntries_of_forall⟩
  induction as with
  | nil => exact nofun
  | cons f as ih =>
    obtain ⟨k, a⟩ := f
    rw [equalEntries, Bool.and_eq_true] at h
    intro e he
    rcases List.mem_cons.mp he with rfl | he
    · cases hb : Table.get? k bs with
      | none =>
        rw [hb] at h
        cases h.1
      | some b =>
        rw [hb] at h
        exact ⟨b, rfl, h.1⟩
    · exact ih h.2 e he

theorem equal_map_iff {s t : Statement} :
    (Value.map s).equal (.map t) = true ↔ s.length = t.length ∧
      ∀ e ∈ s, ∃ b, Table.get? e.1 t = some b ∧ e.2.equal b = true := by
  rw [equal, Bool.and_eq_true, beq_iff_eq, equalEntries_iff]

theorem distinct_of_mem_items {items : List Value} (h : (Value.seq items).distinctKeys = true) :
    ∀ v ∈ items, v.distinctKeys = true := by
  rw [distinctKeys] at h
  induction items with
  | nil => exact nofun
  | cons v items ih =>
    rw [distinctItems, Bool.and_eq_true] at h
    exact List.forall_mem_cons.mpr ⟨h.1, ih h.2⟩

theorem distinct_of_mem_entries {s : Statement} (h : (Value.map s).distinctKeys = true) :
    ∀ e ∈ s, e.2.distinctKeys = true := by
  rw [distinctKeys] at h
  induction s with
  | nil => exact nofun
  | cons e s ih =>
    rw [distinctEntries, Bool.and_eq_true, Bool.and_eq_true] at h
    exact List.forall_mem_cons.mpr ⟨h.1.2, ih h.2⟩

/-! ### The three laws -/

theorem equal_self_of_isAtom {v : Value} (hv : v.isAtom = true) : v.equal v = true := by
  cases v with
  | seq items => cases hv
  | map entries => cases hv
  | _ => simp [equal]

theorem eq_of_equal_of_isAtom {v w : Value} (hv : v.isAtom = true) (h : v.equal w = true) :
    v = w := by
  cases v with
  | seq items => cases hv
  | map entries => cases hv
  | _ => cases w <;> simp_all [equal]

theorem equal_refl (v : Value) (hv : v.distinctKeys = true) : v.equal v = true := by
  induction v using nested_induction with
  | atom v hatom => exact equal_self_of_isAtom hatom
  | seq items ih =>
    rw [equal, equalItems_iff, List.forall₂_same]
    exact fun v hmem => ih v hmem (distinct_of_mem_items hv v hmem)
  | map s ih =>
    refine equal_map_iff.mpr ⟨rfl, fun e he => ⟨e.2, ?_, ?_⟩⟩
    · exact Table.get?_of_mem (nodup_keys hv) he
    · exact ih e he (distinct_of_mem_entries hv e he)

theorem equal_symm {v w : Value} (hv : v.distinctKeys = true) (hw : w.distinctKeys = true)
    (h : v.equal w = true) : w.equal v = true := by
  induction v using nested_induction generalizing w with
  | atom v hatom =>
    rw [← eq_of_equal_of_isAtom hatom h]
    exact equal_self_of_isAtom hatom
  | seq as ih =>
    cases w with
    | seq bs =>
      have has := distinct_of_mem_items hv
      have hbs := distinct_of_mem_items hw
      clear hv hw
      rw [equal, equalItems_iff] at h ⊢
      induction h with
      | nil => exact .nil
      | cons hab hitems ihitems =>
        rw [List.forall_mem_cons] at ih has hbs
        exact .cons (ih.1 has.1 hbs.1 hab) (ihitems ih.2 has.2 hbs.2)
    | _ => cases h
  | map s ih =>
    cases w with
    | map t =>
      obtain ⟨hlength, hentries⟩ := equal_map_iff.mp h
      have hperm := keys_perm_of_length hlength (nodup_keys hv) fun e he =>
        (hentries e he).imp fun _ hb => hb.1
      refine equal_map_iff.mpr ⟨hlength.symm, fun f hf => ?_⟩
      have hkey : f.1 ∈ Table.keys s := hperm.symm.subset (List.mem_map.mpr ⟨f, hf, rfl⟩)
      obtain ⟨a, ha⟩ := Table.exists_get? hkey
      have hmem : (f.1, a) ∈ s := Table.mem_of_get? ha
      obtain ⟨b, hb, hab⟩ := hentries (f.1, a) hmem
      -- What is found under the key of an entry is that entry.
      have hbf : b = f.2 := Option.some.inj (hb.symm.trans (Table.get?_of_mem (nodup_keys hw) hf))
      rw [hbf] at hab
      exact ⟨a, ha, ih (f.1, a) hmem (distinct_of_mem_entries hv _ hmem)
        (distinct_of_mem_entries hw f hf) hab⟩
    | _ => cases h

theorem equal_trans {u v w : Value} (huv : u.equal v = true) (hvw : v.equal w = true) :
    u.equal w = true := by
  induction u using nested_induction generalizing v w with
  | atom u hatom => rwa [eq_of_equal_of_isAtom hatom huv]
  | seq as ih =>
    cases v with
    | seq bs =>
      cases w with
      | seq cs =>
        rw [equal, equalItems_iff] at huv hvw ⊢
        induction huv generalizing cs with
        | nil => exact hvw
        | cons hab _ ihitems =>
          rw [List.forall_mem_cons] at ih
          obtain ⟨c, cs, hbc, hrest, rfl⟩ := List.forall₂_cons_left_iff.mp hvw
          exact .cons (ih.1 hab hbc) (ihitems ih.2 cs hrest)
      | _ => cases hvw
    | _ => cases huv
  | map s ih =>
    cases v with
    | map t =>
      cases w with
      | map r =>
        obtain ⟨hst, hs⟩ := equal_map_iff.mp huv
        obtain ⟨htr, ht⟩ := equal_map_iff.mp hvw
        refine equal_map_iff.mpr ⟨hst.trans htr, fun e he => ?_⟩
        obtain ⟨b, hb, heb⟩ := hs e he
        obtain ⟨c, hc, hbc⟩ := ht (e.1, b) (Table.mem_of_get? hb)
        exact ⟨c, hc, ih e he heb hbc⟩
      | _ => cases hvw
    | _ => cases huv

end Value
end Clausal
