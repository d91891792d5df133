import Clausal.Proofs.KeyOrder.Equivalence

/-! # What a value reaches

A value reaches itself, and through the items of lists and the payloads of maps whatever these reach
(`Value.Reaches`).  A property holds at every depth of a value when it holds of all that the value
reaches; for lists and maps that is the property here and at every depth of their parts
(`Value.forall_reaches_seq`, `Value.forall_reaches_map`).

Equal values reach equal values (`Value.reaches_of_equal`).
-/
namespace Clausal
namespace Value

/-- The second value stands in the first, at some depth. -/
inductive Reaches : Value → Value → Prop where
  | self (v : Value) : Reaches v v
  | item {items : List Value} {v w : Value} (hv : v ∈ items) (h : Reaches v w) :
      Reaches (.seq items) w
  | entry {s : Statement} {e : String × Value} {w : Value} (he : e ∈ s) (h : Reaches e.2 w) :
      Reaches (.map s) w

theorem forall_reaches_atom {P : Value → Prop} {v : Value} (hv : v.isAtom = true) :
    (∀ w, v.Reaches w → P w) ↔ P v := by
  refine ⟨fun h => h v (.self v), ?_⟩
  rintro h w (_ | _ | _)
  · exact h
  · cases hv
  · cases hv

theorem forall_reaches_seq {P : Value → Prop} {items : List Value} :
    (∀ w, (Value.seq items).Reaches w → P w) ↔
      P (.seq items) ∧ ∀ v ∈ items, ∀ w, v.Reaches w → P w := by
  refine ⟨fun h => ⟨h _ (.self _), fun v hv w hw => h w (.item hv hw)⟩, ?_⟩
  rintro ⟨hself, hitems⟩ w (_ | ⟨hv, hw⟩ | _)
  · exact hself
  · exact hitems _ hv w hw

theorem forall_reaches_map {P : Value → Prop} {s : Statement} :
    (∀ w, (Value.map s).Reaches w → P w) ↔
      P (.map s) ∧ ∀ e ∈ s, ∀ w, e.2.Reaches w → P w := by
  refine ⟨fun h => ⟨h _ (.self _), fun e he w hw => h w (.entry he hw)⟩, ?_⟩
  rintro ⟨hself, hentries⟩ w (_ | _ | ⟨he, hw⟩)
  · exact hself
  · exact hentries _ he w hw

theorem exists_equal_item {items others : List Value}
    (h : List.Forall₂ (fun a b => a.equal b = true) items others) {v : Value} (hv : v ∈ items) :
    ∃ w ∈ others, v.equal w = true := by
  induction h with
  | nil => cases hv
  | cons hab _ ih =>
    rcases List.mem_cons.mp hv with rfl | hv
    · exact ⟨_, List.mem_cons_self, hab⟩
    · obtain ⟨w, hw, hvw⟩ := ih hv
      exact ⟨w, List.mem_cons_of_mem _ hw, hvw⟩

/-- What one of two equal values reaches has an equal in what the other one reaches. -/
theorem reaches_of_equal {v w part : Value} (h : v.Reaches part) (heq : v.equal w = true) :
    ∃ other, w.Reaches other ∧ part.equal other = true := by
  induction h generalizing w with
  | self v => exact ⟨w, .self w, heq⟩
  | @item items v part hv _ ih =>
    cases w with
    | seq others =>
      rw [equal, equalItems_iff] at heq
      obtain ⟨w, hw, hvw⟩ := exists_equal_item heq hv
      obtain ⟨other, hother, hpart⟩ := ih hvw
      exact ⟨other, .item hw hother, hpart⟩
    | _ => cases heq
  | entry he _ ih =>
    cases w with
    | map t =>
      obtain ⟨w, hw, hvw⟩ := (equal_map_iff.mp heq).2 _ he
      obtain ⟨other, hother, hpart⟩ := ih hvw
      exact ⟨other, .entry (Table.mem_of_get? hw) hother, hpart⟩
    | _ => cases heq

end Value
end Clausal
