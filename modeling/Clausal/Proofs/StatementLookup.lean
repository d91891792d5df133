import Clausal.Proofs.JsonRoundTrip
import Clausal.Proofs.Reach

/-! # Look-ups in statements

A key stands for a tag: one leading colon is dropped when a payload is stored, and one when it is
looked up or removed.  In a statement that arises by edits or from a document no tag stands twice
(`Statement.Arises.nodup_tags`), so a pair is found, and removed, under every key that stands
for its tag.

A tag is itself such a key unless it starts with a colon.  The tag that is left of a key with two
colons does, and under it another pair is found, or none.  `Statement.Arises.lookup_exact` says
that this is the only exception.
-/
namespace Clausal

/-! ### Tables -/

namespace Table
variable {α : Type} {t : Table α} {k : String}

/-- What is in a table after a payload was stored was stored or has been there. -/
theorem mem_put {v : α} {e : String × α} (h : e ∈ put k v t) : e = (k, v) ∨ e ∈ t := by
  induction t with
  | nil => exact .inl (List.mem_singleton.mp h)
  | cons f t ih =>
    rw [put] at h
    split at h
    · rename_i hkey
      rcases List.mem_cons.mp h with rfl | h
      · exact .inl (Prod.ext hkey rfl)
      · exact .inr (List.mem_cons_of_mem f h)
    · rcases List.mem_cons.mp h with rfl | h
      · exact .inr List.mem_cons_self
      · exact (ih h).imp_right (List.mem_cons_of_mem f)

theorem nodup_keys_erase (ht : (keys t).Nodup) : (keys (erase k t)).Nodup := by
  rw [keys_erase]
  exact ht.erase k

/-- Where no key stands twice, taking a key out takes out its pair and nothing else. -/
theorem erase_eq_filter (ht : (keys t).Nodup) : erase k t = t.filter fun e => e.1 ≠ k := by
  induction t with
  | nil => rfl
  | cons e t ih =>
    obtain ⟨hnew, hrest⟩ := List.nodup_cons.mp ht
    by_cases hkey : e.1 = k
    · have hothers : ∀ f ∈ t, f.1 ≠ k := by
        rintro f hf rfl
        exact hnew (hkey ▸ List.mem_map_of_mem hf)
      rw [erase, if_pos hkey, List.filter_cons_of_neg (by simpa using hkey)]
      exact (List.filter_eq_self.mpr fun f hf => by simpa using hothers f hf).symm
    · rw [erase, if_neg hkey, List.filter_cons_of_pos (by simpa using hkey), ih hrest]

theorem get?_erase_of_ne {l : String} (h : l ≠ k) : get? l (erase k t) = get? l t := by
  induction t with
  | nil => rfl
  | cons e t ih =>
    by_cases hkey : e.1 = k
    · rw [erase, if_pos hkey, get?, if_neg fun hl => h (hl.symm.trans hkey)]
    · rw [erase, if_neg hkey, get?, get?, ih]

theorem get?_erase_self (ht : (keys t).Nodup) : get? k (erase k t) = none := by
  cases hk : get? k (erase k t) with
  | none => rfl
  | some v =>
    have hmem : k ∈ keys (erase k t) := (mem_keys_iff_has _ _).mpr (Option.isSome_of_eq_some hk)
    rw [keys_erase] at hmem
    exact absurd hmem ht.not_mem_erase

end Table

/-! ### How statements arise -/

namespace Statement

/-- A change of a statement. -/
inductive Edit where
  | insert (key : String) (v : Value)
  | remove (key : String)

/-- The statement after a change. -/
def Edit.apply (s : Statement) : Edit → Statement
  | .insert key v => s.insert key v
  | .remove key => s.remove key

/-- The statement after changes of the empty one. -/
def edited (edits : List Edit) : Statement := edits.foldl Edit.apply []

/-- The statement comes about by changes of the empty one, or stands in the value of a document. -/
inductive Arises : Statement → Prop where
  | edited (edits : List Edit) : Arises (edited edits)
  | read {j : Json} {s : Statement} (h : (Value.ofJson j).Reaches (.map s)) : Arises s

theorem Edit.nodup_apply {s : Statement} (hs : (Table.keys s).Nodup) (edit : Edit) :
    (Table.keys (edit.apply s)).Nodup := by
  cases edit with
  | insert key v => exact Table.nodup_keys_put hs
  | remove key => exact Table.nodup_keys_erase hs

theorem nodup_foldl_apply {s : Statement} (hs : (Table.keys s).Nodup) (edits : List Edit) :
    (Table.keys (edits.foldl Edit.apply s)).Nodup := by
  induction edits generalizing s with
  | nil => exact hs
  | cons edit edits ih => exact ih (edit.nodup_apply hs)

end Statement

namespace Value

theorem exists_of_ofJson_eq_seq {j : Json} {items : List Value} (h : ofJson j = .seq items) :
    ∃ js : List Json, items = js.map ofJson := by
  cases j with
  | str s =>
    have hatom := isAtom_ofText s
    rw [ofJson] at h
    rw [h] at hatom
    cases hatom
  | arr js =>
    rw [ofJson, ofJsonItems_eq] at h
    exact ⟨js, (Value.seq.inj h).symm⟩
  | _ => cases h

theorem exists_of_ofJson_eq_map {j : Json} {s : Statement} (h : ofJson j = .map s) :
    ∃ entries, s = ofJsonEntries [] entries := by
  cases j with
  | str text =>
    have hatom := isAtom_ofText text
    rw [ofJson] at h
    rw [h] at hatom
    cases hatom
  | obj entries => exact ⟨entries, (Value.map.inj h).symm⟩
  | _ => cases h

/-- The payloads of the entries are values of documents. -/
theorem of_mem_ofJsonEntries {entries : List (String × Json)} {s : Statement} {e : String × Value}
    (h : e ∈ ofJsonEntries s entries) : e ∈ s ∨ ∃ j, e.2 = ofJson j := by
  induction entries generalizing s with
  | nil => exact .inl h
  | cons f entries ih =>
    rcases ih h with h | h
    · rcases Table.mem_put h with rfl | h
      · exact .inr ⟨f.2, rfl⟩
      · exact .inl h
    · exact .inr h

/-- In the value of a document, no map has a key twice. -/
theorem nodup_of_ofJson_reaches {v w : Value} (h : v.Reaches w) {j : Json} (hv : v = ofJson j)
    {s : Statement} (hw : w = .map s) : (Table.keys s).Nodup := by
  -- On the way down: what a value of a document holds is again the value of a document.
  induction h generalizing j with
  | self v =>
    obtain ⟨entries, rfl⟩ := exists_of_ofJson_eq_map (hv.symm.trans hw)
    exact nodup_ofJsonEntries List.nodup_nil
  | item hmem _ ih =>
    obtain ⟨js, rfl⟩ := exists_of_ofJson_eq_seq hv.symm
    obtain ⟨j', -, rfl⟩ := List.mem_map.mp hmem
    exact ih rfl hw
  | entry hmem _ ih =>
    obtain ⟨entries, rfl⟩ := exists_of_ofJson_eq_map hv.symm
    rcases of_mem_ofJsonEntries hmem with hnil | ⟨j', hj'⟩
    · cases hnil
    · exact ih hj' hw

end Value

/-! ### Look-ups -/

namespace Statement
variable {s : Statement}

theorem Arises.nodup_tags (h : s.Arises) : s.tags.Nodup := by
  cases h with
  | edited edits => exact nodup_foldl_apply (s := []) List.nodup_nil edits
  | read hread => exact Value.nodup_of_ofJson_reaches hread rfl rfl

theorem tagOf_ne_of_hasColon {k : String} (h : Text.HasColon k) : tagOf k ≠ k := by
  obtain ⟨rest, rfl⟩ := h.exists_rest
  rw [tagOf_append]
  intro heq
  have hlength := congrArg String.length heq
  rw [String.length_append, String.length_singleton] at hlength
  omega

/-- **Look-ups agree with iteration under every tag without a leading colon.**  In a statement that
arises by edits or from a document no tag stands twice.  A pair is found and removed under its own
tag exactly when the tag does not start with a colon; under any other tag, another pair is found or
none. -/
theorem Arises.lookup_exact (h : s.Arises) :
    s.tags.Nodup ∧ ∀ k v, (k, v) ∈ s →
      ((s.contains k = true ∧ s.get? k = some v ∧ s.remove k = s.filter fun e => e.1 ≠ k) ↔
        ¬ Text.HasColon k) ∧
      (Text.HasColon k → ∀ w, s.get? k = some w → ∃ l, l ≠ k ∧ (l, w) ∈ s) := by
  have htags : (Table.keys s).Nodup := h.nodup_tags
  refine ⟨htags, fun k v hmem => ⟨⟨?_, ?_⟩, ?_⟩⟩
  · -- Under a tag with a colon another tag is removed, and the pair stays.
    rintro ⟨-, -, hremove⟩ hcolon
    have hstays : (k, v) ∈ s.remove k := by
      rw [remove, Table.erase_eq_filter htags]
      exact List.mem_filter.mpr ⟨hmem, by simpa using (tagOf_ne_of_hasColon hcolon).symm⟩
    rw [hremove] at hstays
    simpa using (List.mem_filter.mp hstays).2
  · intro hcolon
    have hget : s.get? k = some v := by
      rw [get?, tagOf_of_not_hasColon hcolon, Table.get?_of_mem htags hmem]
    refine ⟨?_, hget, ?_⟩
    · rw [contains, Table.has, ← get?, hget]
      rfl
    · rw [remove, tagOf_of_not_hasColon hcolon, Table.erase_eq_filter htags]
  · intro hcolon w hw
    exact ⟨tagOf k, tagOf_ne_of_hasColon hcolon, Table.mem_of_get? hw⟩

/-- Under what is left of a key with two colons another pair is found. -/
theorem lookup_exact_colons :
    edited [.insert "::a" (.int 1), .insert "a" (.int 2), .remove "b"] =
        [(":a", .int 1), ("a", .int 2)] ∧
      tags [(":a", .int 1), ("a", .int 2)] = [":a", "a"] ∧ [":a", "a"].Nodup ∧
      ¬ (contains [(":a", .int 1), ("a", .int 2)] ":a" = true ∧
        get? [(":a", .int 1), ("a", .int 2)] ":a" = some (.int 1) ∧
        remove [(":a", .int 1), ("a", .int 2)] ":a" = [("a", .int 2)]) ∧
      contains [(":a", .int 1), ("a", .int 2)] "a" = true ∧
      get? [(":a", .int 1), ("a", .int 2)] "a" = some (.int 2) ∧
      remove [(":a", .int 1), ("a", .int 2)] "a" = [(":a", .int 1)] := by
  have hedited : edited [.insert "::a" (.int 1), .insert "a" (.int 2), .remove "b"] =
      [(":a", .int 1), ("a", .int 2)] := rfl
  have harises : Arises [(":a", .int 1), ("a", .int 2)] := hedited ▸ .edited _
  obtain ⟨htags, hpairs⟩ := harises.lookup_exact
  obtain ⟨hcolon, -⟩ := hpairs ":a" (.int 1) List.mem_cons_self
  obtain ⟨hplain, -⟩ := hpairs "a" (.int 2) (List.mem_cons_of_mem _ List.mem_cons_self)
  exact ⟨hedited, rfl, htags, fun h => hcolon.mp h (by decide), hplain.mpr (by decide)⟩

/-- A pair that is stored under a key with two colons is listed, but it is not found under its tag
and cannot be removed under it. -/
theorem pair_not_found :
    insert [] "::a" (.int 1) = [(":a", .int 1)] ∧ contains [(":a", .int 1)] ":a" = false ∧
      get? [(":a", .int 1)] ":a" = none ∧
      remove [(":a", .int 1)] ":a" = [(":a", .int 1)] :=
  ⟨rfl, rfl, rfl, rfl⟩

end Statement
end Clausal
