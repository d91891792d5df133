import Clausal.Proofs.KeyOrder.Equivalence
import Clausal.Value.Json
import Mathlib.Data.Finset.Max

/-! # Values and documents

A value comes back from its document exactly when, at every depth, no string could be taken for a
name, no name is empty, no number is infinite or a NaN, and no key starts with a colon
(`Value.Portable`).  A document without such keys comes back from its value, with the keys of
objects in the same order.  `Value.json_round_trip` says both.

Colons before keys cannot make up for one another.  Reading drops one colon from every key that has
one.  If the keys that come out are the keys that went in, each key with a colon is what
is left of a longer key with a colon, and so there is none.
-/
namespace Clausal

/-! ### Leading colons -/

/-- The text starts with a colon. -/
def Text.HasColon (s : String) : Prop := s.toList.head? = some ':'

namespace Text

instance : DecidablePred HasColon := fun s =>
  inferInstanceAs (Decidable (s.toList.head? = some ':'))

theorem stripLeading?_eq_none_iff {c : Char} {s : String} :
    stripLeading? c s = none ↔ s.toList.head? ≠ some c := by
  unfold stripLeading?
  cases s.toList with
  | nil => simp
  | cons d ds => simp

theorem stripLeading?_eq_some_iff {c : Char} {s rest : String} :
    stripLeading? c s = some rest ↔ s = String.singleton c ++ rest := by
  unfold stripLeading?
  rw [← String.toList_inj, String.toList_append, String.toList_singleton]
  cases s.toList with
  | nil => simp
  | cons d ds =>
    rw [Option.ite_none_right_eq_some, Option.some.injEq, ← String.toList_inj, String.toList_ofList]
    simp

theorem HasColon.exists_rest {s : String} (h : HasColon s) :
    ∃ rest, s = String.singleton ':' ++ rest := by
  cases hs : stripLeading? ':' s with
  | none => exact absurd h (stripLeading?_eq_none_iff.mp hs)
  | some rest => exact ⟨rest, stripLeading?_eq_some_iff.mp hs⟩

end Text

theorem Table.nodup_keys_put {α : Type} {t : Table α} {k : String} {v : α} (ht : (keys t).Nodup) :
    (keys (put k v t)).Nodup := by
  rw [keys_put]
  split
  · exact ht
  · rename_i hnew
    rw [← List.concat_eq_append]
    exact ht.concat hnew

namespace Statement

theorem tagOf_of_not_hasColon {key : String} (h : ¬ Text.HasColon key) : tagOf key = key := by
  rw [tagOf, Text.stripLeading?_eq_none_iff.mpr h]
  rfl

theorem tagOf_append (rest : String) : tagOf (String.singleton ':' ++ rest) = rest := by
  rw [tagOf, Text.stripLeading?_eq_some_iff.mpr rfl]
  rfl

/-- Keys that are all left over from such keys have no colons. -/
theorem not_hasColon_of_onto {keys : List String} (h : ∀ k ∈ keys, ∃ l ∈ keys, tagOf l = k) :
    ∀ k ∈ keys, ¬ Text.HasColon k := by
  classical
  intro k hk hcolon
  -- The longest key with a colon would be left over from a longer one.
  obtain ⟨longest, hlongest, hmax⟩ := Finset.exists_max_image
    (keys.toFinset.filter Text.HasColon) String.length ⟨k, by simp [hk, hcolon]⟩
  simp only [Finset.mem_filter, List.mem_toFinset] at hlongest hmax
  obtain ⟨l, hl, hleft⟩ := h longest hlongest.1
  have hl' : Text.HasColon l := by
    by_contra hnone
    rw [tagOf_of_not_hasColon hnone] at hleft
    exact hnone (hleft ▸ hlongest.2)
  obtain ⟨rest, rfl⟩ := hl'.exists_rest
  rw [tagOf_append] at hleft
  have hle := hmax _ ⟨hl, hl'⟩
  rw [hleft, String.length_append, String.length_singleton] at hle
  omega

end Statement

namespace Value

theorem ofText_append {name : String} (h : name ≠ "") :
    ofText (String.singleton ':' ++ name) = .ident name := by
  rw [ofText, Text.stripLeading?_eq_some_iff.mpr rfl]
  split
  · rename_i hnone
    cases hnone
  · rename_i hempty
    exact absurd (Option.some.inj hempty) h
  · rename_i hname
    rw [Option.some.inj hname]

/-- A string is taken for a name if it has a colon and more. -/
theorem ofText_eq_str_iff {s : String} :
    ofText s = .str s ↔ ¬ (1 < s.utf8ByteSize ∧ Text.HasColon s) := by
  by_cases hcolon : Text.HasColon s
  · obtain ⟨name, rfl⟩ := hcolon.exists_rest
    have hsize : (String.singleton ':' ++ name).utf8ByteSize = 1 + name.utf8ByteSize := by
      rw [String.utf8ByteSize_append, String.utf8ByteSize_singleton]
      rfl
    by_cases hname : name = ""
    · subst hname
      refine iff_of_true rfl fun h => ?_
      rw [hsize, String.utf8ByteSize_eq_zero_iff.mpr rfl] at h
      omega
    · have hpos := mt String.utf8ByteSize_eq_zero_iff.mp hname
      rw [ofText_append hname]
      exact iff_of_false nofun (not_not_intro ⟨by omega, hcolon⟩)
  · rw [ofText, Text.stripLeading?_eq_none_iff.mpr hcolon]
    simp [hcolon]

theorem isAtom_ofText (s : String) : (ofText s).isAtom = true := by
  unfold ofText
  split <;> rfl

theorem toJson_ofText (s : String) : (ofText s).toJson = .str s := by
  by_cases hcolon : Text.HasColon s
  · obtain ⟨name, rfl⟩ := hcolon.exists_rest
    by_cases hname : name = ""
    · subst hname
      rfl
    · rw [ofText_append hname]
      rfl
  · rw [ofText, Text.stripLeading?_eq_none_iff.mpr hcolon]
    rfl

/-! ### Items and entries -/

theorem ofJsonItems_eq (js : List Json) : ofJsonItems js = js.map ofJson := by
  induction js with
  | nil => rfl
  | cons j js ih => rw [ofJsonItems, ih, List.map_cons]

theorem toJsonItems_eq (vs : List Value) : toJsonItems vs = vs.map toJson := by
  induction vs with
  | nil => rfl
  | cons v vs ih => rw [toJsonItems, ih, List.map_cons]

theorem toJsonEntries_eq (s : Statement) :
    toJsonEntries s = s.map fun e => (e.1, e.2.toJson) := by
  induction s with
  | nil => rfl
  | cons e s ih => rw [toJsonEntries, ih, List.map_cons]

/-- Entries whose keys are new and without colons are stored one after the other. -/
theorem ofJsonEntries_eq {entries : List (String × Json)} {s : Statement}
    (hkeys : (Table.keys s ++ entries.map Prod.fst).Nodup)
    (hcolon : ∀ e ∈ entries, ¬ Text.HasColon e.1) :
    ofJsonEntries s entries = s ++ entries.map fun e => (e.1, ofJson e.2) := by
  induction entries generalizing s with
  | nil => rw [ofJsonEntries, List.map_nil, List.append_nil]
  | cons e entries ih =>
    rw [List.forall_mem_cons] at hcolon
    have hnew : e.1 ∉ Table.keys s := fun hmem =>
      (List.nodup_append.mp hkeys).2.2 _ hmem _ List.mem_cons_self rfl
    have hput : s.insert e.1 (ofJson e.2) = s ++ [(e.1, ofJson e.2)] := by
      rw [Statement.insert, Statement.tagOf_of_not_hasColon hcolon.1, Table.put_of_notMem hnew]
    rw [ofJsonEntries, hput, ih (by simpa [Table.keys] using hkeys) hcolon.2, List.append_assoc]
    rfl

/-- The keys that come out are those that went in, less their colons. -/
theorem mem_keys_ofJsonEntries {entries : List (String × Json)} {s : Statement} {k : String} :
    k ∈ Table.keys (ofJsonEntries s entries) ↔
      k ∈ Table.keys s ∨ ∃ e ∈ entries, Statement.tagOf e.1 = k := by
  induction entries generalizing s with
  | nil => simp [ofJsonEntries]
  | cons e entries ih =>
    rw [ofJsonEntries, ih, Statement.insert, Table.keys_put, List.exists_mem_cons_iff, ← or_assoc]
    refine or_congr_left ?_
    split
    · rename_i hmem
      refine ⟨.inl, ?_⟩
      rintro (hk | rfl)
      · exact hk
      · exact hmem
    · rw [List.mem_append, List.mem_singleton, eq_comm]

theorem nodup_ofJsonEntries {entries : List (String × Json)} {s : Statement}
    (hs : (Table.keys s).Nodup) : (Table.keys (ofJsonEntries s entries)).Nodup := by
  induction entries generalizing s with
  | nil => exact hs
  | cons e entries ih => exact ih (Table.nodup_keys_put hs)

/-! ### Portable values -/

/-- Nothing of the value is lost in its document.  A string of a colon alone is not taken for a
name. -/
inductive Portable : Value → Prop where
  | null : Portable .null
  | bool (b : Bool) : Portable (.bool b)
  | int (n : Int64) : Portable (.int n)
  | float {x : Decimal.Binary64} (h : x.isFinite = true) : Portable (.float x)
  | str {s : String} (h : ¬ (1 < s.utf8ByteSize ∧ Text.HasColon s)) : Portable (.str s)
  | ident {name : String} (h : name ≠ "") : Portable (.ident name)
  | seq {items : List Value} (h : ∀ v ∈ items, Portable v) : Portable (.seq items)
  | map {s : Statement} (hkeys : ∀ k ∈ Table.keys s, ¬ Text.HasColon k)
      (h : ∀ e ∈ s, Portable e.2) : Portable (.map s)

/-- The value that comes back from the document of a value. -/
def broughtBack (v : Value) : Value := ofJson v.toJson

theorem broughtBack_seq (items : List Value) :
    (Value.seq items).broughtBack = .seq (items.map broughtBack) := by
  rw [broughtBack, toJson, ofJson, toJsonItems_eq, ofJsonItems_eq, List.map_map]
  rfl

/-- A map without colons comes back entry by entry. -/
theorem broughtBack_map {s : Statement} (hs : (Table.keys s).Nodup)
    (hcolon : ∀ k ∈ Table.keys s, ¬ Text.HasColon k) :
    (Value.map s).broughtBack = .map (s.map fun e => (e.1, e.2.broughtBack)) := by
  have hkeys : (toJsonEntries s).map Prod.fst = Table.keys s := by
    rw [toJsonEntries_eq, List.map_map]
    rfl
  rw [broughtBack, toJson, ofJson, ofJsonEntries_eq, toJsonEntries_eq, List.map_map]
  · rfl
  · rw [hkeys]
    exact hs
  · intro e he
    exact hcolon e.1 (hkeys ▸ List.mem_map_of_mem he)

/-- Portable values come back as they were. -/
theorem Portable.broughtBack_eq {v : Value} (h : v.Portable) (hv : v.distinctKeys = true) :
    v.broughtBack = v := by
  induction h with
  | null => rfl
  | bool b => rfl
  | int n => rfl
  | float hx => rw [broughtBack, toJson, if_pos hx, ofJson]
  | str hs => exact ofText_eq_str_iff.mpr hs
  | ident hname => exact ofText_append hname
  | seq _ ih =>
    rw [broughtBack_seq, List.map_congr_left (g := id), List.map_id]
    exact fun v hmem => ih v hmem (distinct_of_mem_items hv v hmem)
  | map hkeys _ ih =>
    rw [broughtBack_map (nodup_keys hv) hkeys, List.map_congr_left (g := id), List.map_id]
    intro e he
    rw [ih e he (distinct_of_mem_entries hv e he)]
    rfl

/-- If a map comes back equal, its keys have no colons. -/
theorem not_hasColon_of_equal {s : Statement}
    (h : (Value.map s).broughtBack.equal (.map s) = true) :
    ∀ k ∈ Table.keys s, ¬ Text.HasColon k := by
  obtain ⟨hlength, hentries⟩ := equal_map_iff.mp h
  have hperm := keys_perm_of_length hlength (nodup_ofJsonEntries List.nodup_nil) fun e he =>
    (hentries e he).imp fun _ hb => hb.1
  refine Statement.not_hasColon_of_onto fun k hk => ?_
  rcases mem_keys_ofJsonEntries.mp (hperm.symm.subset hk) with hnil | ⟨e, he, rfl⟩
  · cases hnil
  · rw [toJsonEntries_eq] at he
    obtain ⟨f, hf, rfl⟩ := List.mem_map.mp he
    exact ⟨f.1, List.mem_map_of_mem hf, rfl⟩

/-- Only portable values come back equal. -/
theorem portable_of_equal {v : Value} (hv : v.distinctKeys = true)
    (h : v.broughtBack.equal v = true) : v.Portable := by
  induction v using nested_induction with
  | atom v hatom =>
    cases v with
    | null => exact .null
    | bool b => exact .bool b
    | int n => exact .int n
    | float x =>
      refine .float (Classical.byContradiction fun hx => ?_)
      rw [broughtBack, toJson, if_neg hx] at h
      cases h
    | str s =>
      refine .str (ofText_eq_str_iff.mp ?_)
      exact eq_of_equal_of_isAtom (isAtom_ofText s) h
    | ident name =>
      refine .ident ?_
      rintro rfl
      cases h
    | seq items => cases hatom
    | map s => cases hatom
  | seq items ih =>
    rw [broughtBack_seq, equal, equalItems_iff, List.forall₂_map_left_iff, List.forall₂_same] at h
    exact .seq fun v hmem => ih v hmem (distinct_of_mem_items hv v hmem) (h v hmem)
  | map s ih =>
    have hkeys := not_hasColon_of_equal h
    rw [broughtBack_map (nodup_keys hv) hkeys] at h
    refine .map hkeys fun e he => ih e he (distinct_of_mem_entries hv e he) ?_
    obtain ⟨b, hb, hequal⟩ := (equal_map_iff.mp h).2 _ (List.mem_map_of_mem he)
    rw [Table.get?_of_mem (nodup_keys hv) he] at hb
    cases hb
    exact hequal

end Value

/-! ### Documents -/

namespace Json

/-- The document can be: objects have no key twice, and numbers are finite. -/
inductive Proper : Json → Prop where
  | null : Proper .null
  | bool (b : Bool) : Proper (.bool b)
  | int (n : Int64) : Proper (.int n)
  | float {x : Decimal.Binary64} (h : x.isFinite = true) : Proper (.float x)
  | str (s : String) : Proper (.str s)
  | arr {items : List Json} (h : ∀ j ∈ items, Proper j) : Proper (.arr items)
  | obj {entries : List (String × Json)} (hkeys : (Table.keys entries).Nodup)
      (h : ∀ e ∈ entries, Proper e.2) : Proper (.obj entries)

/-- No key of an object starts with a colon, at any depth. -/
inductive ColonFree : Json → Prop where
  | null : ColonFree .null
  | bool (b : Bool) : ColonFree (.bool b)
  | int (n : Int64) : ColonFree (.int n)
  | float (x : Decimal.Binary64) : ColonFree (.float x)
  | str (s : String) : ColonFree (.str s)
  | arr {items : List Json} (h : ∀ j ∈ items, ColonFree j) : ColonFree (.arr items)
  | obj {entries : List (String × Json)} (hkeys : ∀ e ∈ entries, ¬ Text.HasColon e.1)
      (h : ∀ e ∈ entries, ColonFree e.2) : ColonFree (.obj entries)

/-- A proper document without colons comes back from its value, keys in order. -/
theorem toJson_ofJson {j : Json} (hj : j.Proper) (hcolon : j.ColonFree) :
    (Value.ofJson j).toJson = j := by
  induction hj with
  | null => rfl
  | bool b => rfl
  | int n => rfl
  | float hx => rw [Value.ofJson, Value.toJson, if_pos hx]
  | str s => exact Value.toJson_ofText s
  | arr _ ih =>
    cases hcolon with
    | arr hitems =>
      rw [Value.ofJson, Value.toJson, Value.ofJsonItems_eq, Value.toJsonItems_eq, List.map_map,
        List.map_congr_left (g := id), List.map_id]
      exact fun j hmem => ih j hmem (hitems j hmem)
  | obj hkeys _ ih =>
    cases hcolon with
    | obj hfree hentries =>
      rw [Value.ofJson, Value.toJson, Value.ofJsonEntries_eq (s := []) hkeys hfree,
        Value.toJsonEntries_eq,
        List.nil_append, List.map_map, List.map_congr_left (g := id), List.map_id]
      intro e he
      exact Prod.ext rfl (ih e he (hentries e he))

end Json

/-- **Round trip through documents.**  A value whose maps have no key twice comes back equal from
its document exactly when it is portable, and a document without colons before its keys comes back
from its value. -/
theorem Value.json_round_trip :
    (∀ v : Value, v.distinctKeys = true → ((ofJson v.toJson).equal v = true ↔ v.Portable)) ∧
      ∀ j : Json, j.Proper → j.ColonFree → (ofJson j).toJson = j := by
  refine ⟨fun v hv => ⟨portable_of_equal hv, fun h => ?_⟩, fun j => Json.toJson_ofJson⟩
  have hback : ofJson v.toJson = v := h.broughtBack_eq hv
  rw [hback]
  exact equal_refl v hv

/-- Keys that would stand for one another do not come back; a document with a lone colon and a name
does, though its keys are out of order. -/
theorem Value.json_round_trip_colons :
    ¬ (ofJson (Value.map [(":a", .null), ("::a", .null)]).toJson).equal
        (.map [(":a", .null), ("::a", .null)]) = true ∧
      (ofJson (.obj [("b", .str ":"), ("a", .arr [.str ":x", .float .zero])])).toJson =
        .obj [("b", .str ":"), ("a", .arr [.str ":x", .float .zero])] := by
  constructor
  · rw [json_round_trip.1 _ (by decide)]
    rintro (_ | _ | _ | _ | _ | _ | _ | ⟨hkeys, -⟩)
    exact hkeys ":a" (by decide) (by decide)
  · have hproper : ∀ j ∈ [Json.str ":x", .float .zero], j.Proper := by
      rintro j (_ | ⟨_, _ | ⟨_, ⟨⟩⟩⟩)
      · exact .str ":x"
      · exact .float (by decide)
    have hfree : ∀ j ∈ [Json.str ":x", .float .zero], j.ColonFree := by
      rintro j (_ | ⟨_, _ | ⟨_, ⟨⟩⟩⟩)
      · exact .str ":x"
      · exact .float .zero
    refine json_round_trip.2 _ (.obj (by decide) ?_) (.obj ?_ ?_)
    · rintro e (_ | ⟨_, _ | ⟨_, ⟨⟩⟩⟩)
      · exact .str ":"
      · exact .arr hproper
    · rintro e (_ | ⟨_, _ | ⟨_, ⟨⟩⟩⟩)
      · show ¬ Text.HasColon "b"
        decide
      · show ¬ Text.HasColon "a"
        decide
    · rintro e (_ | ⟨_, _ | ⟨_, ⟨⟩⟩⟩)
      · exact .str ":"
      · exact .arr hfree

end Clausal
