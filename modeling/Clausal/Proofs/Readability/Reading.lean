import Clausal.Proofs.Readability.Formula
import Mathlib.Data.List.Nodup

/-! # Reading lexemes

The norm of a formula can be read off its lexemes (`Value.assemble_lexemes`).  How many lexemes
there are, and which words stand in the second place, tells the head, even where names look
like keywords: no two heads have the same words, and the operands stand at known places.
-/
namespace Clausal

/-- What a lexeme may be: a word of a head, an operand, or both. -/
structure Reading where
  word : Option String
  value : Option Value

namespace Reading

/-- The reading of a word. -/
def ofWord (s : String) : Reading := ⟨some s, some (.ident s)⟩

/-- The head with these words. -/
def head? (words : List (Option String)) : Option (String × Frame) :=
  frames.find? fun e => e.2.words.map some == words

/-- The operands of a chain from the second one on. -/
def ofChain : List Reading → List Reading
  | y :: _ :: _ :: _ :: rest => y :: ofChain rest
  | rest => rest

/-- The joined operands from the second one on. -/
def ofJoined : List Reading → List Reading
  | y :: _ :: rest => y :: ofJoined rest
  | rest => rest

/-- The operands after the first one, from what follows a head of one word. -/
def others : Frame → List Reading → List Reading
  | .range _, [y, _, z] => [y, z]
  | .chain _, rest => ofChain rest
  | .joined _, rest => ofJoined rest
  | _, rest => rest

/-- A head and its operands.  An even number of lexemes has a head of two words or before its
operand, and an odd number a head of one word in the second place. -/
def dissect : List Reading → Option (String × List Reading)
  | [w, x] => (head? [w.word]).map fun e => (e.1, [x])
  | [x, v, w, y] => (head? [v.word, w.word]).map fun e => (e.1, [x, y])
  | [x, v, w, y, _, z] => (head? [v.word, w.word]).map fun e => (e.1, [x, y, z])
  | x :: w :: rest => (head? [w.word]).map fun e => (e.1, x :: others e.2 rest)
  | _ => none

/-- The value that the readings stand for. -/
def assemble : List Reading → Option Value
  | [x] => x.value
  | xs => (dissect xs).map fun e => .call e.1 (e.2.filterMap Reading.value)

end Reading

namespace Lexeme

mutual

/-- The reading of a lexeme. -/
def reading : Lexeme → Reading
  | .word s => .ofWord s
  | .mark v => ⟨none, some v⟩
  | .group inner => ⟨none, Reading.assemble (readings inner)⟩

/-- The readings of lexemes. -/
def readings : List Lexeme → List Reading
  | [] => []
  | t :: ts => t.reading :: readings ts

end

theorem readings_eq_map (ts : List Lexeme) : readings ts = ts.map reading := by
  induction ts with
  | nil => rfl
  | cons t ts ih => rw [readings, ih, List.map_cons]

/-- An operand is read as its lexemes are. -/
theorem value_grouped (ts : List Lexeme) :
    (grouped ts).reading.value = Reading.assemble (readings ts) := by
  fun_cases grouped ts with
  | case1 t => rfl
  | case2 ts h => rfl

end Lexeme

/-- No two heads have the same words. -/
theorem nodup_words : (frames.map fun e => e.2.words).Nodup := by
  decide

namespace Reading

theorem head?_words {e : String × Frame} (he : e ∈ frames) :
    head? (e.2.words.map some) = some e := by
  have hinj : ∀ f ∈ frames, f.2.words.map some = e.2.words.map some → f = e := by
    intro f hf hwords
    have hsome : Function.Injective (some : String → Option String) :=
      fun _ _ h => Option.some.inj h
    exact List.inj_on_of_nodup_map nodup_words hf he (List.map_injective_iff.mpr hsome hwords)
  cases hfind : head? (e.2.words.map some) with
  | none =>
    have hnone := List.find?_eq_none.mp hfind e he
    simp at hnone
  | some f =>
    have hmem := List.mem_of_find?_eq_some hfind
    have hwords := List.find?_some hfind
    rw [hinj f hmem (beq_iff_eq.mp hwords)]

theorem ofChain_chainTail (op conj y : Reading) (rest : List Reading) :
    ofChain (Frame.chainTail op conj y rest) = y :: rest := by
  induction rest generalizing y with
  | nil => rfl
  | cons z rest ih => rw [Frame.chainTail, ofChain, ih]

theorem ofJoined_joinTail (op y : Reading) (rest : List Reading) :
    ofJoined (Frame.joinTail op y rest) = y :: rest := by
  induction rest generalizing y with
  | nil => rfl
  | cons z rest ih => rw [Frame.joinTail, ofJoined, ih]

/-- Words of a head stand alone or in pairs. -/
theorem words_cases {e : String × Frame} (he : e ∈ frames) :
    (∃ w, e.2.words = [w]) ∨ ∃ v w, e.2.words = [v, w] := by
  rcases (words_of_mem e he).2 with h | h
  · exact .inl (List.length_eq_one_iff.mp h)
  · exact .inr (List.length_eq_two.mp h)

/-- **A head and its operands are found again among their lexemes**, whatever words the operands
may be. -/
theorem dissect_arrange {op : String} {frame : Frame} (he : (op, frame) ∈ frames)
    {xs : List Reading} (h : frame.Fits xs) :
    dissect (frame.arrange ofWord xs) = some (op, xs) := by
  have hhead : head? (frame.words.map some) = some (op, frame) := head?_words he
  cases h with
  | before w x =>
    have hw : head? [(ofWord w).word] = some (op, .before w) := hhead
    simp [Frame.arrange, dissect, hw]
  | pair ws x y =>
    rcases words_cases he with ⟨w, hws⟩ | ⟨v, w, hws⟩
    · cases hws
      have hw : head? [(ofWord w).word] = some (op, .pair [w]) := hhead
      simp [Frame.arrange, dissect, hw, others]
    · cases hws
      have hw : head? [(ofWord v).word, (ofWord w).word] = some (op, .pair [v, w]) := hhead
      simp [Frame.arrange, dissect, hw]
  | range ws x y z =>
    rcases words_cases he with ⟨w, hws⟩ | ⟨v, w, hws⟩
    · cases hws
      have hw : head? [(ofWord w).word] = some (op, .range [w]) := hhead
      simp [Frame.arrange, dissect, hw, others]
    · cases hws
      have hw : head? [(ofWord v).word, (ofWord w).word] = some (op, .range [v, w]) := hhead
      simp [Frame.arrange, dissect, hw]
  | chain w x y rest =>
    have hw : head? [(ofWord w).word] = some (op, .chain w) := hhead
    -- With one pair there are three lexemes, with more of them at least seven.
    have hdissect : dissect (Frame.arrange ofWord (.chain w) (x :: y :: rest)) =
        (head? [(ofWord w).word]).map fun e =>
          (e.1, x :: others e.2 (Frame.chainTail (ofWord w) (ofWord "AND") y rest)) := by
      cases rest with
      | nil => rfl
      | cons z rest => cases rest <;> rfl
    rw [hdissect, hw, Option.map_some, others, ofChain_chainTail]
  | joined w x y rest =>
    have hw : head? [(ofWord w).word] = some (op, .joined w) := hhead
    -- Three, five, or at least seven lexemes.
    have hdissect : dissect (Frame.arrange ofWord (.joined w) (x :: y :: rest)) =
        (head? [(ofWord w).word]).map fun e =>
          (e.1, x :: others e.2 (Frame.joinTail (ofWord w) y rest)) := by
      cases rest with
      | nil => rfl
      | cons z rest =>
        cases rest with
        | nil => rfl
        | cons u rest => cases rest <;> rfl
    rw [hdissect, hw, Option.map_some, others, ofJoined_joinTail]

theorem assemble_arrange {op : String} {frame : Frame} (he : (op, frame) ∈ frames)
    {xs : List Reading} (h : frame.Fits xs) :
    assemble (frame.arrange ofWord xs) = some (.call op (xs.filterMap Reading.value)) := by
  have hdissect := dissect_arrange he h
  have hassemble : assemble (frame.arrange ofWord xs) =
      (dissect (frame.arrange ofWord xs)).map fun e => .call e.1 (e.2.filterMap Reading.value) := by
    cases h with
    | before w x => rfl
    | pair ws x y => cases ws <;> rfl
    | range ws x y z => cases ws <;> rfl
    | chain w x y rest => rfl
    | joined w x y rest => rfl
  rw [hassemble, hdissect]
  rfl

end Reading

namespace Value

/-- **The norm of a formula can be read off its lexemes.** -/
theorem assemble_lexemes {v : Value} (h : v.isFormula = true) :
    Reading.assemble (Lexeme.readings v.lexemes) = some v.norm := by
  refine formula_induction ?name ?literal ?head v h
  case name =>
    intro s _
    rfl
  case literal =>
    intro v hv
    rw [lexemes_literal hv, norm_literal hv]
    rfl
  case head =>
    intro op args htakes ih
    rw [norm_call, lexemes_call]
    rcases fits_of_takes htakes with ⟨hone, v, hv⟩ | ⟨frame, hop, hfits⟩
    · rw [hv, List.map_singleton, List.map_singleton, collapse_single hone, collapse_single hone]
      exact (ih v (by simp [hv])).2
    · have hvalues : ((operandsOf op args).map
          fun v => v.operand.reading).filterMap Reading.value =
            (operandsOf op args).map norm := by
        rw [List.filterMap_map, ← List.filterMap_eq_map]
        refine List.filterMap_congr fun v hv => ?_
        exact (Lexeme.value_grouped v.lexemes).trans (ih v hv).2
      rw [collapse_of_fits hop hfits _ (List.length_map _),
        collapse_of_fits hop hfits _ (List.length_map _), framed_eq hop, Lexeme.readings_eq_map,
        Frame.map_arrange _ _ (hfits.map _), List.map_map, ← hvalues]
      exact Reading.assemble_arrange (Table.mem_of_get? hop) (hfits.map _)

end Value
end Clausal
