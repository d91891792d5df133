import Clausal.Proofs.Draft.Format
import Clausal.Proofs.Literal

/-! # Values in the text

Writing values into the text puts each literal where the placeholder of its
parameter would stand, and changes nothing else (`Grammar.inlining_substitutes`).

The two runs settle one draft.  Where the first one leaves a slot, the second one
leaves the literal of its value (`Draft.settle_inlined`), so a literal that cannot
be written is the only new way to fail.  The empty name is the one value whose
literal is empty text; a part that holds nothing else is dropped, so it has to be
excluded (`Draft.solid_inlined`).
-/
namespace Clausal

/-- The literal of a bound value. -/
def Slot.inlined : Slot → Except Fault Spot
  | .literal v => v.literal.map .text
  | .named name => .error (.missingParam name)

namespace Settled

/-- Every bound value written into the text. -/
def inlined (r : Settled) : Except Fault Settled := substitute Slot.inlined r

theorem inlined_append (a b : Settled) :
    inlined (a ++ b) = (do return (← inlined a) ++ (← inlined b)) := substitute_append _ a b

theorem inlined_parens (r : Settled) : inlined (parens r) = (inlined r).map parens :=
  substitute_parens _ r

theorem inlined_text_cons (s : String) (r : Settled) :
    inlined (.text s :: r) = (inlined r).map (.text s :: ·) := rfl

theorem inlined_literal_cons (v : Value) (r : Settled) :
    inlined (.slot (.literal v) :: r) = (do
      let s ← v.literal
      let rest ← inlined r
      return .text s :: rest) := by
  rw [inlined, substitute, Slot.inlined]
  cases v.literal <;> rfl

/-- Literals take the place of slots, unless a value is the empty name. -/
theorem isEmpty_inlined {r q : Settled} (hliteral : r.Literal) (h : inlined r = .ok q)
    (hr : ∀ v ∈ r.values, v ≠ .ident "") : q.isEmpty = r.isEmpty := by
  induction r generalizing q with
  | nil => cases h; rfl
  | cons spot r ih =>
    cases spot with
    | text s =>
      obtain ⟨q, hq, rfl⟩ := map_eq_ok.mp h
      exact congrArg (s.isEmpty && ·) (ih hliteral hq hr)
    | slot slot =>
      obtain ⟨⟨v, rfl⟩, -⟩ := literal_slot_cons hliteral
      rw [inlined_literal_cons] at h
      obtain ⟨s, hs, h⟩ := bind_eq_ok.mp h
      obtain ⟨q, -, h⟩ := bind_eq_ok.mp h
      cases h
      have hs' : s ≠ "" := by
        rintro rfl
        exact Value.literal_ne_empty (hr v List.mem_cons_self) hs
      simp [isEmpty, hs']

/-- Writing the values into the text fails exactly where a literal does. -/
theorem exists_inlined_iff {r : Settled} (hr : r.Literal) :
    (∃ q, inlined r = .ok q) ↔ ∀ v ∈ r.values, ∃ s, v.literal = .ok s := by
  induction r with
  | nil => exact ⟨fun _ v hv => (List.not_mem_nil hv).elim, fun _ => ⟨[], rfl⟩⟩
  | cons spot r ih =>
    cases spot with
    | text s =>
      rw [show values (.text s :: r) = values r from rfl, ← ih hr]
      constructor
      · rintro ⟨q, hq⟩
        obtain ⟨q, hq, -⟩ := map_eq_ok.mp hq
        exact ⟨q, hq⟩
      · rintro ⟨q, hq⟩
        exact ⟨.text s :: q, map_eq_ok.mpr ⟨q, hq, rfl⟩⟩
    | slot slot =>
      obtain ⟨⟨v, rfl⟩, hrest⟩ := literal_slot_cons hr
      have hvalues : values (.slot (.literal v) :: r) = v :: values r := rfl
      rw [hvalues, List.forall_mem_cons, ← ih hrest, inlined_literal_cons]
      constructor
      · rintro ⟨q, hq⟩
        obtain ⟨s, hs, hq⟩ := bind_eq_ok.mp hq
        obtain ⟨q, hq, -⟩ := bind_eq_ok.mp hq
        exact ⟨⟨s, hs⟩, q, hq⟩
      · rintro ⟨⟨s, hs⟩, q, hq⟩
        exact ⟨.text s :: q, by rw [hs, hq]; rfl⟩

/-- The text with the literals in it is woven from the same segments. -/
theorem weave_inlined {r q : Settled} (hr : r.Literal) (h : inlined r = .ok q) :
    q.values = [] ∧ ∃ literals, r.values.map Value.literal = literals.map .ok ∧
      weave q.outline.first q.outline.rest [] =
        weave r.outline.first r.outline.rest literals := by
  induction r generalizing q with
  | nil =>
    cases h
    exact ⟨rfl, [], rfl, rfl⟩
  | cons spot r ih =>
    cases spot with
    | text s =>
      obtain ⟨q, hq, rfl⟩ := map_eq_ok.mp h
      obtain ⟨hvalues, literals, hlit, hweave⟩ := ih hr hq
      refine ⟨hvalues, literals, hlit, ?_⟩
      exact (Outline.weave_some_cons s (outline q) []).trans
        ((congrArg (s ++ ·) hweave).trans (Outline.weave_some_cons s (outline r) literals).symm)
    | slot slot =>
      obtain ⟨⟨v, rfl⟩, hrest⟩ := literal_slot_cons hr
      rw [inlined_literal_cons] at h
      obtain ⟨s, hs, h⟩ := bind_eq_ok.mp h
      obtain ⟨q, hq, h⟩ := bind_eq_ok.mp h
      cases h
      obtain ⟨hvalues, literals, hlit, hweave⟩ := ih hrest hq
      refine ⟨hvalues, s :: literals, ?_, ?_⟩
      · exact congr (congrArg List.cons hs) hlit
      · exact (Outline.weave_some_cons s (outline q) []).trans
          ((congrArg (s ++ ·) hweave).trans (Outline.weave_none_cons s (outline r) literals).symm)

end Settled

/-- Two contexts that differ in one writing values into the text, and bind nothing by
name. -/
structure Context.Inlines (c c' : Context) : Prop where
  inline : c.inline = false
  inline' : c'.inline = true
  caching : c.caching = false
  caching' : c'.caching = false
  params : c.params = c'.params

namespace Token
variable {c c' : Context}

theorem send_inlined (h : c.Inlines c') {v : Value} {r : Settled} (hr : send c v = .ok r) :
    send c' v = r.inlined := by
  rw [send_of_not_inline h.inline] at hr
  cases hr
  rw [send, h.inline', Settled.inlined_literal_cons]
  cases v.literal <;> rfl

theorem sendAll_inlined (h : c.Inlines c') {vs : List Value} {r : Settled}
    (hr : sendAll c vs = .ok r) : sendAll c' vs = r.inlined := by
  fun_induction sendAll c vs generalizing r with
  | case1 => cases hr; rfl
  | case2 v => exact send_inlined h hr
  | case3 v vs hne ih =>
    obtain ⟨a, ha, hr⟩ := bind_eq_ok.mp hr
    obtain ⟨b, hb, hr⟩ := bind_eq_ok.mp hr
    cases hr
    rw [sendAll_cons c' v hne, send_inlined h ha, ih hb, Settled.inlined_append,
      Settled.inlined_text_cons]
    cases a.inlined <;> cases b.inlined <;> rfl

theorem settle_inlined (h : c.Inlines c') {t : Token} {r : Settled} (hr : t.settle c = .ok r) :
    t.settle c' = r.inlined := by
  have hlookup : lookup c = lookup c' := by
    funext name
    rw [lookup, lookup, h.params]
  cases t with
  | text s => cases hr; rfl
  | value v => exact send_inlined h hr
  | named name =>
    rw [settle, h.caching, Bool.false_and] at hr
    rw [settle, h.caching', Bool.false_and, ← hlookup]
    obtain ⟨v, hv, hr⟩ := bind_eq_ok.mp hr
    rw [hv]
    exact send_inlined h hr
  | namedList name =>
    rw [settle, h.caching] at hr
    rw [settle, h.caching', ← hlookup]
    obtain ⟨v, hv, hr⟩ := bind_eq_ok.mp hr
    obtain ⟨q, hq, rfl⟩ := map_eq_ok.mp hr
    rw [hv, Settled.inlined_parens, ← sendAll_inlined h hq]
    rfl
  | fault e => cases hr

end Token

namespace Draft
variable {c c' : Context}

/-- **Literals stand where the slots would.** -/
theorem settle_inlined (h : c.Inlines c') {d : Draft} {r : Settled} (hr : settle c d = .ok r) :
    settle c' d = r.inlined :=
  settle_substitute (fun _ _ => Token.settle_inlined h) hr

/-- What a token of the draft settles to is part of what the draft settles to. -/
theorem settle_of_mem {d : Draft} {r : Settled} (hr : settle c d = .ok r) {t : Token}
    (ht : t ∈ d) : ∃ q, t.settle c = .ok q ∧ ∀ v ∈ q.values, v ∈ r.values := by
  induction d generalizing r with
  | nil => cases ht
  | cons u d ih =>
    obtain ⟨a, ha, hr⟩ := bind_eq_ok.mp hr
    obtain ⟨b, hb, hr⟩ := bind_eq_ok.mp hr
    cases hr
    rw [Settled.values_append]
    rcases List.mem_cons.mp ht with rfl | ht
    · exact ⟨a, ha, fun v hv => List.mem_append_left _ hv⟩
    · obtain ⟨q, hq, hsub⟩ := ih hb ht
      exact ⟨q, hq, fun v hv => List.mem_append_right _ (hsub v hv)⟩

/-- Without the empty name among the values, no literal is empty text. -/
theorem solid_inlined (h : c.Inlines c') {d : Draft} {r : Settled} (hr : settle c d = .ok r)
    (hvalues : ∀ v ∈ r.values, v ≠ .ident "") : Solid c' d := by
  intro t ht q hq
  -- The literals of a token are those of its slots, which are among the slots of the draft.
  obtain ⟨a, ha, hsub⟩ := settle_of_mem hr ht
  rw [Token.settle_inlined h ha] at hq
  rw [Settled.isEmpty_inlined (Token.settle_literal h.caching ha) hq
    fun v hv => hvalues v (hsub v hv)]
  exact Token.isEmpty_settle h.inline ha

end Draft

namespace Grammar

/-- **Writing values into the text is substitution into the placeholders.**  If a
statement of the standard grammar can be written with placeholders, and no bound value
is the empty name, then it can be written with its values in the text exactly when each of
them has a literal, and that text is the one with placeholders, with the literals in
their places. -/
theorem inlining_substitutes (s : Statement) (o : Options) {text : String} {params : List Value}
    (h : standard.format s { o with inline := false, numbered := false } = .ok ⟨text, params⟩)
    (hparams : ∀ p ∈ params, p ≠ .ident "") :
    ((∃ f, standard.format s { o with inline := true } = .ok f) ↔
      ∀ p ∈ params, ∃ t, p.literal = .ok t) ∧
    ∃ (first : String) (rest : List String), rest.length = params.length ∧
      text = weave first rest (Placeholder.positional.marks params.length) ∧
      standard.format s { o with inline := false, numbered := true } =
        .ok ⟨weave first rest (Placeholder.numbered.marks params.length), params⟩ ∧
      ∀ f, standard.format s { o with inline := true } = .ok f →
        f.params = [] ∧ ∃ literals, params.map Value.literal = literals.map .ok ∧
          f.sql = weave first rest literals := by
  obtain ⟨d, r, hd, hr, hf⟩ := standard_plain.exists_settled rfl h
  cases hf
  have hinlines : (standard.context { o with inline := false, numbered := false } d false).Inlines
      (standard.context { o with inline := true } d false) := ⟨rfl, rfl, rfl, rfl, rfl⟩
  have hliteral := Draft.settle_literal rfl hr
  -- Dialect and checks do not depend on how values are written, so `d` serves all three runs.
  have hnumbered : standard.format s { o with inline := false, numbered := true } =
      .ok (r.formatted { o with inline := false, numbered := true }) := by
    have hagree : Token.Agree
        (standard.context { o with inline := false, numbered := true } d false)
        (standard.context { o with inline := false, numbered := false } d false) :=
      ⟨rfl, rfl, rfl⟩
    have hd' : standard.admissible s { o with inline := false, numbered := true } = .ok d := hd
    rw [standard_plain.format_settled hd' (Draft.solid_of_not_inline rfl _)]
    exact congrArg (Except.map _) ((Draft.settle_congr hagree _).trans hr)
  have hinline : standard.format s { o with inline := true } =
      r.inlined.map (Settled.formatted { o with inline := true }) := by
    have hd' : standard.admissible s { o with inline := true } = .ok d := hd
    rw [standard_plain.format_settled hd' (Draft.solid_inlined hinlines hr hparams)]
    exact congrArg (Except.map _) (Draft.settle_inlined hinlines hr)
  rw [hinline, hnumbered]
  refine ⟨?_, r.outline.first, r.outline.rest, ?_, rfl, rfl, ?_⟩
  · refine Iff.trans ?_ (Settled.exists_inlined_iff hliteral)
    constructor
    · rintro ⟨f, hf⟩
      obtain ⟨q, hq, -⟩ := map_eq_ok.mp hf
      exact ⟨q, hq⟩
    · rintro ⟨q, hq⟩
      exact ⟨_, map_eq_ok.mpr ⟨q, hq, rfl⟩⟩
  · rw [Settled.length_rest, hliteral.length_values]
  · intro f hf
    obtain ⟨q, hq, rfl⟩ := map_eq_ok.mp hf
    obtain ⟨hvalues, literals, hlit, hweave⟩ := Settled.weave_inlined hliteral hq
    refine ⟨hvalues, literals, hlit, ?_⟩
    rw [← hweave, Settled.formatted, hvalues]
    cases ({ o with inline := true } : Options).placeholder <;> rfl

/-- A row of a value and a named parameter can be written with both in the text. -/
theorem inlining_substitutes_row :
    standard.format [("values", .seq [.seq [.int 5, .ident "?name"]])]
        { dialect := some (.custom .ansi), params := [("name", .str "it's")] } =
      .ok ⟨"VALUES (?, ?)", [.int 5, .str "it's"]⟩ ∧
    (∀ p ∈ [Value.int 5, .str "it's"], p ≠ .ident "") ∧
    ∃ f, standard.format [("values", .seq [.seq [.int 5, .ident "?name"]])]
        { dialect := some (.custom .ansi), params := [("name", .str "it's")], inline := true } =
      .ok f := by
  have h : standard.format [("values", .seq [.seq [.int 5, .ident "?name"]])]
      { dialect := some (.custom .ansi), params := [("name", .str "it's")] } =
        .ok ⟨"VALUES (?, ?)", [.int 5, .str "it's"]⟩ := by
    have hd : standard.admissible [("values", .seq [.seq [.int 5, .ident "?name"]])]
        { dialect := some (.custom .ansi), params := [("name", .str "it's")] } = .ok .ansi := rfl
    rw [standard_plain.format_settled hd (Draft.solid_of_not_inline rfl _),
      draftStatement_single rfl]
    rfl
  have hp : ∀ p ∈ [Value.int 5, .str "it's"], p ≠ .ident "" := by simp
  refine ⟨h, hp, (inlining_substitutes _
    { dialect := some (.custom .ansi), params := [("name", .str "it's")] } h hp).1.mpr ?_⟩
  simp [Value.literal]

end Grammar
end Clausal
