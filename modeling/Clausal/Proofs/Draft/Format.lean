import Clausal.Engine
import Clausal.Proofs.Draft.Evaluation

/-! # Formatting through drafts

What `Grammar.format` and `Grammar.formatExpr` give, under a plain grammar, is the
draft of the statement or expression, settled in the context of the options and
then written out (`Plain.format_eq`, `Plain.formatExpr_eq`).  Both are instances of
`formatDraft`, so that what holds of a settled draft is said once for both.

The text is then described by its *segments*: an outline with `n` parameters has
a first segment and `n` further ones, and any way of writing parameters puts one
mark before each of the further segments (`Settled.kept_sql`).
-/
namespace Clausal

/-- A first segment, then further segments with a mark before each of them. -/
def weave (first : String) (rest marks : List String) : String :=
  first ++ String.join (List.zipWith (· ++ ·) marks rest)

/-- The marks of `n` parameters from left to right. -/
def Placeholder.marks : Placeholder → Nat → List String
  | .positional, n => List.replicate n "?"
  | .numbered, n => (List.range n).map fun k => "$" ++ Nat.repr (k + 1)

namespace Outline

/-- The text before the first parameter. -/
def first : Outline → String
  | [] => ""
  | some s :: rest => s ++ first rest
  | none :: _ => ""

/-- The texts after each parameter, up to the next one. -/
def rest : Outline → List String
  | [] => []
  | some _ :: o => rest o
  | none :: o => first o :: rest o

theorem weave_some_cons (s : String) (o : Outline) (marks : List String) :
    weave (first (some s :: o)) (rest (some s :: o)) marks =
      s ++ weave (first o) (rest o) marks := by
  simp [weave, first, rest, String.append_assoc]

theorem weave_none_cons (mark : String) (o : Outline) (marks : List String) :
    weave (first (none :: o)) (rest (none :: o)) (mark :: marks) =
      mark ++ weave (first o) (rest o) marks := by
  simp [weave, first, rest, String.append_assoc]

/-- However holes are written, the text is woven from the segments. -/
theorem render_number (p : Placeholder) (k : Nat) (o : Outline) :
    (o.number k).render p =
      weave (first o) (rest o)
        ((List.range' (k + 1) (rest o).length).map fun i => (Piece.hole i).render p) := by
  induction o generalizing k with
  | nil => rfl
  | cons x o ih =>
    have hcons : ∀ (piece : Piece) (sql : Sql),
        Sql.render p (piece :: sql) = piece.render p ++ Sql.render p sql := by
      intro piece sql
      simp [Sql.render]
    cases x with
    | some s =>
      rw [number, hcons, ih, weave_some_cons]
      rfl
    | none =>
      rw [number, hcons, ih, rest, List.length_cons, List.range'_succ, List.map_cons,
        ← weave_none_cons]
      rfl

end Outline

theorem Placeholder.marks_eq (p : Placeholder) (n : Nat) :
    p.marks n = (List.range' 1 n).map fun i => (Piece.hole i).render p := by
  cases p with
  | positional => simp [marks, Piece.render, List.map_const']
  | numbered => simp [marks, Piece.render, List.range'_eq_map_range, Nat.add_comm]

namespace Settled

/-- Settled text as it is kept. -/
def kept (o : Options) (r : Settled) : Kept := ⟨(r.sql 0).render o.placeholder, r.slots⟩

theorem length_rest (r : Settled) : r.outline.rest.length = r.slots.length := by
  induction r with
  | nil => rfl
  | cons spot r ih =>
    cases spot with
    | text s => exact ih
    | slot slot => exact congrArg (· + 1) ih

/-- **The text is its segments with one mark for each slot between them.** -/
theorem kept_sql (o : Options) (r : Settled) :
    (r.kept o).sql =
      weave r.outline.first r.outline.rest (o.placeholder.marks r.slots.length) := by
  rw [kept, sql, Outline.render_number, length_rest, Placeholder.marks_eq]

/-- The values that are bound. -/
def values (r : Settled) : List Value :=
  r.slots.filterMap fun
    | .literal v => some v
    | .named _ => none

/-- Nothing is bound by name. -/
def Literal (r : Settled) : Prop := r.slots = r.values.map Slot.literal

theorem values_append (a b : Settled) : (a ++ b).values = a.values ++ b.values := by
  simp [values]

theorem Literal.append {a b : Settled} (ha : a.Literal) (hb : b.Literal) : (a ++ b).Literal := by
  rw [Literal, slots_append, values_append, List.map_append, ← ha, ← hb]

theorem literal_slot_cons {slot : Slot} {r : Settled} (h : Literal (.slot slot :: r)) :
    (∃ v, slot = .literal v) ∧ r.Literal := by
  cases slot with
  | literal v => exact ⟨⟨v, rfl⟩, (List.cons.inj h).2⟩
  | named name =>
    have hmem : Slot.named name ∈ (values (.slot (.named name) :: r)).map Slot.literal := by
      rw [← h]
      exact List.mem_cons_self
    obtain ⟨v, -, hv⟩ := List.mem_map.mp hmem
    cases hv

theorem Literal.length_values {r : Settled} (h : r.Literal) :
    r.values.length = r.slots.length := by
  rw [h, List.length_map]

/-- Settled text as it is handed out. -/
def formatted (o : Options) (r : Settled) : Formatted :=
  ⟨weave r.outline.first r.outline.rest (o.placeholder.marks r.values.length), r.values⟩

end Settled

namespace Token

theorem send_literal {c : Context} {v : Value} {r : Settled} (h : send c v = .ok r) :
    r.Literal := by
  unfold send at h
  split at h
  · obtain ⟨s, -, rfl⟩ := map_eq_ok.mp h
    rfl
  · cases h
    rfl

theorem sendAll_literal {c : Context} {vs : List Value} {r : Settled}
    (h : sendAll c vs = .ok r) : r.Literal := by
  fun_induction sendAll c vs generalizing r with
  | case1 => cases h; rfl
  | case2 v => exact send_literal h
  | case3 v vs hne ih =>
    obtain ⟨a, ha, h⟩ := bind_eq_ok.mp h
    obtain ⟨b, hb, h⟩ := bind_eq_ok.mp h
    cases h
    have hl : Settled.Literal b := ih hb
    exact (send_literal ha).append hl

/-- Only a context that keeps its result binds by name. -/
theorem settle_literal {c : Context} (hc : c.caching = false) {t : Token} {r : Settled}
    (h : t.settle c = .ok r) : r.Literal := by
  cases t with
  | text s => cases h; rfl
  | value v => exact send_literal h
  | named name =>
    rw [settle, hc, Bool.false_and] at h
    obtain ⟨v, -, hv⟩ := bind_eq_ok.mp h
    exact send_literal hv
  | namedList name =>
    rw [settle, hc] at h
    obtain ⟨v, -, hv⟩ := bind_eq_ok.mp h
    obtain ⟨q, hq, rfl⟩ := map_eq_ok.mp hv
    have hl := sendAll_literal hq
    simpa [Settled.Literal, Settled.values] using hl
  | fault e => cases h

end Token

theorem Draft.settle_literal {c : Context} (hc : c.caching = false) {d : Draft} {r : Settled}
    (h : settle c d = .ok r) : r.Literal := by
  induction d generalizing r with
  | nil => cases h; rfl
  | cons t d ih =>
    obtain ⟨a, ha, h⟩ := bind_eq_ok.mp h
    obtain ⟨b, hb, h⟩ := bind_eq_ok.mp h
    cases h
    exact (Token.settle_literal hc ha).append (ih hb)

/-! ### Slots filled in

Settled text that is handed out, or written with its values, has something else in the place of each
slot and is the same everywhere else.
-/

namespace Settled

/-- Something else in the place of each slot. -/
def substitute (f : Slot → Except Fault Spot) : Settled → Except Fault Settled
  | [] => .ok []
  | .text s :: r => (substitute f r).map (.text s :: ·)
  | .slot slot :: r => do
    let spot ← f slot
    let rest ← substitute f r
    return spot :: rest

variable (f : Slot → Except Fault Spot)

theorem substitute_append (a b : Settled) :
    substitute f (a ++ b) = (do return (← substitute f a) ++ (← substitute f b)) := by
  fun_induction substitute f a with
  | case1 => cases h : substitute f b <;> simp [h, bind, Except.bind, pure, Except.pure]
  | case2 s a ih =>
    rw [List.cons_append, substitute, ih]
    cases substitute f a <;> cases substitute f b <;> rfl
  | case3 slot a ih =>
    rw [List.cons_append, substitute, ih]
    cases f slot <;> cases substitute f a <;> cases substitute f b <;> rfl

theorem substitute_parens (r : Settled) :
    substitute f (parens r) = (substitute f r).map parens := by
  have h : parens r = [.text "("] ++ r ++ [.text ")"] := rfl
  rw [h, substitute_append, substitute_append]
  cases substitute f r <;> rfl

end Settled

/-- If one context makes of every token what another one makes of it, but for its slots,
then so it is for drafts. -/
theorem Draft.settle_substitute {c c' : Context} {f : Slot → Except Fault Spot}
    (h : ∀ (t : Token) (r : Settled), t.settle c = .ok r → t.settle c' = r.substitute f)
    {d : Draft} {r : Settled} (hr : settle c d = .ok r) : settle c' d = r.substitute f := by
  induction d generalizing r with
  | nil => cases hr; rfl
  | cons t d ih =>
    obtain ⟨a, ha, hr⟩ := bind_eq_ok.mp hr
    obtain ⟨b, hb, hr⟩ := bind_eq_ok.mp hr
    cases hr
    rw [settle_cons, h t a ha, ih hb, Settled.substitute_append]

/-- The value of a slot, with a name looked up. -/
def Slot.resolved (params : Table Value) : Slot → Except Fault Value
  | .literal v => .ok v
  | .named name =>
    match Table.get? name params with
    | some v => .ok v
    | none => .error (.missingParam name)

theorem resolveSlots_cons (params : Table Value) (slot : Slot) (rest : List Slot) :
    resolveSlots params (slot :: rest) =
      (do return (← slot.resolved params) :: (← resolveSlots params rest)) := by
  cases slot with
  | literal v => rfl
  | named name =>
    rw [resolveSlots, Slot.resolved]
    cases Table.get? name params <;> rfl

namespace Settled

/-- Names looked up, so that every slot holds a value. -/
def resolved (params : Table Value) (r : Settled) : Except Fault Settled :=
  substitute (fun slot => (slot.resolved params).map fun v => .slot (.literal v)) r

theorem resolved_slot_cons (params : Table Value) (slot : Slot) (r : Settled) :
    resolved params (.slot slot :: r) = (do
      let v ← slot.resolved params
      let rest ← resolved params r
      return .slot (.literal v) :: rest) := by
  rw [resolved, substitute]
  cases slot.resolved params <;> rfl

theorem resolved_of_literal (params : Table Value) {r : Settled} (h : r.Literal) :
    resolved params r = .ok r := by
  induction r with
  | nil => rfl
  | cons spot r ih =>
    cases spot with
    | text s =>
      have hrest : resolved params r = .ok r := ih h
      exact congrArg (Except.map (Spot.text s :: ·)) hrest
    | slot slot =>
      obtain ⟨⟨v, rfl⟩, hrest⟩ := literal_slot_cons h
      rw [resolved_slot_cons, ih hrest]
      rfl

/-- Looking names up fills slots and moves none of them. -/
theorem resolved_outline {params : Table Value} {r q : Settled} (h : resolved params r = .ok q) :
    q.outline = r.outline ∧ q.Literal := by
  induction r generalizing q with
  | nil =>
    cases h
    exact ⟨rfl, rfl⟩
  | cons spot r ih =>
    cases spot with
    | text s =>
      obtain ⟨q, hq, rfl⟩ := map_eq_ok.mp h
      obtain ⟨hout, hliteral⟩ := ih hq
      exact ⟨congrArg (some s :: ·) hout, hliteral⟩
    | slot slot =>
      rw [resolved_slot_cons] at h
      obtain ⟨v, -, h⟩ := bind_eq_ok.mp h
      obtain ⟨q, hq, h⟩ := bind_eq_ok.mp h
      cases h
      obtain ⟨hout, hliteral⟩ := ih hq
      exact ⟨congrArg (none :: ·) hout, congrArg (Slot.literal v :: ·) hliteral⟩

theorem resolveSlots_slots (params : Table Value) (r : Settled) :
    resolveSlots params r.slots = (resolved params r).map values := by
  induction r with
  | nil => rfl
  | cons spot r ih =>
    cases spot with
    | text s =>
      have hcons : resolved params (.text s :: r) =
          (resolved params r).map (.text s :: ·) := rfl
      rw [slots_text_cons, ih, hcons]
      cases resolved params r <;> rfl
    | slot slot =>
      have hslots : slots (.slot slot :: r) = slot :: slots r := rfl
      rw [hslots, resolveSlots_cons, ih, resolved_slot_cons]
      cases slot.resolved params <;> cases resolved params r <;> rfl

/-- **Handing out what was kept is looking its names up.** -/
theorem finish_kept (o : Options) (r : Settled) :
    Grammar.finish o (r.kept o) = (resolved o.params r).map (formatted o) := by
  have hslots : (r.kept o).slots = r.slots := rfl
  rw [Grammar.finish, hslots, resolveSlots_slots, kept_sql]
  cases hq : resolved o.params r with
  | error e => rfl
  | ok q =>
    obtain ⟨hout, hliteral⟩ := resolved_outline hq
    have hlength : q.values.length = r.slots.length := by
      rw [hliteral.length_values, ← length_rest, ← length_rest, hout]
    simp only [Except.map, formatted, bind, Except.bind, pure, Except.pure, hout, hlength]

end Settled

namespace Grammar
variable {g : Grammar}

/-- The outcome for a draft, once the dialect is known. -/
def formatDraft (g : Grammar) (o : Options) (d : Dialect) (draft : Shape → Draft) :
    Except Fault Formatted :=
  ((Draft.settle (g.context o d false) (draft (g.context o d false).shape)).map
    (Settled.kept o)).bind (finish o)

/-- The outcome for a draft is its settled text, written out. -/
theorem formatDraft_eq (g : Grammar) (o : Options) (d : Dialect) (draft : Shape → Draft) :
    g.formatDraft o d draft =
      (Draft.settle (g.context o d false) (draft (g.context o d false).shape)).map
        (Settled.formatted o) := by
  unfold formatDraft
  cases h : Draft.settle (g.context o d false) (draft (g.context o d false).shape) with
  | error e => rfl
  | ok r =>
    have hfinish := Settled.finish_kept o r
    rw [Settled.resolved_of_literal o.params (Draft.settle_literal rfl h)] at hfinish
    exact hfinish

theorem keep_of_yields {x : Run Sql} {p : Except Fault Settled} (o : Options)
    (h : x.Yields {} p) : keep o x = p.map (Settled.kept o) := by
  unfold keep
  cases p with
  | error e =>
    obtain ⟨bound, hx⟩ := h []
    simp [ExceptT.run, hx, Except.map]
  | ok r =>
    simp [ExceptT.run, h [], Except.map, Settled.kept]

/-- The dialect of an expression; a statement must pass the checks. -/
def admissibleExpr (g : Grammar) (v : Value) (o : Options) : Except Fault Dialect :=
  match v with
  | .map s => g.admissible s o
  | _ => g.resolveDialect o

theorem mem_dialects {o : Options} {d : Dialect} (ho : o.isCustom = false)
    (h : g.resolveDialect o = .ok d) : ∃ name, (name, d) ∈ g.dialects := by
  have hmem : ∀ name, g.dialect? name = some d → ∃ key, (key, d) ∈ g.dialects := by
    intro name hname
    unfold dialect? at hname
    split at hname
    · exact ⟨_, Table.mem_of_get? hname⟩
    · cases hname
  unfold resolveDialect at h
  split at h
  · rename_i hcustom
    simp [Options.isCustom, hcustom] at ho
  · split at h
    · rename_i hname
      cases h
      exact hmem _ hname
    · cases h
  · split at h
    · rename_i hname
      cases h
      exact hmem _ hname
    · cases h

/-- A dialect that is asked for by name is a built-in one, under the standard grammar. -/
theorem mem_builtin_of_resolveDialect {o : Options} {d : Dialect} (ho : o.isCustom = false)
    (h : standard.resolveDialect o = .ok d) : d ∈ Dialect.builtin := by
  obtain ⟨name, hmem⟩ := mem_dialects ho h
  obtain ⟨d', hd', heq⟩ := List.mem_map.mp hmem
  cases heq
  exact hd'

theorem registryKey_default : registryKey Dialect.defaultName = .ok Dialect.defaultName :=
  eq_ok_of_toOption (by decide +kernel)

theorem dialect?_of_key {name key : String} (hkey : registryKey name = .ok key) :
    g.dialect? name = Table.get? key g.dialects := by
  unfold dialect?
  rw [hkey]

/-- Without a choice the standard is meant. -/
theorem resolveDialect_default : standard.resolveDialect {} = .ok Dialect.ansi := by
  have hfound : standard.dialect? Dialect.defaultName = some Dialect.ansi := by
    rw [dialect?_of_key registryKey_default]
    rfl
  unfold resolveDialect
  rw [hfound]

/-- With parameters and no other options, a statement is written under the standard and is not
checked. -/
theorem format_params (s : Statement) (params : Table Value) :
    standard.format s { params := params } =
      (keep { params := params }
        (standard.evalStatement (standard.context { params := params } .ansi false) s)).bind
          (finish { params := params }) := by
  have hadmissible : standard.admissible s { params := params } = .ok .ansi := by
    have hd : standard.resolveDialect { params := params } = .ok .ansi := resolveDialect_default
    rw [admissible, hd]
    rfl
  rw [format, hadmissible]
  rfl

theorem format_default (s : Statement) : standard.format s {} =
    (keep {} (standard.evalStatement (standard.context {} .ansi false) s)).bind (finish {}) :=
  format_params s []

theorem resolveDialect_of_admissible {s : Statement} {o : Options} {d : Dialect}
    (h : g.admissible s o = .ok d) : g.resolveDialect o = .ok d := by
  obtain ⟨d', hd, h⟩ := bind_eq_ok.mp h
  obtain ⟨-, -, h⟩ := bind_eq_ok.mp h
  cases h
  exact hd

theorem Plain.format_eq (hg : g.Plain) (s : Statement) (o : Options)
    (h : ∀ d, g.admissible s o = .ok d → Draft.Solid (g.context o d false)
      (g.draftStatement (g.context o d false).shape s)) :
    g.format s o =
      (g.admissible s o).bind fun d => g.formatDraft o d (g.draftStatement · s) := by
  unfold format
  cases ha : g.admissible s o with
  | error e => rfl
  | ok d =>
    have hkeep := keep_of_yields o (hg.yields_evalStatement _ s (h d ha))
    simp only [bind, Except.bind, formatDraft, hkeep]

/-- An admissible statement comes out as its draft settles. -/
theorem Plain.format_settled (hg : g.Plain) {s : Statement} {o : Options} {d : Dialect}
    (hd : g.admissible s o = .ok d)
    (hsolid : Draft.Solid (g.context o d false)
      (g.draftStatement (g.context o d false).shape s)) :
    g.format s o =
      (Draft.settle (g.context o d false) (g.draftStatement (g.context o d false).shape s)).map
        (Settled.formatted o) := by
  rw [hg.format_eq s o, hd]
  · exact formatDraft_eq g o d (g.draftStatement · s)
  · intro d' hd'
    cases hd.symm.trans hd'
    exact hsolid

/-- A statement that can be written with placeholders has a settled draft. -/
theorem Plain.exists_settled (hg : g.Plain) {s : Statement} {o : Options}
    (ho : o.inline = false) {f : Formatted} (h : g.format s o = .ok f) :
    ∃ d r, g.admissible s o = .ok d ∧
      Draft.settle (g.context o d false) (g.draftStatement (g.context o d false).shape s) =
        .ok r ∧ r.formatted o = f := by
  rw [hg.format_eq s o fun d _ => Draft.solid_of_not_inline ho _] at h
  obtain ⟨d, hd, h⟩ := bind_eq_ok.mp h
  rw [formatDraft_eq] at h
  obtain ⟨r, hr, hf⟩ := map_eq_ok.mp h
  exact ⟨d, r, hd, hr, hf⟩

theorem Plain.formatExpr_eq (hg : g.Plain) (v : Value) (o : Options)
    (h : ∀ d, g.admissibleExpr v o = .ok d → Draft.Solid (g.context o d false)
      (g.draftExpr (g.context o d false).shape v)) :
    g.formatExpr v o =
      (g.admissibleExpr v o).bind fun d => g.formatDraft o d (g.draftExpr · v) := by
  have hadm : g.formatExpr v o = (g.admissibleExpr v o).bind fun d =>
      (keep o (g.evalExpr (g.context o d false) v)).bind (finish o) := by
    unfold formatExpr admissibleExpr
    cases v with
    | map s =>
      unfold admissible
      cases g.resolveDialect o with
      | error e => rfl
      | ok d => cases hc : Lint.check o.checking s o.params <;> simp [bind, Except.bind, hc]; rfl
    | _ => rfl
  rw [hadm]
  cases ha : g.admissibleExpr v o with
  | error e => rfl
  | ok d =>
    have hkeep := keep_of_yields o (hg.yields_evalExpr _ v (h d ha))
    simp only [Except.bind, formatDraft, hkeep]

end Grammar
end Clausal
