import Clausal.Proofs.ClosedEvaluation
import Clausal.Proofs.Draft.Format
import Clausal.Proofs.KeyOrder.Arrangement

/-! # Equal statements

Runs *match* when from alike sessions they end alike: with the same SQL and alike sessions, or
both in a fault (`Run.Matches`).  Alike layouts evaluate to matching runs
(`Layout.matches_eval`), and by induction on the depth so do alike statements.

Statements that are equal and list the same columns in the same order are therefore written
equally (`Grammar.format_of_equal`).  Equality alone is not enough: it passes over the order
of assignments, which the text keeps.
-/
namespace Clausal

open Value (Alike)

section
variable {ε α β : Type} {R : α → α → Prop} {S : β → β → Prop}

theorem concur_pure {a b : α} (h : R a b) : Concur R (pure a : Except ε α) (pure b) :=
  .inl ⟨a, b, rfl, rfl, h⟩

theorem Concur.bind {x y : Except ε α} {f g : α → Except ε β} (h : Concur R x y)
    (hfg : ∀ a b, R a b → Concur S (f a) (g b)) : Concur S (x >>= f) (y >>= g) := by
  rcases h with ⟨a, b, rfl, rfl, hab⟩ | ⟨e, f, rfl, rfl⟩
  · exact hfg a b hab
  · exact .inr ⟨e, f, rfl, rfl⟩

end

/-- Alike values are written into the text as the same literal, or cannot be. -/
theorem Value.Alike.literal {v w : Value} (h : Alike v w) :
    Concur (· = ·) v.literal w.literal := by
  refine Alike.induction (P := fun v w => Concur (· = ·) v.literal w.literal) ?atom ?seq ?map h
  case atom =>
    intro v _
    exact .same _
  case seq =>
    intro as bs hitems
    have hliterals : Concur (· = ·) (Value.literals as) (Value.literals bs) := by
      induction hitems with
      | nil => exact .same _
      | cons hab _ ih =>
        unfold Value.literals
        rcases hab with ⟨text, _, ha, hb, rfl⟩ | ⟨e, f, ha, hb⟩
        · rw [ha, hb]
          rcases ih with ⟨texts, _, has, hbs, rfl⟩ | ⟨e, f, has, hbs⟩
          · rw [has, hbs]
            exact .same _
          · rw [has, hbs]
            exact .inr ⟨e, f, rfl, rfl⟩
        · rw [ha, hb]
          exact .inr ⟨e, f, rfl, rfl⟩
    unfold Value.literal
    rcases hliterals with ⟨texts, _, has, hbs, rfl⟩ | ⟨e, f, has, hbs⟩
    · rw [has, hbs]
      exact .same _
    · rw [has, hbs]
      exact .inr ⟨e, f, rfl, rfl⟩
  case map =>
    intro s t _ _ _ _
    exact .inr ⟨_, _, rfl, rfl⟩

/-- The same value, up to the order of entries. -/
def Value.Same (v w : Value) : Prop := v = w ∨ v.equal w = true

/-! ### Runs that match -/

/-- The slots hold the same value or alike ones, or the same name. -/
def Slot.Alike : Slot → Slot → Prop
  | .literal v, .literal w => v = w ∨ v.Alike w
  | .named m, .named n => m = n
  | _, _ => False

/-- The sessions stand at the same place and have bound alike parameters. -/
structure Session.Alike (s t : Session) : Prop where
  marker : s.marker = t.marker
  slots : List.Forall₂ Slot.Alike s.slots t.slots

namespace Run
variable {α β : Type}

/-- The same result and alike sessions, or two faults. -/
def EndAlike : Except Fault α × Session → Except Fault α × Session → Prop
  | (.ok a, s), (.ok b, t) => a = b ∧ s.Alike t
  | (.error _, _), (.error _, _) => True
  | _, _ => False

/-- From alike sessions the runs end alike. -/
def Matches (x y : Run α) : Prop := ∀ s t : Session, s.Alike t → EndAlike (x s) (y t)

theorem matches_pure (a : α) : Matches (pure a) (pure a) := fun _ _ hst => ⟨rfl, hst⟩

theorem matches_throw (e f : Fault) : Matches (throw e : Run α) (throw f) :=
  fun _ _ _ => trivial

theorem Matches.bind {x y : Run α} {f g : α → Run β} (hxy : Matches x y)
    (hfg : ∀ a, Matches (f a) (g a)) : Matches (x >>= f) (y >>= g) := by
  intro s t hst
  have hend := hxy s t hst
  generalize hx : x s = p, hy : y t = q at hend
  obtain ⟨a | a, s'⟩ := p <;> obtain ⟨b | b, t'⟩ := q
  · rw [bind_error hx, bind_error hy]
    trivial
  · exact hend.elim
  · exact hend.elim
  · obtain ⟨rfl, hst'⟩ := hend
    rw [bind_ok hx, bind_ok hy]
    exact hfg a s' t' hst'

theorem Matches.under {x y : Run α} (change : Marker → Marker) (hxy : Matches x y) :
    Matches (Run.under change x) (Run.under change y) := by
  intro s t hst
  have hmarker : change s.marker = change t.marker := congrArg change hst.marker
  have hend := hxy { s with marker := change s.marker } { t with marker := change t.marker }
    ⟨hmarker, hst.slots⟩
  unfold Run.under ExceptT.run
  generalize x _ = p, y _ = q at hend
  obtain ⟨a | a, s'⟩ := p <;> obtain ⟨b | b, t'⟩ := q
  · trivial
  · exact hend.elim
  · exact hend.elim
  · exact ⟨hend.1, hst.marker, hend.2.slots⟩

theorem matches_bind {a b : Slot} (h : a.Alike b) : Matches (Run.bind a) (Run.bind b) := by
  intro s t hst
  have hlength : s.slots.length = t.slots.length := hst.slots.length_eq
  refine ⟨?_, hst.marker, List.rel_append hst.slots (.cons h .nil)⟩
  simp [hlength]

theorem matches_ofLiteral {x y : Except Fault String} (h : Concur (· = ·) x y) :
    Matches (ofLiteral x) (ofLiteral y) := by
  rcases h with ⟨text, _, rfl, rfl, rfl⟩ | ⟨e, f, rfl, rfl⟩
  · exact matches_pure _
  · exact matches_throw e f

variable (c : Context)

theorem matches_value {v w : Value} (h : v = w ∨ Alike v w) : Matches (value c v) (value c w) := by
  unfold value
  split
  · rcases h with rfl | h
    · exact matches_ofLiteral (.same _)
    · exact matches_ofLiteral h.literal
  · exact matches_bind h

theorem matches_values (vs : List Value) : Matches (values c vs) (values c vs) := by
  fun_induction values c vs with
  | case1 => exact matches_pure []
  | case2 v => exact matches_value c (.inl rfl)
  | case3 v vs hne ih =>
    exact (matches_value c (.inl rfl)).bind fun _ => ih.bind fun _ => matches_pure _

theorem matches_lookup (name : String) : Matches (lookup c name) (lookup c name) := by
  unfold lookup
  split
  · exact matches_pure _
  · exact matches_throw _ _

theorem matches_named (name : String) : Matches (named c name) (named c name) := by
  unfold named
  split
  · exact (matches_lookup c name).bind fun _ => matches_ofLiteral (.same _)
  · split
    · exact matches_bind rfl
    · exact (matches_lookup c name).bind fun _ => matches_bind (.inl rfl)

theorem matches_namedList (name : String) : Matches (namedList c name) (namedList c name) := by
  unfold namedList
  split
  · exact matches_throw _ _
  · refine (matches_lookup c name).bind fun v => ?_
    split
    · exact (matches_values c _).bind fun _ => matches_pure _
    · exact (matches_named c name).bind fun _ => matches_pure _

end Run

/-! ### Layouts -/

/-- Alike values evaluate to matching runs. -/
structure Evaluators.Steady (sub : Evaluators) : Prop where
  expr : ∀ nested v w, Alike v w → Run.Matches (sub.expr nested v) (sub.expr nested w)
  statement : ∀ s t, Alike (.map s) (.map t) → Run.Matches (sub.statement s) (sub.statement t)

open Run in
/-- **Alike layouts evaluate to matching runs.** -/
theorem Layout.matches_eval {c : Context} {sub : Evaluators} (hsub : sub.Steady) {l l' : Layout}
    (h : l.Like l') : Matches (l.eval c sub) (l'.eval c sub) := by
  -- Along `Like`: layouts of different shapes are not alike, so only equal shapes remain.
  fun_induction Layout.Like l l' with
  | case1 s t | case3 s t | case4 s t | case6 s t =>
    obtain rfl : s = t := h
    exact matches_pure _
  | case2 => exact matches_throw _ _
  | case5 => exact matches_pure _
  | case7 v w => exact matches_value c (.inr h)
  | case8 m n =>
    obtain rfl : m = n := h
    exact matches_named c m
  | case9 m n =>
    obtain rfl : m = n := h
    exact matches_namedList c m
  | case10 v w => exact matches_ofLiteral (Alike.literal h)
  | case11 nesting v nesting' w =>
    obtain ⟨rfl, hvw⟩ := h
    cases nesting with
    | top => exact hsub.expr false v w hvw
    | nested => exact hsub.expr true v w hvw
    | same =>
      rintro ⟨slots, m⟩ ⟨slots', m'⟩ hst
      obtain rfl : m = m' := hst.marker
      exact hsub.expr m.nested v w hvw _ _ hst
  | case12 v w => exact (hsub.expr false v w h).under _
  | case13 s t => exact hsub.statement s t h
  | case14 a b a' b' iha ihb =>
    obtain ⟨ha, hb⟩ := h
    exact (iha ha).bind fun _ => (ihb hb).bind fun _ => matches_pure _
  | case15 sep a b sep' a' b' iha ihb =>
    obtain ⟨rfl, ha, hb⟩ := h
    exact (iha ha).bind fun _ => (ihb hb).bind fun _ => matches_pure _
  | case16 s body t body' ih =>
    obtain ⟨rfl, hbody⟩ := h
    exact (ih hbody).bind fun _ => matches_pure _
  | case17 body body' ih =>
    refine (ih h).bind fun sql => ?_
    rintro ⟨slots, m⟩ ⟨slots', m'⟩ hst
    obtain rfl : m = m' := hst.marker
    exact ⟨rfl, hst⟩
  | case18 tag body tag' body' ih =>
    obtain ⟨rfl, hbody⟩ := h
    exact (ih hbody).under _
  | case19 => exact h.elim

/-! ### Grammars -/

namespace Grammar
variable {g : Grammar} {c : Context}

open Run in
/-- Evaluators of every depth give matching runs for alike values. -/
theorem Uniform.steady (hg : g.Uniform) (hc : g.Ordered c) (depth : Nat) :
    (g.evaluators c depth).Steady := by
  induction depth with
  | zero => exact ⟨fun _ _ _ _ => matches_throw _ _, fun _ _ _ => matches_throw _ _⟩
  | succ depth ih =>
    constructor
    · rintro nested v w h ⟨slots, m⟩ ⟨slots', m'⟩ hst
      obtain rfl : m = m' := hst.marker
      have hlayout := hg.like_exprLayout m.aliasPosition h
      exact (Layout.matches_eval (c := c) ih hlayout).under
        (fun m => { m with aliasPosition := false, nested := nested }) _ _ hst
    · intro s t h
      exact Layout.matches_eval ih (hg.like_statementLayout hc h)

/-- Alike statements go equally deep, so they are evaluated to matching runs. -/
theorem Uniform.matches_evalStatement (hg : g.Uniform) (hc : g.Ordered c) {s t : Statement}
    (h : Alike (.map s) (.map t)) : (g.evalStatement c s).Matches (g.evalStatement c t) := by
  unfold evalStatement
  rw [h.weight_eq]
  exact (hg.steady hc _).statement s t h

/-! ### Results -/

theorem resolved_concur (params : Table Value) {a b : Slot} (h : a.Alike b) :
    Concur Value.Same (a.resolved params) (b.resolved params) := by
  cases a with
  | literal v =>
    cases b with
    | literal w => exact .inl ⟨v, w, rfl, rfl, h.imp_right Alike.equal⟩
    | named n => exact h.elim
  | named m =>
    cases b with
    | literal w => exact h.elim
    | named n =>
      obtain rfl : m = n := h
      rcases Concur.same ((Slot.named m).resolved params) with ⟨v, _, hv, -, -⟩ | ⟨e, _, he, -⟩
      · exact .inl ⟨v, v, hv, hv, .inl rfl⟩
      · exact .inr ⟨e, e, he, he⟩

theorem resolveSlots_concur (params : Table Value) {as bs : List Slot}
    (h : List.Forall₂ Slot.Alike as bs) :
    Concur (List.Forall₂ Value.Same) (resolveSlots params as) (resolveSlots params bs) := by
  induction h with
  | nil => exact concur_pure .nil
  | cons hab _ ih =>
    rw [resolveSlots_cons, resolveSlots_cons]
    exact (resolved_concur params hab).bind fun _ _ hvw =>
      ih.bind fun _ _ hsame => concur_pure (.cons hvw hsame)

/-- Matching runs are kept with the same text and alike parameters. -/
theorem keep_concur (o : Options) {x y : Run Sql} (h : x.Matches y) :
    Concur (fun a b => a.sql = b.sql ∧ List.Forall₂ Slot.Alike a.slots b.slots)
      (keep o x) (keep o y) := by
  have hend := h {} {} ⟨rfl, .nil⟩
  unfold keep ExceptT.run
  generalize x {} = p, y {} = q at hend
  obtain ⟨e | a, s⟩ := p <;> obtain ⟨f | b, t⟩ := q
  · exact .inr ⟨e, f, rfl, rfl⟩
  · exact hend.elim
  · exact hend.elim
  · obtain ⟨rfl, hst⟩ := hend
    exact concur_pure ⟨rfl, hst.slots⟩

/-- **Equal statements that list the same columns are written equally**: both fail, or both give
the same text with the same parameters. -/
theorem format_of_equal {s t : Statement} {o : Options} (ho : o.isCustom = false)
    (hchecking : o.checking = .off) (hequal : s.equal t = true)
    (hdistinct : (Value.map s).distinctKeys = true)
    (hcolumns : (Value.map s).sameColumns (.map t) = true) :
    Concur (fun a b => a.sql = b.sql ∧ List.Forall₂ Value.Same a.params b.params)
      (standard.format s o) (standard.format t o) := by
  have halike : Alike (.map s) (.map t) := Value.alike_of_equal hequal hdistinct hcolumns
  have hadmissible : ∀ s, standard.admissible s o = standard.resolveDialect o := by
    intro s
    unfold admissible
    rw [hchecking]
    cases standard.resolveDialect o <;> rfl
  unfold format
  rw [hadmissible, hadmissible]
  cases hd : standard.resolveDialect o with
  | error e => exact .inr ⟨e, e, rfl, rfl⟩
  | ok d =>
    have hordered : standard.Ordered (standard.context o d false) :=
      standard_ordered (mem_builtin_of_resolveDialect ho hd) rfl
    have hmatch := standard_uniform.matches_evalStatement hordered halike
    exact (keep_concur o hmatch).bind fun _ _ hkept =>
      (resolveSlots_concur o.params hkept.2).bind fun _ _ hsame => concur_pure ⟨hkept.1, hsame⟩

/-- The clauses of a change may come in any order. -/
theorem format_of_equal_change :
    standard.format [("update", .ident "t"), ("set", .map [("a", .int 1), ("b", .int 2)]),
        ("where", .call "=" [.ident "id", .int 7])] {} =
      .ok ⟨"UPDATE t SET a = ?, b = ? WHERE id = ?", [.int 1, .int 2, .int 7]⟩ ∧
    ∃ f, standard.format [("where", .call "=" [.ident "id", .int 7]),
        ("set", .map [("a", .int 1), ("b", .int 2)]), ("update", .ident "t")] {} = .ok f ∧
      "UPDATE t SET a = ?, b = ? WHERE id = ?" = f.sql ∧
      List.Forall₂ Value.Same [.int 1, .int 2, .int 7] f.params := by
  have hformat : standard.format [("update", .ident "t"),
      ("set", .map [("a", .int 1), ("b", .int 2)]),
      ("where", .call "=" [.ident "id", .int 7])] {} =
        .ok ⟨"UPDATE t SET a = ?, b = ? WHERE id = ?", [.int 1, .int 2, .int 7]⟩ := by
    have hkeep : keep {} (standard.evalStatement (standard.context {} .ansi false)
        [("update", .ident "t"), ("set", .map [("a", .int 1), ("b", .int 2)]),
          ("where", .call "=" [.ident "id", .int 7])]) =
        .ok ⟨"UPDATE t SET a = ?, b = ? WHERE id = ?",
          [.literal (.int 1), .literal (.int 2), .literal (.int 7)]⟩ := by
      rw [evalStatement_of_ordered (by decide +kernel)]
      decide +kernel
    rw [format_default, hkeep]
    rfl
  have hequal : Statement.equal
      [("update", .ident "t"), ("set", .map [("a", .int 1), ("b", .int 2)]),
        ("where", .call "=" [.ident "id", .int 7])]
      [("where", .call "=" [.ident "id", .int 7]),
        ("set", .map [("a", .int 1), ("b", .int 2)]), ("update", .ident "t")] = true := by decide
  rcases format_of_equal (o := {}) rfl rfl hequal (by decide) (by decide) with
    ⟨f, f', hs, ht, hsame⟩ | ⟨e, _, hs, -⟩
  · cases hformat.symm.trans hs
    exact ⟨hformat, f', ht, hsame⟩
  · cases hformat.symm.trans hs

/-- The order of assignments makes no difference to equality, and does to the text. -/
theorem equal_written_differently :
    Statement.equal [("update", .ident "t"), ("set", .map [("a", .int 1), ("b", .int 2)])]
      [("update", .ident "t"), ("set", .map [("b", .int 2), ("a", .int 1)])] = true ∧
    standard.format
        [("update", .ident "t"), ("set", .map [("a", .int 1), ("b", .int 2)])] {} =
      .ok ⟨"UPDATE t SET a = ?, b = ?", [.int 1, .int 2]⟩ ∧
    standard.format
        [("update", .ident "t"), ("set", .map [("b", .int 2), ("a", .int 1)])] {} =
      .ok ⟨"UPDATE t SET b = ?, a = ?", [.int 2, .int 1]⟩ := by
  refine ⟨by decide, ?_, ?_⟩
  · have hkeep : keep {} (standard.evalStatement (standard.context {} .ansi false)
        [("update", .ident "t"), ("set", .map [("a", .int 1), ("b", .int 2)])]) =
        .ok ⟨"UPDATE t SET a = ?, b = ?", [.literal (.int 1), .literal (.int 2)]⟩ := by
      rw [evalStatement_of_ordered (by decide +kernel)]
      decide +kernel
    rw [format_default, hkeep]
    rfl
  · have hkeep : keep {} (standard.evalStatement (standard.context {} .ansi false)
        [("update", .ident "t"), ("set", .map [("b", .int 2), ("a", .int 1)])]) =
        .ok ⟨"UPDATE t SET b = ?, a = ?", [.literal (.int 2), .literal (.int 1)]⟩ := by
      rw [evalStatement_of_ordered (by decide +kernel)]
      decide +kernel
    rw [format_default, hkeep]
    rfl

end Grammar
end Clausal
