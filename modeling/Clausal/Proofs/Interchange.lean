import Clausal.Proofs.ClauseOrder.Formatting
import Clausal.Proofs.Condition.Wording

/-! # Interchangeable expressions

Two runs *coincide* when in every session they give SQL that reads the same, however holes are
written, or fail in the same way, and leave the same session (`Run.Coincides`).  Expressions that
coincide can take each other's place wherever a layout has one of them as an expression, at any
depth (`Grammar.Exchanged`): what is written around them coincides too, and so it is formatted to
the same text and the same parameters (`Grammar.formatExpr_eq_of_exchanged`).

Where an alias may stand, a list can be a target and its alias.  What is written around exchanged
expressions therefore coincides only at markers that say whether it may, and plain layouts are
needed around them, which leave the marker alone (`Run.CoincidesAt`, `Run.KeepsMarker`).

Not every place is of this kind.  A value that is bound as a whole, or shown in a complaint, is not
written as an expression.
-/
namespace Clausal

/-! ### SQL that reads the same -/

namespace Sql

/-- The SQL reads the same, however holes are written. -/
def Coincides (a b : Sql) : Prop := ∀ p, a.render p = b.render p

variable {a a' b b' : Sql}

theorem Coincides.rfl : Coincides a a := fun _ => Eq.refl _

theorem Coincides.symm (h : Coincides a b) : Coincides b a := fun p => (h p).symm

theorem Coincides.trans {c : Sql} (h : Coincides a b) (h' : Coincides b c) : Coincides a c :=
  fun p => (h p).trans (h' p)

theorem Coincides.append (ha : Coincides a a') (hb : Coincides b b') :
    Coincides (a ++ b) (a' ++ b') := by
  intro p
  rw [render_append, render_append, ha p, hb p]

theorem Coincides.parens (h : Coincides a b) : Coincides a.parens b.parens :=
  (Coincides.rfl.append h).append .rfl

theorem Coincides.isEmpty_eq (h : Coincides a b) : a.isEmpty = b.isEmpty := by
  rw [Bool.eq_iff_iff, isEmpty_iff_render .positional, isEmpty_iff_render .positional,
    h .positional]

theorem Coincides.beside (sep : String) (ha : Coincides a a') (hb : Coincides b b') :
    Coincides (beside sep a b) (beside sep a' b') := by
  unfold Sql.beside
  rw [ha.isEmpty_eq, hb.isEmpty_eq]
  split
  · exact hb
  · split
    · exact ha
    · exact (ha.append .rfl).append hb

theorem Coincides.lead (text : String) (h : Coincides a b) :
    Coincides (if a.isEmpty then [] else ofText text ++ a)
      (if b.isEmpty then [] else ofText text ++ b) := by
  rw [h.isEmpty_eq]
  split
  · exact .rfl
  · exact .append .rfl h

theorem Coincides.wrap (nested : Bool) (h : Coincides a b) :
    Coincides (if nested && !a.isEmpty then a.parens else a)
      (if nested && !b.isEmpty then b.parens else b) := by
  rw [h.isEmpty_eq]
  split
  · exact h.parens
  · exact h

end Sql

/-! ### Runs that coincide -/

namespace Run

/-- The outcomes are the same, but for SQL that only reads the same. -/
inductive SameOutcome : Except Fault Sql × Session → Except Fault Sql × Session → Prop where
  | ok {a b : Sql} (h : a.Coincides b) (s : Session) : SameOutcome (.ok a, s) (.ok b, s)
  | error (e : Fault) (s : Session) : SameOutcome (.error e, s) (.error e, s)

/-- The runs have the same outcome in every session. -/
def Coincides (x y : Run Sql) : Prop := ∀ s, SameOutcome (x s) (y s)

variable {x y x' y' : Run Sql}

theorem Coincides.rfl : Coincides x x := by
  intro s
  rcases x s with ⟨_ | _, t⟩
  · exact .error _ t
  · exact .ok .rfl t

theorem Coincides.of_eq (h : x = y) : Coincides x y := h ▸ .rfl

theorem SameOutcome.symm {r r' : Except Fault Sql × Session} (h : SameOutcome r r') :
    SameOutcome r' r := by
  cases h with
  | ok hab t => exact .ok hab.symm t
  | error e t => exact .error e t

theorem SameOutcome.trans {r₁ r₂ r₃ : Except Fault Sql × Session} (h : SameOutcome r₁ r₂)
    (h' : SameOutcome r₂ r₃) : SameOutcome r₁ r₃ := by
  cases h with
  | ok hab t =>
    cases h' with
    | ok hbc => exact .ok (hab.trans hbc) t
  | error e t => exact h'

theorem Coincides.symm (h : Coincides x y) : Coincides y x := fun s => (h s).symm

theorem Coincides.trans {z : Run Sql} (h : Coincides x y) (h' : Coincides y z) : Coincides x z :=
  fun s => (h s).trans (h' s)

theorem SameOutcome.bind {f g : Sql → Run Sql} {s : Session} (h : SameOutcome (x s) (y s))
    (hnext : ∀ a b, a.Coincides b → (f a).Coincides (g b)) :
    SameOutcome ((x >>= f) s) ((y >>= g) s) := by
  generalize hx : x s = first, hy : y s = second at h
  cases h with
  | ok hab t =>
    rw [bind_ok hx, bind_ok hy]
    exact hnext _ _ hab t
  | error e t =>
    rw [bind_error hx, bind_error hy]
    exact .error e t

theorem Coincides.bind {f g : Sql → Run Sql} (h : Coincides x y)
    (hnext : ∀ a b, a.Coincides b → (f a).Coincides (g b)) :
    Coincides (x >>= f) (y >>= g) :=
  fun s => (h s).bind hnext

theorem coincides_pure {a b : Sql} (h : a.Coincides b) :
    Coincides (pure a : Run Sql) (pure b) := fun s => .ok h s

/-- Two runs one after the other, whose SQL is put together. -/
theorem Coincides.both {join : Sql → Sql → Sql} (hx : Coincides x x') (hy : Coincides y y')
    (hjoin : ∀ {a a' b b'}, a.Coincides a' → b.Coincides b' → (join a b).Coincides (join a' b')) :
    Coincides (do let a ← x; let b ← y; return join a b)
      (do let a ← x'; let b ← y'; return join a b) :=
  hx.bind fun _ _ ha => hy.bind fun _ _ hb => coincides_pure (hjoin ha hb)

theorem SameOutcome.putBack {r r' : Except Fault Sql × Session} (h : SameOutcome r r')
    (m : Marker) :
    SameOutcome (r.1, { r.2 with marker := m }) (r'.1, { r'.2 with marker := m }) := by
  cases h with
  | ok hab t => exact .ok hab _
  | error e t => exact .error e _

theorem Coincides.under (h : Coincides x y) (change : Marker → Marker) :
    Coincides (under change x) (under change y) :=
  fun s => (h { s with marker := change s.marker }).putBack s.marker

/-- Runs that coincide in each session may be chosen by the session. -/
theorem Coincides.observing {f g : Session → Run Sql} (h : ∀ s, (f s).Coincides (g s)) :
    Coincides (do f (← get)) (do g (← get)) :=
  fun s => h s s

/-! ### Runs that leave the marker alone -/

/-- The run leaves the marker as it was. -/
def KeepsMarker (x : Run Sql) : Prop := ∀ s, (x s).2.marker = s.marker

theorem Yields.keepsMarker {p : Marker → Except Fault Settled}
    (h : ∀ m, Yields x m (p m)) : KeepsMarker x := by
  intro ⟨bound, m⟩
  have hm := h m
  cases hp : p m with
  | ok r =>
    rw [hp] at hm
    rw [hm bound]
  | error e =>
    rw [hp] at hm
    obtain ⟨bound', hrun⟩ := hm bound
    rw [hrun]

theorem KeepsMarker.bind {f : Sql → Run Sql} (hx : KeepsMarker x) (hf : ∀ a, KeepsMarker (f a)) :
    KeepsMarker (x >>= f) := by
  intro s
  cases hrun : x s with
  | mk result t =>
    have ht : t.marker = s.marker := by
      have hs := hx s
      rwa [hrun] at hs
    cases result with
    | error e => rw [bind_error hrun]; exact ht
    | ok a => rw [bind_ok hrun]; exact (hf a t).trans ht

theorem keepsMarker_under (change : Marker → Marker) (x : Run Sql) : KeepsMarker (under change x) :=
  fun _ => Eq.refl _

/-- At the marker, in whatever session, the runs have the same outcome. -/
def CoincidesAt (m : Marker) (x y : Run Sql) : Prop :=
  ∀ bound, SameOutcome (x ⟨bound, m⟩) (y ⟨bound, m⟩)

variable {m : Marker}

theorem Coincides.at (h : Coincides x y) (m : Marker) : CoincidesAt m x y := fun _ => h _

theorem CoincidesAt.bind {f g : Sql → Run Sql} (hx : KeepsMarker x) (h : CoincidesAt m x y)
    (hnext : ∀ a b, a.Coincides b → CoincidesAt m (f a) (g b)) :
    CoincidesAt m (x >>= f) (y >>= g) := by
  intro bound
  have hbound := h bound
  have hmarker := hx ⟨bound, m⟩
  generalize hfirst : x ⟨bound, m⟩ = first, hsecond : y ⟨bound, m⟩ = second at hbound hmarker
  cases hbound with
  | ok hab t =>
    obtain ⟨slots, _⟩ := t
    cases hmarker
    rw [bind_ok hfirst, bind_ok hsecond]
    exact hnext _ _ hab slots
  | error e t =>
    rw [bind_error hfirst, bind_error hsecond]
    exact .error e t

theorem CoincidesAt.both {join : Sql → Sql → Sql} (hkeeps : KeepsMarker x) (hx : CoincidesAt m x x')
    (hkeeps' : KeepsMarker y) (hy : CoincidesAt m y y')
    (hjoin : ∀ {a a' b b'}, a.Coincides a' → b.Coincides b' → (join a b).Coincides (join a' b')) :
    CoincidesAt m (do let a ← x; let b ← y; return join a b)
      (do let a ← x'; let b ← y'; return join a b) :=
  hx.bind hkeeps fun _ _ ha => hy.bind hkeeps' fun _ _ hb => (coincides_pure (hjoin ha hb)).at m

theorem CoincidesAt.under {change : Marker → Marker} (h : CoincidesAt (change m) x y) :
    CoincidesAt m (under change x) (under change y) :=
  fun bound => (h bound).putBack m

end Run

/-- The evaluators leave the marker as it was. -/
structure Evaluators.KeepMarker (sub : Evaluators) : Prop where
  expr : ∀ nested v, (sub.expr nested v).KeepsMarker
  statement : ∀ s, (sub.statement s).KeepsMarker

open Run in
/-- Plain layouts leave the marker as it was. -/
theorem Layout.Plain.keepsMarker {c : Context} {sub : Evaluators} (hsub : sub.KeepMarker)
    {l : Layout} (hl : l.Plain) : (l.eval c sub).KeepsMarker := by
  induction l with
  | value v => exact Yields.keepsMarker fun m => yields_value c m v
  | named name => exact Yields.keepsMarker fun m => yields_named c m name
  | namedList name => exact Yields.keepsMarker fun m => yields_namedList c m name
  | literal v => exact Yields.keepsMarker fun m => yields_literal m v.literal
  | expr nesting v =>
    cases nesting with
    | top => exact hsub.expr false v
    | nested => exact hsub.expr true v
    | same => exact fun s => hsub.expr s.marker.nested v s
  | aliased v => exact keepsMarker_under _ _
  | statement s => exact hsub.statement s
  | append a b iha ihb => exact (iha hl.1).bind fun _ => (ihb hl.2).bind fun _ _ => rfl
  | beside sep a b iha ihb => exact (iha hl.1).bind fun _ => (ihb hl.2).bind fun _ _ => rfl
  | lead s body ih => exact (ih hl).bind fun _ _ => rfl
  | wrap body ih => exact (ih hl).bind fun _ _ => rfl
  | within tag body ih => exact keepsMarker_under _ _
  | observe read => exact hl.elim
  | bind name => exact hl.elim
  | setAlias on => exact hl.elim
  | _ => exact fun _ => rfl

theorem Grammar.Plain.keepMarker_evaluators {g : Grammar} (hg : g.Plain) (c : Context)
    (depth : Nat) : (g.evaluators c depth).KeepMarker := by
  induction depth with
  | zero => exact ⟨fun _ _ _ => rfl, fun _ _ => rfl⟩
  | succ depth ih =>
    exact ⟨fun _ _ _ => rfl, fun s => (hg.statementLayout c s).keepsMarker ih⟩

/-! ### Expressions in their places -/

namespace Grammar

mutual

/-- The values are exchanged for one another, or one is the other with values exchanged inside,
wherever these are laid out as expressions.  No alias may stand here. -/
inductive Exchanged (g : Grammar) (c : Context) (R : Value → Value → Prop) : Value → Value → Prop
  | here {v w : Value} (h : R v w) : Exchanged g c R v w
  | inside {v w : Value} (h : ExchangedIn g c R (g.exprLayout false v) (g.exprLayout false w)) :
      Exchanged g c R v w

/-- The layouts are the same but for expressions that are exchanged. -/
inductive ExchangedIn (g : Grammar) (c : Context) (R : Value → Value → Prop) :
    Layout → Layout → Prop
  | same (l : Layout) : ExchangedIn g c R l l
  | expr (nesting : Nesting) {v w : Value} (h : Exchanged g c R v w) :
      ExchangedIn g c R (.expr nesting v) (.expr nesting w)
  | aliased {v w : Value} (h : R v w) : ExchangedIn g c R (.aliased v) (.aliased w)
  /-- Where an alias may stand, only the layouts for such a place count. -/
  | target {v w : Value} (h : ExchangedIn g c R (g.exprLayout true v) (g.exprLayout true w)) :
      ExchangedIn g c R (.aliased v) (.aliased w)
  | statement {s t : Statement}
      (h : ExchangedIn g c R (g.statementLayout c s) (g.statementLayout c t)) :
      ExchangedIn g c R (.statement s) (.statement t)
  | append {k l m n : Layout} (h : ExchangedIn g c R k m) (h' : ExchangedIn g c R l n) :
      ExchangedIn g c R (.append k l) (.append m n)
  | beside (sep : String) {k l m n : Layout} (h : ExchangedIn g c R k m)
      (h' : ExchangedIn g c R l n) : ExchangedIn g c R (.beside sep k l) (.beside sep m n)
  | lead (s : String) {l m : Layout} (h : ExchangedIn g c R l m) :
      ExchangedIn g c R (.lead s l) (.lead s m)
  | wrap {l m : Layout} (h : ExchangedIn g c R l m) : ExchangedIn g c R (.wrap l) (.wrap m)
  | within (tag : String) {l m : Layout} (h : ExchangedIn g c R l m) :
      ExchangedIn g c R (.within tag l) (.within tag m)

end

/-- Related values coincide as expressions, wherever they stand. -/
def Interchangeable (g : Grammar) (c : Context) (R : Value → Value → Prop) : Prop :=
  ∀ v w, R v w → ∀ depth nested,
    ((g.evaluators c depth).expr nested v).Coincides ((g.evaluators c depth).expr nested w)

variable {g : Grammar} {c : Context} {R : Value → Value → Prop} {v w : Value} {s t : Statement}

/-- One level: expressions coincide at a marker if their layouts for it do. -/
theorem coincidesAt_expr {depth : Nat} {nested : Bool} {m : Marker}
    (h : Run.CoincidesAt { m with aliasPosition := false, nested := nested }
      ((g.exprLayout m.aliasPosition v).eval c (g.evaluators c depth))
      ((g.exprLayout m.aliasPosition w).eval c (g.evaluators c depth))) :
    Run.CoincidesAt m ((g.evaluators c (depth + 1)).expr nested v)
      ((g.evaluators c (depth + 1)).expr nested w) :=
  fun bound => (h bound).putBack m

mutual

theorem Exchanged.coincidesAt (hg : g.Plain) (hR : g.Interchangeable c R) :
    ∀ {v w : Value}, Exchanged g c R v w → ∀ depth nested {m : Marker}, m.aliasPosition = false →
      Run.CoincidesAt m ((g.evaluators c depth).expr nested v)
        ((g.evaluators c depth).expr nested w)
  | v, w, .here h, depth, nested, m, _ => (hR v w h depth nested).at m
  | _, _, .inside _, 0, _, m, _ => Run.Coincides.rfl.at m
  | v, _, .inside h, depth + 1, nested, m, hm => by
    refine coincidesAt_expr ?_
    rw [hm]
    exact h.coincidesAt hg hR (hg.exprLayout false v) depth rfl

/-- **What is written around interchangeable expressions coincides**, whatever the depth, where no
alias may stand. -/
theorem ExchangedIn.coincidesAt (hg : g.Plain) (hR : g.Interchangeable c R) :
    ∀ {k l : Layout}, ExchangedIn g c R k l → k.Plain → ∀ depth {m : Marker},
      m.aliasPosition = false →
        Run.CoincidesAt m (k.eval c (g.evaluators c depth)) (l.eval c (g.evaluators c depth))
  | _, _, .same _, _, _, m, _ => Run.Coincides.rfl.at m
  | _, _, .expr .top h, _, depth, _, hm => h.coincidesAt hg hR depth false hm
  | _, _, .expr .nested h, _, depth, _, hm => h.coincidesAt hg hR depth true hm
  | _, _, .expr .same h, _, depth, m, hm => h.coincidesAt hg hR depth m.nested hm
  | _, _, @ExchangedIn.aliased _ _ _ v w h, _, depth, m, _ =>
    ((hR v w h depth false).under _).at m
  | _, _, .target _, _, 0, m, _ => Run.Coincides.rfl.at m
  | _, _, @ExchangedIn.target _ _ _ v _ h, _, depth + 1, _, _ =>
    .under (coincidesAt_expr (h.coincidesAt hg hR (hg.exprLayout true v) depth rfl))
  | _, _, .statement _, _, 0, m, _ => Run.Coincides.rfl.at m
  | _, _, @ExchangedIn.statement _ _ _ s _ h, _, depth + 1, _, hm =>
    h.coincidesAt hg hR (hg.statementLayout c s) depth hm
  | _, _, .append h h', hl, depth, _, hm =>
    have hsub := hg.keepMarker_evaluators c depth
    (h.coincidesAt hg hR hl.1 depth hm).both (hl.1.keepsMarker hsub) (hl.2.keepsMarker hsub)
      (h'.coincidesAt hg hR hl.2 depth hm) .append
  | _, _, .beside sep h h', hl, depth, _, hm =>
    have hsub := hg.keepMarker_evaluators c depth
    (h.coincidesAt hg hR hl.1 depth hm).both (hl.1.keepsMarker hsub) (hl.2.keepsMarker hsub)
      (h'.coincidesAt hg hR hl.2 depth hm) (.beside sep)
  | _, _, @ExchangedIn.lead _ _ _ text k _ h, hl, depth, m, hm =>
    (h.coincidesAt hg hR hl depth hm).bind
      (Layout.Plain.keepsMarker (l := k) (hg.keepMarker_evaluators c depth) hl)
      fun _ _ hab => (Run.coincides_pure (hab.lead text)).at m
  | _, _, @ExchangedIn.wrap _ _ _ k _ h, hl, depth, m, hm =>
    (h.coincidesAt hg hR hl depth hm).bind
      (Layout.Plain.keepsMarker (l := k) (hg.keepMarker_evaluators c depth) hl)
      fun _ _ hab => (Run.Coincides.observing fun s =>
        Run.coincides_pure (hab.wrap s.marker.nested)).at m
  | _, _, .within _ h, hl, depth, _, _ => .under (h.coincidesAt hg hR hl depth rfl)

end

/-! ### Formatting -/

theorem keep_eq_of_sameOutcome (o : Options) {x y : Run Sql}
    (h : Run.SameOutcome (x {}) (y {})) : keep o x = keep o y := by
  unfold keep ExceptT.run
  generalize x {} = first, y {} = second at h
  cases h with
  | ok hab t =>
    dsimp only
    rw [hab o.placeholder]
  | error e t => rfl

/-- The depths at which two values are evaluated differ, but a bounded grammar does not use
them up. -/
theorem Exchanged.keep_eq (hg : g.Bounded) (hplain : g.Plain) (hR : g.Interchangeable c R)
    (o : Options) (h : Exchanged g c R v w) :
    keep o (g.evalExpr c v) = keep o (g.evalExpr c w) := by
  have hv : g.evalExpr c v = (g.evaluators c (v.weight + w.weight)).expr false v :=
    hg.expr_eq c false (by omega) (by omega)
  have hw : g.evalExpr c w = (g.evaluators c (v.weight + w.weight)).expr false w :=
    hg.expr_eq c false (by omega) (by omega)
  rw [hv, hw]
  exact keep_eq_of_sameOutcome o (h.coincidesAt hplain hR _ false rfl [])

theorem ExchangedIn.keep_eq (hg : g.Bounded) (hplain : g.Plain) (hR : g.Interchangeable c R)
    (o : Options) (h : ExchangedIn g c R (.statement s) (.statement t)) :
    keep o (g.evalStatement c s) = keep o (g.evalStatement c t) := by
  have hs : g.evalStatement c s =
      (g.evaluators c ((Value.map s).weight + (Value.map t).weight)).statement s := by
    refine hg.statement_eq c ?_ ?_ <;> simp only [Value.weight] <;> omega
  have ht : g.evalStatement c t =
      (g.evaluators c ((Value.map s).weight + (Value.map t).weight)).statement t := by
    refine hg.statement_eq c ?_ ?_ <;> simp only [Value.weight] <;> omega
  rw [hs, ht]
  exact keep_eq_of_sameOutcome o (h.coincidesAt hplain hR trivial _ rfl [])

/-- An expression that is no statement, or a statement that passes the linter, is written. -/
theorem formatExpr_eq_bind {o : Options}
    (hv : ∀ s, v = .map s → Lint.check o.checking s o.params = .ok ()) :
    g.formatExpr v o = (g.resolveDialect o).bind fun d =>
      (keep o (g.evalExpr (g.context o d false) v)).bind (finish o) := by
  unfold formatExpr
  cases v with
  | map s =>
    simp only [hv s rfl]
    rfl
  | _ => rfl

/-- **Expressions around interchangeable ones are formatted alike**, if statements pass the linter:
what it complains about is shown as it stands. -/
theorem formatExpr_eq_of_exchanged (hg : g.Bounded) (hplain : g.Plain) {o : Options}
    (hv : ∀ s, v = .map s → Lint.check o.checking s o.params = .ok ())
    (hw : ∀ s, w = .map s → Lint.check o.checking s o.params = .ok ())
    (hR : ∀ d, g.Interchangeable (g.context o d false) R)
    (h : ∀ d, Exchanged g (g.context o d false) R v w) : g.formatExpr v o = g.formatExpr w o := by
  rw [formatExpr_eq_bind hv, formatExpr_eq_bind hw]
  refine congrArg ((g.resolveDialect o).bind ·) (funext fun d => ?_)
  rw [(h d).keep_eq hg hplain (hR d) o]

/-- **So are statements.** -/
theorem format_eq_of_exchanged (hg : g.Bounded) (hplain : g.Plain) {o : Options}
    (hs : Lint.check o.checking s o.params = .ok ())
    (ht : Lint.check o.checking t o.params = .ok ())
    (hR : ∀ d, g.Interchangeable (g.context o d false) R)
    (h : ∀ d, ExchangedIn g (g.context o d false) R (.statement s) (.statement t)) :
    g.format s o = g.format t o := by
  rw [format_of_check hs, format_of_check ht]
  refine congrArg ((g.resolveDialect o).bind ·) (funext fun d => ?_)
  rw [(h d).keep_eq hg hplain (hR d) o]

end Grammar
end Clausal
