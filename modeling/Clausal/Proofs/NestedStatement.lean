import Clausal.Proofs.Depth.Bounded
import Clausal.Proofs.Draft.Evaluation

/-! # Statements inside statements

A statement that stands inside another one is written as on its own, in parentheses: its holes are
numbered after the parameters that are bound already, its parameters come after those, and the
marker is afterwards what it was before (`Grammar.nested_as_on_its_own`).

A run *settles* at some markers when it has the same outcome at all of them, whatever is bound
already (`Run.Settles`).  The outcome of an expression depends on the alias position, and that of a
form or an operator on whether it is nested.  A clause puts the alias position aside and
does not ask whether it is nested, so a statement settles at all markers alike.
-/
namespace Clausal

/-- The SQL with every hole numbered `k` places further on. -/
def Sql.shift (k : Nat) (sql : Sql) : Sql :=
  sql.map fun
    | .text s => .text s
    | .hole n => .hole (k + n)

/-- When `k` more parameters are bound already, every hole is numbered `k` places further on. -/
theorem Settled.sql_add (k j : Nat) (r : Settled) : r.sql (k + j) = (r.sql j).shift k := by
  induction r generalizing j with
  | nil => rfl
  | cons spot r ih =>
    cases spot with
    | text s => exact congrArg (Piece.text s :: ·) (ih j)
    | slot slot => exact congrArg (Piece.hole (k + j + 1) :: ·) (ih (j + 1))

/-! ### Runs that settle -/

namespace Run

/-- The run has one outcome at all these markers, whatever is bound already. -/
def Settles (x : Run Sql) (kind : Marker → Prop) : Prop :=
  ∃ p, ∀ m, kind m → x.Yields m p

end Run

/-- The outcome of an expression depends on the alias position only, and that of a statement not
on the marker at all. -/
structure Evaluators.Local (sub : Evaluators) : Prop where
  expr : ∀ nested v aliased, (sub.expr nested v).Settles fun m => m.aliasPosition = aliased
  statement : ∀ s, (sub.statement s).Settles fun _ => True

namespace Layout
variable {c : Context} {sub : Evaluators}

open Run in
/-- The outcome of a layout depends on the alias position, and if it asks for it, on whether it
is nested. -/
theorem settles (hsub : sub.Local) {n : Nat} {asks : Bool} {l : Layout} (hl : l.Plain)
    (hfits : l.Fits n asks) (aliased nested : Bool) :
    (l.eval c sub).Settles fun m =>
      m.aliasPosition = aliased ∧ (asks = true → m.nested = nested) := by
  -- On the layout, at every alias position: `within` and `aliased` change it for what is inside.
  induction l generalizing aliased with
  | text s => exact ⟨_, fun m _ => yields_text m s⟩
  | fail complaint fragment => exact ⟨_, fun m _ => yields_throw m _⟩
  | entity name => exact ⟨_, fun m _ => yields_text m _⟩
  | aliasName name => exact ⟨_, fun m _ => yields_text m _⟩
  | aliasMark => exact ⟨_, fun m _ => yields_text m _⟩
  | missing column => exact ⟨_, fun m _ => yields_text m _⟩
  | value v => exact ⟨_, fun m _ => yields_value c m v⟩
  | named name => exact ⟨_, fun m _ => yields_named c m name⟩
  | namedList name => exact ⟨_, fun m _ => yields_namedList c m name⟩
  | literal v => exact ⟨_, fun m _ => yields_literal m v.literal⟩
  | expr nesting v =>
    cases nesting with
    | top =>
      obtain ⟨p, hp⟩ := hsub.expr false v aliased
      exact ⟨p, fun m hm => hp m hm.1⟩
    | nested =>
      obtain ⟨p, hp⟩ := hsub.expr true v aliased
      exact ⟨p, fun m hm => hp m hm.1⟩
    | same =>
      obtain ⟨p, hp⟩ := hsub.expr nested v aliased
      refine ⟨p, fun m hm => ?_⟩
      obtain rfl : m.nested = nested := hm.2 (hfits.1 rfl)
      exact (hp m hm.1).of_eq fun _ => rfl
  | aliased v =>
    obtain ⟨p, hp⟩ := hsub.expr false v true
    exact ⟨p, fun m _ => yields_under (hp _ rfl)⟩
  | statement s =>
    obtain ⟨p, hp⟩ := hsub.statement s
    exact ⟨p, fun m _ => hp m trivial⟩
  | append a b iha ihb =>
    obtain ⟨p, hp⟩ := iha hl.1 hfits.1 aliased
    obtain ⟨q, hq⟩ := ihb hl.2 hfits.2 aliased
    exact ⟨_, fun m hm => (hp m hm).both (hq m hm) Settled.slots_append Settled.sql_append⟩
  | beside sep a b iha ihb =>
    obtain ⟨p, hp⟩ := iha hl.1 hfits.1 aliased
    obtain ⟨q, hq⟩ := ihb hl.2 hfits.2 aliased
    exact ⟨_, fun m hm => (hp m hm).both (hq m hm) (Settled.slots_beside sep)
      fun k => Settled.sql_beside k sep⟩
  | lead s body ih =>
    obtain ⟨p, hp⟩ := ih hl hfits aliased
    exact ⟨_, fun m hm => (hp m hm).after (fun _ _ => rfl) (Settled.slots_lead s)
      fun k => Settled.sql_lead k s⟩
  | wrap body ih =>
    obtain ⟨p, hp⟩ := ih hl hfits.2 aliased
    refine ⟨p.map (Settled.wrap nested), fun m hm => ?_⟩
    obtain rfl : m.nested = nested := hm.2 hfits.1
    exact (hp m hm).after
      (f := fun sql => if m.nested && !sql.isEmpty then sql.parens else sql) (fun _ _ => rfl)
      (Settled.slots_wrap m.nested) fun k => Settled.sql_wrap k m.nested
  | within tag body ih =>
    obtain ⟨p, hp⟩ := ih hl hfits false
    exact ⟨p, fun m hm => yields_under (hp _ ⟨rfl, hm.2⟩)⟩
  | observe read => exact hl.elim
  | bind name => exact hl.elim
  | setAlias on => exact hl.elim

open Run in
theorem yields_parens {l : Layout} {m : Marker} {p : Except Fault Settled}
    (h : (l.eval c sub).Yields m p) : ((parens l).eval c sub).Yields m (p.map Settled.parens) := by
  have hopened := (yields_text m "(").both h Settled.slots_append Settled.sql_append
  have hclosed := hopened.both (yields_text m ")") Settled.slots_append Settled.sql_append
  cases p with
  | error e => exact hclosed
  | ok r => exact hclosed

open Run in
theorem settles_joinKept (sep : String) {ls : List Layout} {kind : Marker → Prop}
    (h : ∀ l ∈ ls, (l.eval c sub).Settles kind) : ((joinKept sep ls).eval c sub).Settles kind := by
  induction ls with
  | nil => exact ⟨_, fun m _ => yields_text m ""⟩
  | cons l ls ih =>
    obtain ⟨p, hp⟩ := h l List.mem_cons_self
    obtain ⟨q, hq⟩ := ih fun l' hl' => h l' (List.mem_cons_of_mem l hl')
    exact ⟨_, fun m hm => (hp m hm).both (hq m hm) (Settled.slots_beside sep)
      fun k => Settled.sql_beside k sep⟩

end Layout

/-! ### Grammars -/

namespace Grammar
variable {g : Grammar}

open Run in
/-- Evaluators of a plain and bounded grammar are local at every depth. -/
theorem Plain.local (hg : g.Plain) (hb : g.Bounded) (c : Context) (depth : Nat) :
    (g.evaluators c depth).Local := by
  induction depth with
  | zero =>
    constructor
    · intro nested v aliased
      exact ⟨_, fun m _ => yields_throw m _⟩
    · intro s
      exact ⟨_, fun m _ => yields_throw m _⟩
  | succ depth ih =>
    constructor
    · intro nested v aliased
      obtain ⟨p, hp⟩ := Layout.settles (c := c) ih (hg.exprLayout aliased v)
        (hb.fits_exprLayout aliased (Nat.le_succ v.weight)) false nested
      refine ⟨p, fun m hm => ?_⟩
      obtain rfl : m.aliasPosition = aliased := hm
      have hunder : Yields
          (under (fun m => { m with aliasPosition := false, nested := nested })
            ((g.exprLayout m.aliasPosition v).eval c (g.evaluators c depth))) m p :=
        yields_under (hp _ ⟨rfl, fun _ => rfl⟩)
      exact hunder.of_eq fun _ => rfl
    · intro s
      show ((g.statementLayout c s).eval c (g.evaluators c depth)).Settles fun _ => True
      refine Layout.settles_joinKept " " fun l hl => ?_
      obtain ⟨e, -, hlayout⟩ := List.mem_filterMap.mp hl
      obtain ⟨rule, hrule, rfl⟩ := Option.map_eq_some_iff.mp hlayout
      obtain ⟨p, hp⟩ := Layout.settles (c := c) ih (hg.clause e.1 rule hrule e.2 s)
        (hb.clause e.1 rule hrule e.2 s) false false
      exact ⟨p, fun m _ => yields_under (hp _ ⟨rfl, nofun⟩)⟩

/-- A statement in parentheses settles as the statement does. -/
theorem yields_nestedStatement {c : Context} {sub : Evaluators} {s : Statement} {m : Marker}
    {p : Except Fault Settled} (h : (sub.statement s).Yields m p) :
    ((Layout.nestedStatement s).eval c sub).Yields m (p.map Settled.parens) :=
  Layout.yields_parens h

/-- At every depth that covers it, the expression for a statement settles as the statement does on
its own, in parentheses. -/
theorem Plain.yields_nested (hg : g.Plain) (hb : g.Bounded) (c : Context) (s : Statement) :
    ∃ p, (∀ m, (g.evalStatement c s).Yields m p) ∧
      ∀ depth, (Value.map s).weight ≤ depth → ∀ nested m,
        ((g.evaluators c depth).expr nested (.map s)).Yields m (p.map Settled.parens) := by
  obtain ⟨p, hp⟩ := (hg.local hb c ((Value.map s).weight + spareDepth)).statement s
  refine ⟨p, fun m => hp m trivial, fun depth hdepth nested m => ?_⟩
  simp only [Value.weight] at hdepth
  obtain ⟨depth, rfl⟩ : ∃ d, depth = d + 1 := ⟨depth - 1, by omega⟩
  have hstatement : (g.evaluators c depth).statement s = g.evalStatement c s := by
    refine hb.statement_eq c (by omega) ?_
    simp only [Value.weight]
    omega
  have hbody : ∀ m, ((g.evaluators c depth).statement s).Yields m p := fun m => by
    rw [hstatement]
    exact hp m trivial
  have hunder : (Run.under (fun m => { m with aliasPosition := false, nested := nested })
      ((Layout.nestedStatement s).eval c (g.evaluators c depth))).Yields m
        (p.map Settled.parens) :=
    Run.yields_under (yields_nestedStatement (hbody _))
  exact hunder.of_eq fun _ => rfl

/-- **A statement inside another one is written as on its own.**  In every session the
expression for the statement gives the SQL of a fresh session in parentheses, with its holes
numbered after the parameters that are bound already; it binds the same parameters after those
and leaves the marker as it was.  If the statement cannot be written on its own, the expression
fails in the same way and leaves the marker as it was. -/
theorem nested_as_on_its_own (c : Context) (s : Statement) (nested : Bool) (extra : Nat)
    (before : Session) :
    match standard.evalStatement c s {} with
    | (.ok sql, fresh) =>
      (standard.evaluators c ((Value.map s).weight + extra)).expr nested (.map s) before =
        (.ok (sql.shift before.slots.length).parens,
          { before with slots := before.slots ++ fresh.slots })
    | (.error e, _) =>
      ∃ slots, (standard.evaluators c ((Value.map s).weight + extra)).expr nested (.map s) before =
        (.error e, { before with slots := slots }) := by
  obtain ⟨p, hfresh, hnested⟩ := standard_plain.yields_nested standard_bounded c s
  have hyields := hnested _ (Nat.le_add_right _ extra) nested before.marker
  cases p with
  | error e =>
    obtain ⟨slots, hrun⟩ := hfresh {} []
    obtain ⟨slots', hrun'⟩ := hyields before.slots
    rw [hrun]
    exact ⟨slots', hrun'⟩
  | ok r =>
    have hrun := hyields before.slots
    rw [Settled.sql_parens, Settled.slots_parens] at hrun
    rw [hfresh {} []]
    show _ = (Except.ok ((r.sql 0).shift before.slots.length).parens, _)
    rw [← r.sql_add before.slots.length 0]
    exact hrun

end Grammar
end Clausal
