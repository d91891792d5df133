import Clausal.Proofs.Depth.Bounded
import Clausal.Proofs.Draft.Evaluation

/-! # Evaluation comes to an end

Evaluating a value lays it out and evaluates the expressions and statements in the layout, its
*tasks*.  Under the standard grammar every task weighs less than what it comes from
(`Bounded.weight_lt_of_mem`), so the recursion ends on every value: it has exactly one solution, it
is what `Grammar.evalExpr` and `Grammar.evalStatement` compute, and it never reports an endless
expansion (`Grammar.evaluation_ends`).

Nothing here goes by the nesting of values alone.  A call sigil is a name that is laid out as a list
of new names, each of which may start with a sigil again; the measure counts the
characters of names for that reason.
-/
namespace Clausal

/-! ### Tasks -/

/-- What evaluators are asked for. -/
inductive Task where
  | expr (v : Value)
  | statement (s : Statement)

/-- What a task weighs.  A statement weighs less than the map that it is as an expression. -/
def Task.weight : Task → Nat
  | .expr v => v.weight
  | .statement s => Value.weightEntries s + 1

/-- What the evaluation of a layout asks for. -/
def Layout.tasks : Layout → List Task
  | .expr _ v => [.expr v]
  | .aliased v => [.expr v]
  | .statement s => [.statement s]
  | .append a b => a.tasks ++ b.tasks
  | .beside _ a b => a.tasks ++ b.tasks
  | .lead _ body => body.tasks
  | .wrap body => body.tasks
  | .within _ body => body.tasks
  | _ => []

/-- What a task asks for in turn, at an alias position or not. -/
def Grammar.subtasks (g : Grammar) (c : Context) (aliasPosition : Bool) : Task → List Task
  | .expr v => (g.exprLayout aliasPosition v).tasks
  | .statement s => (g.statementLayout c s).tasks

theorem Layout.Fits.weight_le {n : Nat} {asks : Bool} {l : Layout} (h : l.Fits n asks) :
    ∀ t ∈ l.tasks, t.weight ≤ n := by
  induction l with
  | expr nesting v =>
    intro t ht
    cases List.mem_singleton.mp ht
    exact h.2
  | aliased v =>
    intro t ht
    cases List.mem_singleton.mp ht
    exact h
  | statement s =>
    intro t ht
    cases List.mem_singleton.mp ht
    exact h
  | append a b iha ihb => exact List.forall_mem_append.mpr ⟨iha h.1, ihb h.2⟩
  | beside sep a b iha ihb => exact List.forall_mem_append.mpr ⟨iha h.1, ihb h.2⟩
  | lead s body ih => exact ih h
  | wrap body ih => exact ih h.2
  | within tag body ih => exact ih h
  | _ => exact nofun

/-- **Every task weighs less than what it comes from.** -/
theorem Grammar.Bounded.weight_lt_of_mem {g : Grammar} (hg : g.Bounded) (c : Context)
    (aliasPosition : Bool) (t : Task) :
    ∀ u ∈ g.subtasks c aliasPosition t, u.weight < t.weight := by
  intro u hu
  cases t with
  | expr v =>
    obtain ⟨n, hn⟩ : ∃ n, v.weight = n + 1 := ⟨v.weight - 1, by have := v.weight_pos; omega⟩
    have hfits := hg.fits_exprLayout aliasPosition (Nat.le_of_eq hn)
    have hle := hfits.weight_le u hu
    show u.weight < v.weight
    omega
  | statement s => exact Nat.lt_succ_of_le ((hg.fits_statementLayout c s).weight_le u hu)

/-! ### The recursion -/

/-- The evaluators do the same for a task. -/
def Evaluators.SameOn (sub sub' : Evaluators) : Task → Prop
  | .expr v => ∀ nested, sub.expr nested v = sub'.expr nested v
  | .statement s => sub.statement s = sub'.statement s

theorem Evaluators.eq_of_sameOn {sub sub' : Evaluators} (h : ∀ t, sub.SameOn sub' t) :
    sub = sub' := by
  have hexpr : sub.expr = sub'.expr := funext fun nested => funext fun v => h (.expr v) nested
  have hstatement : sub.statement = sub'.statement := funext fun s => h (.statement s)
  cases sub
  cases sub'
  cases hexpr
  cases hstatement
  rfl

/-- The evaluation of a layout depends on the evaluators through its tasks only. -/
theorem Layout.eval_of_tasks {c : Context} {sub sub' : Evaluators} {l : Layout}
    (h : ∀ t ∈ l.tasks, sub.SameOn sub' t) : l.eval c sub = l.eval c sub' := by
  induction l with
  | expr nesting v =>
    have hv : ∀ nested, sub.expr nested v = sub'.expr nested v := h _ List.mem_cons_self
    cases nesting with
    | top => exact hv false
    | nested => exact hv true
    | same =>
      simp only [eval]
      exact congrArg (Bind.bind get) (funext fun s => hv s.marker.nested)
  | aliased v =>
    have hv : ∀ nested, sub.expr nested v = sub'.expr nested v := h _ List.mem_cons_self
    rw [eval, eval, hv false]
  | statement s => exact h _ List.mem_cons_self
  | append a b iha ihb =>
    obtain ⟨ha, hb⟩ := List.forall_mem_append.mp h
    rw [eval, eval, iha ha, ihb hb]
  | beside sep a b iha ihb =>
    obtain ⟨ha, hb⟩ := List.forall_mem_append.mp h
    rw [eval, eval, iha ha, ihb hb]
  | lead s body ih => rw [eval, eval, ih h]
  | wrap body ih => rw [eval, eval, ih h]
  | within tag body ih => rw [eval, eval, ih h]
  | _ => rfl

namespace Grammar

/-- One level of the evaluation: a value is laid out, and its tasks are left to others. -/
def level (g : Grammar) (c : Context) (sub : Evaluators) : Evaluators where
  expr nested v := do
    let aliasPosition := (← get).marker.aliasPosition
    Run.under (fun m => { m with aliasPosition := false, nested := nested })
      ((g.exprLayout aliasPosition v).eval c sub)
  statement s := (g.statementLayout c s).eval c sub

theorem evaluators_succ (g : Grammar) (c : Context) (depth : Nat) :
    g.evaluators c (depth + 1) = g.level c (g.evaluators c depth) := rfl

/-- The evaluators without a bound on the depth. -/
def unlimited (g : Grammar) (c : Context) : Evaluators where
  expr nested v := (g.evaluators c (v.weight + spareDepth)).expr nested v
  statement := g.evalStatement c

variable {g : Grammar} {c : Context} {sub sub' : Evaluators}

theorem level_sameOn {t : Task}
    (h : ∀ aliasPosition, ∀ u ∈ g.subtasks c aliasPosition t, sub.SameOn sub' u) :
    (g.level c sub).SameOn (g.level c sub') t := by
  cases t with
  | expr v =>
    intro nested
    have hlayout : ∀ a, (g.exprLayout a v).eval c sub = (g.exprLayout a v).eval c sub' :=
      fun a => Layout.eval_of_tasks (h a)
    simp only [level, hlayout]
  | statement s => exact Layout.eval_of_tasks (h false)

/-- A task that the depth covers is evaluated as without a bound. -/
theorem Bounded.sameOn_evaluators (hg : g.Bounded) (c : Context) {t : Task} {depth : Nat}
    (h : t.weight ≤ depth) : (g.unlimited c).SameOn (g.evaluators c depth) t := by
  cases t with
  | expr v =>
    intro nested
    show (g.evaluators c (v.weight + spareDepth)).expr nested v = _
    exact hg.expr_eq c nested (Nat.le_add_right _ _) h
  | statement s =>
    show (g.evaluators c ((Value.map s).weight + spareDepth)).statement s = _
    refine hg.statement_eq c ?_ h
    simp only [Value.weight]
    omega

/-- **The evaluators without a bound solve the recursion.** -/
theorem Bounded.level_unlimited (hg : g.Bounded) (c : Context) :
    g.level c (g.unlimited c) = g.unlimited c := by
  refine Evaluators.eq_of_sameOn fun t => ?_
  -- At a depth that covers the task, its subtasks are covered one level below.
  have hbelow : (g.level c (g.unlimited c)).SameOn (g.evaluators c (t.weight + 1)) t := by
    rw [evaluators_succ]
    refine level_sameOn fun aliasPosition u hu => hg.sameOn_evaluators c ?_
    exact Nat.le_of_lt (hg.weight_lt_of_mem c aliasPosition t u hu)
  have hcovered := hg.sameOn_evaluators c (Nat.le_succ t.weight)
  cases t with
  | expr v => exact fun nested => (hbelow nested).trans (hcovered nested).symm
  | statement s => exact hbelow.trans hcovered.symm

/-- The recursion has no other solution. -/
theorem Bounded.eq_of_level (hg : g.Bounded) (h : g.level c sub = sub)
    (h' : g.level c sub' = sub') : sub = sub' := by
  refine Evaluators.eq_of_sameOn fun t => ?_
  induction hn : t.weight using Nat.strongRecOn generalizing t with
  | _ n ih =>
    rw [← h, ← h']
    refine level_sameOn fun aliasPosition u hu => ih u.weight ?_ u rfl
    rw [← hn]
    exact hg.weight_lt_of_mem c aliasPosition t u hu

end Grammar

/-! ### Runs that come to an end -/

namespace Run
variable {α β : Type}

/-- In no session the run reports an endless expansion. -/
def Ends (x : Run α) : Prop := ∀ s, (x.run s).1 ≠ .error .endless

theorem ends_pure (a : α) : Ends (pure a) := fun _ => nofun

theorem ends_throw {e : Fault} (he : e ≠ .endless) : Ends (throw e : Run α) :=
  fun _ h => he (Except.error.inj h)

theorem ends_get : Ends (get : Run Session) := fun _ => nofun

theorem Ends.bind {x : Run α} {f : α → Run β} (hx : x.Ends) (hf : ∀ a, (f a).Ends) :
    (x >>= f).Ends := by
  intro s
  cases h : x s with
  | mk result t =>
    cases result with
    | ok a =>
      show ((x >>= f) s).1 ≠ _
      rw [bind_ok h]
      exact hf a t
    | error e =>
      show ((x >>= f) s).1 ≠ _
      rw [bind_error h]
      intro he
      refine hx s ?_
      show (x s).1 = _
      rw [h]
      exact congrArg Except.error (Except.error.inj he)

theorem Ends.under {x : Run α} (hx : x.Ends) (change : Marker → Marker) :
    (Run.under change x).Ends :=
  fun s => hx { s with marker := change s.marker }

end Run

mutual

/-- A value that cannot be written as a literal is malformed. -/
theorem Value.literal_ne_endless : ∀ v : Value, v.literal ≠ .error .endless
  | .null => nofun
  | .bool _ => nofun
  | .int _ => nofun
  | .float x => by
    rw [literal]
    split <;> exact nofun
  | .str _ => nofun
  | .ident _ => nofun
  | .seq items => by
    rw [literal]
    split
    · exact nofun
    · rename_i e he
      intro h
      cases h
      exact literals_ne_endless items he
  | .map _ => nofun

theorem Value.literals_ne_endless : ∀ vs : List Value, Value.literals vs ≠ .error .endless
  | [] => nofun
  | v :: vs => by
    rw [literals]
    split
    · rename_i e he
      intro h
      cases h
      exact literal_ne_endless v he
    · split
      · rename_i e he
        intro h
        cases h
        exact literals_ne_endless vs he
      · exact nofun

end

namespace Run
variable (c : Context)

theorem ends_ofLiteral (v : Value) : (ofLiteral v.literal).Ends := by
  have hliteral := v.literal_ne_endless
  unfold ofLiteral
  cases h : v.literal with
  | ok text => exact ends_pure _
  | error e =>
    refine Ends.bind (ends_throw ?_) fun _ => ends_pure _
    rintro rfl
    exact hliteral h

theorem ends_bind (slot : Slot) : (bind slot).Ends := fun _ => nofun

theorem ends_lookup (name : String) : (lookup c name).Ends := by
  unfold lookup
  split
  · exact ends_pure _
  · exact ends_throw nofun

theorem ends_value (v : Value) : (value c v).Ends := by
  unfold value
  split
  · exact ends_ofLiteral v
  · exact ends_bind _

theorem ends_named (name : String) : (named c name).Ends := by
  unfold named
  split
  · exact (ends_lookup c name).bind fun v => ends_ofLiteral v
  · split
    · exact ends_bind _
    · exact (ends_lookup c name).bind fun _ => ends_bind _

theorem ends_values (vs : List Value) : (values c vs).Ends := by
  fun_induction values c vs with
  | case1 => exact ends_pure _
  | case2 v => exact ends_value c v
  | case3 v vs _ ih => exact (ends_value c v).bind fun _ => ih.bind fun _ => ends_pure _

theorem ends_namedList (name : String) : (namedList c name).Ends := by
  unfold namedList
  split
  · exact ends_throw nofun
  · refine (ends_lookup c name).bind fun v => ?_
    split
    · exact (ends_values c _).bind fun _ => ends_pure _
    · exact (ends_named c name).bind fun _ => ends_pure _

end Run

/-- The evaluators come to an end with a task. -/
def Evaluators.EndsOn (sub : Evaluators) : Task → Prop
  | .expr v => ∀ nested, (sub.expr nested v).Ends
  | .statement s => (sub.statement s).Ends

open Run in
/-- The evaluation of a layout comes to an end if its tasks do. -/
theorem Layout.ends_eval {c : Context} {sub : Evaluators} {l : Layout}
    (h : ∀ t ∈ l.tasks, sub.EndsOn t) : (l.eval c sub).Ends := by
  induction l with
  | fail complaint fragment => exact ends_throw nofun
  | value v => exact ends_value c v
  | named name => exact ends_named c name
  | namedList name => exact ends_namedList c name
  | literal v => exact ends_ofLiteral v
  | expr nesting v =>
    have hv : ∀ nested, (sub.expr nested v).Ends := h _ List.mem_cons_self
    cases nesting with
    | top => exact hv false
    | nested => exact hv true
    | same => exact ends_get.bind fun s => hv s.marker.nested
  | aliased v =>
    have hv : ∀ nested, (sub.expr nested v).Ends := h _ List.mem_cons_self
    exact (hv false).under _
  | statement s => exact h _ List.mem_cons_self
  | append a b iha ihb =>
    obtain ⟨ha, hb⟩ := List.forall_mem_append.mp h
    exact (iha ha).bind fun _ => (ihb hb).bind fun _ => ends_pure _
  | beside sep a b iha ihb =>
    obtain ⟨ha, hb⟩ := List.forall_mem_append.mp h
    exact (iha ha).bind fun _ => (ihb hb).bind fun _ => ends_pure _
  | lead s body ih => exact (ih h).bind fun _ => ends_pure _
  | wrap body ih => exact (ih h).bind fun _ => ends_get.bind fun _ => ends_pure _
  | within tag body ih => exact (ih h).under _
  | _ => exact fun _ => nofun

namespace Grammar

theorem level_endsOn {g : Grammar} {c : Context} {sub : Evaluators} {t : Task}
    (h : ∀ aliasPosition, ∀ u ∈ g.subtasks c aliasPosition t, sub.EndsOn u) :
    (g.level c sub).EndsOn t := by
  cases t with
  | expr v => exact fun nested => Run.ends_get.bind fun s => (Layout.ends_eval (h _)).under _
  | statement s => exact Layout.ends_eval (h false)

/-- A solution of the recursion comes to an end with every task. -/
theorem Bounded.endsOn {g : Grammar} (hg : g.Bounded) {c : Context} {sub : Evaluators}
    (h : g.level c sub = sub) (t : Task) : sub.EndsOn t := by
  induction hn : t.weight using Nat.strongRecOn generalizing t with
  | _ n ih =>
    rw [← h]
    refine level_endsOn fun aliasPosition u hu => ih u.weight ?_ u rfl
    rw [← hn]
    exact hg.weight_lt_of_mem c aliasPosition t u hu

/-- **Evaluation comes to an end.**  Under the standard grammar, in every context, each task weighs
more than the tasks that it asks for.  The recursion has exactly one solution, which is
what is computed, and in no session it reports an endless expansion. -/
theorem evaluation_ends (c : Context) :
    (∀ aliasPosition t, ∀ u ∈ standard.subtasks c aliasPosition t, u.weight < t.weight) ∧
      ∃ sub : Evaluators, (∀ sub', standard.level c sub' = sub' ↔ sub' = sub) ∧
        sub.expr false = standard.evalExpr c ∧ sub.statement = standard.evalStatement c ∧
        (∀ nested v, (sub.expr nested v).Ends) ∧ ∀ s, (sub.statement s).Ends := by
  have hsolves := standard_bounded.level_unlimited c
  refine ⟨standard_bounded.weight_lt_of_mem c, standard.unlimited c, fun sub' => ⟨fun h => ?_, ?_⟩,
    rfl, rfl, fun nested v => ?_, fun s => ?_⟩
  · exact standard_bounded.eq_of_level h hsolves
  · rintro rfl
    exact hsolves
  · exact standard_bounded.endsOn hsolves (.expr v) nested
  · exact standard_bounded.endsOn hsolves (.statement s)

end Grammar
end Clausal
