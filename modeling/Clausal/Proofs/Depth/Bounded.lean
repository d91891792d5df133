import Clausal.Proofs.Depth.Fits

/-! # The weight of a value bounds its evaluation

In a *bounded* grammar no rule lays out a value heavier than what it was asked about, and
clauses do not ask whether they stand inside an operator (`Grammar.Bounded`).  The standard grammar
is bounded.

Evaluators of a bounded grammar never come to the end of their depth, if they start with the weight
of the value.  Any two depths that cover a value therefore evaluate it to the same run
(`Bounded.expr_eq`, `Bounded.statement_eq`), and the spare depth of `Grammar.evalStatement` and
`Grammar.evalExpr` is not used.
-/
namespace Clausal

/-! ### Forms -/

namespace Form
open Layout

variable {op : String} {args : List Value} {n : Nat} {asks : Bool}

theorem fits_keywordArgument (v : Value) : (keywordArgument v).Fits n asks := by
  unfold keywordArgument
  split <;> trivial

theorem fits_window {v : Value} (h : v.weight ≤ n) : (window v).Fits n asks := by
  unfold window
  split
  · trivial
  · trivial
  · exact (fits_nestedStatement _).mpr (Value.weightEntries_lt h)
  · trivial
  · trivial

theorem fits_candidates {v : Value} (h : v.weight ≤ n) : (candidates v).Fits n asks := by
  unfold candidates
  split
  · trivial
  · split
    · exact fits_valueList fun w hw => Nat.le_trans (Value.weight_le_of_mem_seq hw) h
    · exact fits_nest h

section
variable (h : ∀ v ∈ args, v.weight ≤ n)
include h

theorem fits_unary {body : String → Value → Layout}
    (hbody : ∀ a, a.weight ≤ n → (body op a).Fits n asks) : (unary body op args).Fits n asks :=
  unary_of op args (fun _ _ => trivial) fun a ha => hbody a (h a ha)

theorem fits_binary {body : String → Value → Value → Layout}
    (hbody : ∀ a b, a.weight ≤ n → b.weight ≤ n → (body op a b).Fits n asks) :
    (binary body op args).Fits n asks :=
  binary_of op args (fun _ _ => trivial) fun a ha b hb => hbody a b (h a ha) (h b hb)

theorem fits_ternary {body : String → Value → Value → Value → Layout}
    (hbody : ∀ a b c, a.weight ≤ n → b.weight ≤ n → c.weight ≤ n → (body op a b c).Fits n asks) :
    (ternary body op args).Fits n asks :=
  ternary_of op args (fun _ _ => trivial) fun a ha b hb c hc =>
    hbody a b c (h a ha) (h b hb) (h c hc)

theorem fits_membership : (membership op args).Fits n true := by
  refine fits_binary h fun subject set hsubject hset => ?_
  simp [hsubject, fits_candidates hset]

theorem fits_negation : (negation op args).Fits n true :=
  fits_unary h fun v hv => by simp [hv]

theorem fits_existence : (existence op args).Fits n true := by
  refine fits_unary h fun v hv => ?_
  split
  · simpa using Value.weightEntries_lt hv
  · simpa using hv

theorem fits_range : (range op args).Fits n true :=
  fits_ternary h fun subject low high hsubject hlow hhigh => by simp [hsubject, hlow, hhigh]

theorem fits_branches : (branches args).Fits n true := by
  fun_induction branches args with
  | case1 condition result rest ih =>
    have hcondition := h condition (by simp)
    have hresult := h result (by simp)
    refine ⟨?_, ih fun v hv => h v (by simp [hv])⟩
    split
    · simpa using hresult
    · simpa using ⟨hcondition, hresult⟩
  | case2 => trivial

theorem fits_distinction : (distinction op args).Fits n true := by
  unfold distinction
  split
  · trivial
  · exact ⟨⟨trivial, fits_branches h⟩, trivial⟩

theorem fits_escaping : (escaping op args).Fits n true :=
  fits_binary h fun pattern _ hpattern _ => by simp [hpattern]

theorem fits_cast : (cast op args).Fits n true :=
  fits_binary h fun subject type hsubject _ => by simp [hsubject, fits_keywordArgument type]

theorem fits_interval : (interval op args).Fits n true := by
  unfold interval
  split
  · simpa using h
  · rename_i amount unit
    have hamount := h amount (by simp)
    simp [hamount, fits_keywordArgument unit]
  · trivial

theorem fits_parameter : (parameter op args).Fits n true := by
  refine fits_unary h fun v _ => ?_
  split <;> trivial

theorem fits_array : (array op args).Fits n true := by
  refine fits_unary h fun v hv => ?_
  split
  · simpa using Value.weightEntries_lt hv
  · exact ⟨⟨trivial, fits_exprs hv⟩, trivial⟩

theorem fits_entity : (entity op args).Fits n true := by
  refine fits_unary h fun v _ => ?_
  split <;> trivial

theorem fits_filtered : (filtered op args).Fits n true :=
  fits_binary h fun aggregate predicate haggregate hpredicate => by simp [haggregate, hpredicate]

theorem fits_withinGroup : (withinGroup op args).Fits n true :=
  fits_binary h fun aggregate order haggregate horder => by
    simp [haggregate, fits_orderItems horder]

theorem fits_windowed : (windowed op args).Fits n true :=
  fits_binary h fun subject spec hsubject hspec => by simp [hsubject, fits_window hspec]

theorem fits_atTimeZone : (atTimeZone op args).Fits n true :=
  fits_binary h fun subject _ hsubject _ => by simp [hsubject]

theorem fits_ordered : (ordered op args).Fits n true := by
  unfold ordered
  split
  · rename_i subject items
    have hsubject := h subject (by simp)
    refine ⟨⟨(fits_top _).mpr hsubject, trivial⟩, ?_⟩
    unfold orderItems
    rw [fits_commas_map]
    exact fun v hv => fits_orderItem (h v (by simp [hv]))
  · trivial

end

/-- Every built-in form lays out values from inside its arguments. -/
theorem fits_builtin (op : String) {args : List Value} (h : ∀ v ∈ args, v.weight ≤ n) :
    ∀ e ∈ builtin, (e.2 op args).Fits n true := by
  have hverbatim : (verbatim op args).Fits n true := fits_unary h fun _ hv => fits_raw hv
  have hnested : (nested op args).Fits n true := fits_unary h fun _ hv => fits_nest hv
  have hlifted : (lifted op args).Fits n true := fits_unary h fun _ _ => trivial
  have hdistinct : (distinct op args).Fits n true := fits_unary h fun v hv => by simp [hv]
  simp [builtin, inlined, composite, hverbatim, hnested, hlifted, hdistinct, fits_membership h,
    fits_negation h, fits_existence h, fits_range h, fits_distinction h, fits_cast h,
    fits_interval h, fits_parameter h, fits_array h, fits_entity h, fits_escaping h,
    fits_filtered h, fits_withinGroup h, fits_windowed h, fits_atTimeZone h, fits_ordered h,
    fits_valueList h]

end Form

/-! ### Operators -/

section
variable {n : Nat}

theorem fits_comparison (op sql : String) {lhs rhs : Value} (hlhs : lhs.weight ≤ n)
    (hrhs : rhs.weight ≤ n) : (comparison op sql lhs rhs).Fits n true := by
  unfold comparison
  dsimp only
  split
  · simp [hlhs, hrhs]
  · split
    · simp [hlhs]
    · split
      · simp [hrhs]
      · simp [hlhs, hrhs]

theorem mem_neighbours {α : Type} {xs : List α} {p : α × α} (h : p ∈ neighbours xs) :
    p.1 ∈ xs ∧ p.2 ∈ xs := by
  obtain ⟨hfst, hsnd⟩ := List.of_mem_zip h
  exact ⟨hfst, List.mem_of_mem_tail hsnd⟩

theorem OperatorPolicy.fits_joined (p : OperatorPolicy) (op sql : String) (whole : Value)
    {operands : List Value} (h : ∀ v ∈ operands, v.weight ≤ n) :
    (p.joined op sql operands whole).Fits n true := by
  unfold joined
  split
  · split
    · exact ⟨rfl, fits_comparison op sql (h _ (by simp)) (h _ (by simp))⟩
    · trivial
  · refine ⟨rfl, ?_⟩
    rw [Layout.fits_join_map]
    intro pair hpair
    obtain ⟨hfst, hsnd⟩ := mem_neighbours hpair
    exact fits_comparison op sql (h _ hfst) (h _ hsnd)
  · refine ⟨rfl, ?_⟩
    rw [Layout.fits_joinKept]
    intro l hl
    obtain ⟨v, hv, rfl⟩ := List.mem_map.mp hl
    exact (Layout.fits_inner v).mpr (h v hv)

theorem OperatorPolicy.fits_layout (p : OperatorPolicy) (op : String) (whole : Value)
    {args : List Value} (h : ∀ v ∈ args, v.weight ≤ n) :
    (p.layout op args whole).Fits n true := by
  have hoperands : ∀ v ∈ (if p.ignoreNull then args.filter (fun v => !v.isNull) else args),
      v.weight ≤ n := by
    intro v hv
    split at hv
    · exact h v (List.mem_filter.mp hv).1
    · exact h v hv
  unfold layout
  dsimp only
  generalize (if p.ignoreNull then args.filter (fun v => !v.isNull) else args) = operands
    at hoperands
  split
  · split <;> trivial
  · split
    · exact ⟨fun _ => rfl, hoperands _ (by simp)⟩
    · trivial
  · exact p.fits_joined op _ whole hoperands

end

/-! ### Names -/

/-- Every separator that is cut out makes the pieces lighter by one. -/
theorem Value.weightItems_pieces (sep : Char) (cs : List Char) :
    weightItems ((Text.pieces sep cs).map fun piece => .ident (String.ofList piece)) +
      (Text.pieces sep cs).length = 2 * cs.length + 2 := by
  fun_induction Text.pieces sep cs with
  | case1 => simp [weightItems, weight]
  | case2 cs ih =>
    simp only [List.map_cons, weightItems, weight, List.length_cons, String.length_ofList,
      List.length_nil]
    omega
  | case3 c cs hne hnil ih => simp [hnil, weightItems] at ih
  | case4 c cs hne first rest hpieces ih =>
    rw [hpieces] at ih
    simp only [List.map_cons, weightItems, weight, List.length_cons, String.length_ofList] at ih ⊢
    omega

/-- The call that a sigil stands for is lighter than the name with the sigil. -/
theorem Value.weight_sigilCall {rest : String} {call : Value}
    (h : Grammar.sigilCall? rest = some call) : call.weight ≤ 2 * rest.length + 2 := by
  have hpieces := Value.weightItems_pieces '.' rest.toList
  unfold Grammar.sigilCall? Text.split at h
  cases hsplit : Text.pieces '.' rest.toList with
  | nil =>
    rw [hsplit] at h
    cases h
  | cons first others =>
    rw [hsplit] at h hpieces
    rw [List.map_cons] at h
    dsimp only at h
    split at h
    · cases h
    · cases h
      -- Empty arguments are dropped, which only makes the call lighter.
      have hkept := Value.weightItems_filter_le Value.ident (fun a => !a.isEmpty)
        (others.map String.ofList)
      rw [List.map_map, Function.comp_def] at hkept
      simp only [List.map_cons, weightItems, List.length_cons, String.length_toList] at hpieces
      simp only [call, weight, weightItems] at hpieces ⊢
      omega

theorem Text.length_of_stripLeading? {c : Char} {s rest : String}
    (h : Text.stripLeading? c s = some rest) : s.length = rest.length + 1 := by
  unfold Text.stripLeading? at h
  split at h
  · cases h
  · rename_i d ds hlist
    split at h
    · cases h
      rw [← String.length_toList, hlist, String.length_ofList, List.length_cons]
    · cases h

namespace Grammar

theorem fits_nameLayout (name : String) : (nameLayout name).Fits (2 * name.length) true := by
  unfold nameLayout
  split
  · rename_i rest hrest
    split
    · rename_i call hcall
      have hlength := Text.length_of_stripLeading? hrest
      have hweight := Value.weight_sigilCall hcall
      refine ⟨fun _ => rfl, ?_⟩
      omega
    · trivial
  · split <;> trivial

theorem fits_plainList (aliasPosition : Bool) (head : Value) (args : List Value) :
    (plainList aliasPosition head args).Fits (Value.weightItems (head :: args)) true := by
  have hmem : ∀ v ∈ head :: args, v.weight ≤ Value.weightItems (head :: args) :=
    fun _ hv => Value.weight_le_of_mem hv
  unfold plainList
  split
  · exact (Layout.fits_top _).mpr (hmem _ List.mem_cons_self)
  · exact Layout.fits_withAlias (hmem _ List.mem_cons_self) _
  · split
    · exact Layout.fits_call _ fun v hv => hmem v (List.mem_cons_of_mem _ hv)
    · trivial

/-! ### Grammars -/

/-- Rules lay out no value that is heavier than what they were asked about, and clauses do not
ask whether they stand inside an operator. -/
structure Bounded (g : Grammar) : Prop where
  clause : ∀ tag rule, g.clauses.rule? tag = some rule →
    ∀ payload s, (rule tag payload s).Fits payload.weight false
  form : ∀ key rule, g.form? key = some rule →
    ∀ args, (rule key args).Fits (Value.weightItems args) true

/-- **The standard grammar is bounded.** -/
theorem standard_bounded : standard.Bounded where
  clause tag rule h payload s :=
    Clause.fits_builtin tag s payload (tag, rule) (Table.mem_of_get? h)
  form key rule h _ :=
    Form.fits_builtin key (fun _ hv => Value.weight_le_of_mem hv) (key, rule) (Table.mem_of_get? h)

variable {g : Grammar}

theorem Bounded.headed (hg : g.Bounded) {op : String} {args : List Value} {l : Layout}
    (h : g.headed? op args = some l) : l.Fits (Value.weightItems args) true := by
  unfold headed? at h
  dsimp only at h
  split at h
  · rename_i rule hrule
    cases h
    exact hg.form _ rule hrule args
  · obtain ⟨p, -, rfl⟩ := Option.map_eq_some_iff.mp h
    exact p.fits_layout _ _ fun _ hv => Value.weight_le_of_mem hv

/-- The layout of a value fits in one level less than the value needs. -/
theorem Bounded.fits_exprLayout (hg : g.Bounded) (aliasPosition : Bool) {v : Value} {n : Nat}
    (h : v.weight ≤ n + 1) : (g.exprLayout aliasPosition v).Fits n true := by
  cases v with
  | ident name =>
    simp only [Value.weight] at h
    exact (fits_nameLayout name).mono (by omega)
  | seq items =>
    cases items with
    | nil => trivial
    | cons head args =>
      simp only [Value.weight, Value.weightItems] at h
      unfold exprLayout listLayout
      dsimp only
      split
      · rename_i l hl
        obtain ⟨op, -, hheaded⟩ := Option.bind_eq_some_iff.mp hl
        exact (hg.headed hheaded).mono (by omega)
      · refine (fits_plainList aliasPosition head args).mono ?_
        simp only [Value.weightItems]
        omega
  | map s =>
    simp only [Value.weight] at h
    refine (Layout.fits_nestedStatement s).mpr ?_
    omega
  | _ => trivial

/-- The layout of a statement fits in the weight of its entries. -/
theorem Bounded.fits_statementLayout (hg : g.Bounded) (c : Context) (s : Statement) :
    (g.statementLayout c s).Fits (Value.weightEntries s) false := by
  unfold statementLayout
  rw [Layout.fits_joinKept]
  intro l hl
  obtain ⟨e, he, hlayout⟩ := List.mem_filterMap.mp hl
  obtain ⟨rule, hrule, rfl⟩ := Option.map_eq_some_iff.mp hlayout
  have hmem : e ∈ s := by
    simp only [arranged, List.mem_map, List.mem_mergeSort] at he
    obtain ⟨_, ⟨e', he', rfl⟩, rfl⟩ := he
    exact he'
  exact (hg.clause e.1 rule hrule e.2 s).mono (Value.weight_le_of_mem_entries hmem)

end Grammar

/-! ### Evaluators -/

/-- The evaluators agree on what can be evaluated in `n` levels. -/
structure Evaluators.Agree (n : Nat) (sub sub' : Evaluators) : Prop where
  expr : ∀ nested v, v.weight ≤ n → sub.expr nested v = sub'.expr nested v
  statement : ∀ s, Value.weightEntries s < n → sub.statement s = sub'.statement s

/-- Evaluators that agree on all values inside a layout give it the same SQL. -/
theorem Layout.eval_congr {c : Context} {n : Nat} {asks : Bool} {sub sub' : Evaluators}
    (hsub : sub.Agree n sub') {l : Layout} (hl : l.Fits n asks) : l.eval c sub = l.eval c sub' := by
  induction l with
  | expr nesting v =>
    cases nesting with
    | top => exact hsub.expr false v hl.2
    | nested => exact hsub.expr true v hl.2
    | same =>
      simp only [eval]
      exact congrArg (Bind.bind get) (funext fun s => hsub.expr s.marker.nested v hl.2)
  | aliased v => rw [eval, eval, hsub.expr false v hl]
  | statement s => exact hsub.statement s hl
  | append a b iha ihb => rw [eval, eval, iha hl.1, ihb hl.2]
  | beside sep a b iha ihb => rw [eval, eval, iha hl.1, ihb hl.2]
  | lead s body ih => rw [eval, eval, ih hl]
  | wrap body ih => rw [eval, eval, ih hl.2]
  | within tag body ih => rw [eval, eval, ih hl]
  | _ => rfl

namespace Grammar
variable {g : Grammar}

/-- Any two depths that cover a value evaluate it to the same run. -/
theorem Bounded.agree (hg : g.Bounded) (c : Context) {n depth depth' : Nat} (h : n ≤ depth)
    (h' : n ≤ depth') : (g.evaluators c depth).Agree n (g.evaluators c depth') := by
  induction n generalizing depth depth' with
  | zero =>
    refine ⟨fun _ v hv => ?_, fun s hs => ?_⟩
    · exact absurd v.weight_pos (by omega)
    · omega
  | succ n ih =>
    obtain ⟨d, rfl⟩ : ∃ d, depth = d + 1 := ⟨depth - 1, by omega⟩
    obtain ⟨d', rfl⟩ : ∃ d', depth' = d' + 1 := ⟨depth' - 1, by omega⟩
    have hsub := ih (Nat.le_of_succ_le_succ h) (Nat.le_of_succ_le_succ h')
    constructor
    · intro nested v hv
      have hlayout : ∀ a, (g.exprLayout a v).eval c (g.evaluators c d) =
          (g.exprLayout a v).eval c (g.evaluators c d') :=
        fun a => Layout.eval_congr hsub (hg.fits_exprLayout a hv)
      simp only [evaluators, hlayout]
    · intro s hs
      exact Layout.eval_congr hsub ((hg.fits_statementLayout c s).mono (Nat.le_of_lt_succ hs))

/-- **The weight of a value bounds the depth of its evaluation.** -/
theorem Bounded.expr_eq (hg : g.Bounded) (c : Context) (nested : Bool) {v : Value}
    {depth depth' : Nat} (h : v.weight ≤ depth) (h' : v.weight ≤ depth') :
    (g.evaluators c depth).expr nested v = (g.evaluators c depth').expr nested v :=
  (hg.agree c h h').expr nested v (Nat.le_refl _)

theorem Bounded.statement_eq (hg : g.Bounded) (c : Context) {s : Statement} {depth depth' : Nat}
    (h : Value.weightEntries s < depth) (h' : Value.weightEntries s < depth') :
    (g.evaluators c depth).statement s = (g.evaluators c depth').statement s :=
  (hg.agree c h h').statement s (Nat.lt_succ_self _)

end Grammar
end Clausal
