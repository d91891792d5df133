import Clausal.Proofs.KeyOrder.Clauses

/-! # Expressions of alike values

Built-in forms and operators make alike layouts of alike arguments.  A grammar whose rules
all do so is *uniform* (`Grammar.Uniform`), and under a uniform grammar alike values have
alike layouts as expressions (`Grammar.Uniform.like_exprLayout`).
-/
namespace Clausal

open Value (Alike)

/-! ### Forms -/

namespace Form
variable {op : String} {v w : Value} {as bs : List Value}

open Layout

theorem like_unary {body : String → Value → Layout} (h : List.Forall₂ Alike as bs)
    (hbody : ∀ a b, Alike a b → (body op a).Like (body op b)) :
    (unary body op as).Like (unary body op bs) := (related_unary h hbody).like

theorem like_binary {body : String → Value → Value → Layout} (h : List.Forall₂ Alike as bs)
    (hbody : ∀ a b c d, Alike a b → Alike c d → (body op a c).Like (body op b d)) :
    (binary body op as).Like (binary body op bs) := (related_binary h hbody).like

theorem paramRef?_eq (h : Alike v w) : v.paramRef? = w.paramRef? := by
  cases h with
  | seq h =>
    cases h with
    | nil => rfl
    | cons hab h =>
      cases h with
      | nil => rfl
      | cons hcd h =>
        cases h with
        | nil => rw [Value.paramRef?, Value.paramRef?, hab.isWord, hcd.text?]
        | cons => rfl
  | _ => rfl

theorem like_candidates (h : Alike v w) : (candidates v).Like (candidates w) := by
  unfold candidates
  rw [paramRef?_eq h]
  split
  · rfl
  · have hnest := like_congruence.nest h
    cases h with
    | seq h => exact like_congruence.valueList h
    | _ => exact hnest

theorem like_membership (h : List.Forall₂ Alike as bs) :
    (membership op as).Like (membership op bs) := by
  refine like_binary h fun a b c d hab hcd => ?_
  simp [hab, like_candidates hcd]

theorem like_keywordArgument (h : Alike v w) : (keywordArgument v).Like (keywordArgument w) := by
  cases h <;> simp [keywordArgument]

theorem like_cast (h : List.Forall₂ Alike as bs) : (cast op as).Like (cast op bs) := by
  refine like_binary h fun a b c d hab hcd => ?_
  simp [hab, like_keywordArgument hcd]

theorem like_interval (h : List.Forall₂ Alike as bs) : (interval op as).Like (interval op bs) := by
  cases h with
  | nil => trivial
  | cons hab h =>
    cases h with
    | nil => simp [interval, hab]
    | cons hcd h =>
      cases h with
      | nil => simp [interval, hab, like_keywordArgument hcd]
      | cons => trivial

theorem like_parameter (h : List.Forall₂ Alike as bs) :
    (parameter op as).Like (parameter op bs) := by
  refine like_unary h fun a b hab => ?_
  rw [hab.text?]
  split <;> trivial

theorem like_array (h : List.Forall₂ Alike as bs) : (array op as).Like (array op bs) := by
  refine like_unary h fun a b hab => ?_
  have hwhole := hab
  cases hab <;> simp [hwhole, like_exprs hwhole]

theorem like_entity (h : List.Forall₂ Alike as bs) : (entity op as).Like (entity op bs) := by
  refine like_unary h fun a b hab => ?_
  rw [hab.text?]
  split <;> trivial

theorem like_escaping (h : List.Forall₂ Alike as bs) : (escaping op as).Like (escaping op bs) := by
  refine like_binary h fun a b c d hab hcd => ?_
  simp [hab, hcd]

theorem like_withinGroup (h : List.Forall₂ Alike as bs) :
    (withinGroup op as).Like (withinGroup op bs) := by
  refine like_binary h fun a b c d hab hcd => ?_
  simp [hab, like_orderItems hcd.items]

theorem like_window (h : Alike v w) : (window v).Like (window w) := by
  have hwhole := h
  cases h <;> simp [window, hwhole]

theorem like_windowed (h : List.Forall₂ Alike as bs) : (windowed op as).Like (windowed op bs) := by
  refine like_binary h fun a b c d hab hcd => ?_
  simp [hab, like_window hcd]

theorem like_atTimeZone (h : List.Forall₂ Alike as bs) :
    (atTimeZone op as).Like (atTimeZone op bs) := by
  refine like_binary h fun a b c d hab hcd => ?_
  have hzone := hcd
  cases hcd <;> simp [hab, hzone]

theorem like_ordered (h : List.Forall₂ Alike as bs) : (ordered op as).Like (ordered op bs) := by
  cases h with
  | nil => trivial
  | cons hab h => simp [ordered, hab, like_orderItems h]

/-- Every built-in form makes alike layouts of alike arguments. -/
theorem like_builtin (h : List.Forall₂ Alike as bs) :
    ∀ e ∈ builtin, (e.2 op as).Like (e.2 op bs) := by
  intro e he
  by_cases hwholly : e.1 ∈ wholly
  · exact (like_congruence.form h e he hwholly).like
  · have hverbatim : (verbatim op as).Like (verbatim op bs) := like_unary h fun _ _ => like_raw
    have hinlined : (inlined op as).Like (inlined op bs) :=
      like_congruence.join_map " " h fun _ _ hab => hab
    have hlifted : (lifted op as).Like (lifted op bs) := like_unary h fun _ _ hab => hab
    revert e
    simp [builtin, wholly, hverbatim, hinlined, hlifted, like_membership h, like_cast h,
      like_interval h, like_parameter h, like_array h, like_entity h, like_escaping h,
      like_withinGroup h, like_windowed h, like_atTimeZone h, like_ordered h]

end Form

/-! ### Grammars -/

namespace Grammar

/-- The rules of the grammar make alike layouts of alike values. -/
structure Uniform (g : Grammar) : Prop where
  clause : ∀ tag rule, g.clauses.rule? tag = some rule →
    ∀ {s t : Statement} {v w : Value}, Alike (.map s) (.map t) → Alike v w →
      listedColumns s tag v = listedColumns t tag w → (rule tag v s).Like (rule tag w t)
  form : ∀ key rule, g.form? key = some rule →
    ∀ {as bs : List Value}, List.Forall₂ Alike as bs → (rule key as).Like (rule key bs)

/-- **The standard grammar is uniform.** -/
theorem standard_uniform : standard.Uniform where
  clause tag rule h _ _ _ _ hs hv :=
    Clause.like_builtin hs hv (tag, rule) (Table.mem_of_get? h)
  form key rule h _ _ hargs := Form.like_builtin hargs (key, rule) (Table.mem_of_get? h)

theorem alike_sigilCall {rest : String} {call : Value} (h : sigilCall? rest = some call) :
    Alike call call := by
  unfold sigilCall? at h
  split at h
  · cases h
  · split at h
    · cases h
    · cases h
      refine .seq (.cons (.ident _) ?_)
      rw [List.forall₂_map_left_iff, List.forall₂_map_right_iff, List.forall₂_same]
      intro arg _
      exact .ident arg

theorem like_nameLayout (name : String) : (nameLayout name).Like (nameLayout name) := by
  unfold nameLayout
  split
  · split
    · rename_i call hcall
      exact ⟨rfl, alike_sigilCall hcall⟩
    · trivial
  · split <;> simp

theorem like_plainList (aliasPosition : Bool) {head head' : Value} {as bs : List Value}
    (hhead : Alike head head') (h : List.Forall₂ Alike as bs) :
    (plainList aliasPosition head as).Like (plainList aliasPosition head' bs) := by
  have hcall : (plainList false head as).Like (plainList false head' bs) := by
    cases hhead with
    | ident op => exact Layout.like_congruence.call op h
    | _ => trivial
  cases aliasPosition with
  | false => exact hcall
  | true =>
    cases h with
    | nil => exact Layout.like_top.mpr hhead
    | cons hname h =>
      cases h with
      | nil => exact Layout.like_withAlias hhead hname
      | cons => exact hcall

variable {g : Grammar}

/-- A name heads a form, an operator or neither, whatever its arguments. -/
theorem Uniform.headed?_cases (hg : g.Uniform) (op : String) {as bs : List Value}
    (h : List.Forall₂ Alike as bs) :
    g.headed? op as = none ∧ g.headed? op bs = none ∨
      ∃ l l', g.headed? op as = some l ∧ g.headed? op bs = some l' ∧ l.Like l' := by
  unfold headed?
  dsimp only
  cases hform : g.form? (Text.lower op) with
  | some rule => exact .inr ⟨_, _, rfl, rfl, hg.form _ rule hform h⟩
  | none =>
    cases g.operator? (Text.lower op) with
    | some policy => exact .inr ⟨_, _, rfl, rfl,
      (Layout.like_congruence.operator policy _ h _ _).like⟩
    | none => exact .inl ⟨rfl, rfl⟩

theorem Uniform.like_exprLayout (hg : g.Uniform) (aliasPosition : Bool) {v w : Value}
    (h : Alike v w) : (g.exprLayout aliasPosition v).Like (g.exprLayout aliasPosition w) := by
  have hwhole := h
  cases h with
  | ident name => exact like_nameLayout name
  | map => exact Layout.like_nestedStatement.mpr hwhole
  | seq h =>
    cases h with
    | nil => trivial
    | @cons head head' args args' hhead hargs =>
      have hplain := like_plainList aliasPosition hhead hargs
      unfold exprLayout listLayout
      dsimp only
      rw [hhead.ident?]
      cases head'.ident? with
      | none => exact hplain
      | some op =>
        rcases hg.headed?_cases op hargs with ⟨hv, hw⟩ | ⟨l, l', hv, hw, hl⟩
        · simp only [Option.bind_some, hv, hw]
          exact hplain
        · simp only [Option.bind_some, hv, hw]
          exact hl
  | null => rfl
  | _ => exact hwhole

end Grammar
end Clausal
