import Clausal.Grammar.Basic
import Clausal.Proofs.Draft.Basic
import Clausal.Proofs.Registry.Moves

/-! # Registrations

A registration of a clause is refused, and then nothing changes, or it takes the clause out of the
order and puts it in again at its new place (`ClauseTable.register_cases`).  The clauses in the
order are therefore at all times those that have a rule, each once (`Grammar.Reachable.sound`).
-/
namespace Clausal

/-- A check that fails ends a registration, and nothing is changed by it. -/
theorem Registering.run_checked {σ α β : Type} (check : Except RegistrationFault α)
    (next : α → Registering σ β) (registry : σ) :
    (liftM check >>= next : Registering σ β).run registry =
      match check with
      | .ok a => (next a).run registry
      | .error e => (.error e, registry) := by
  cases check <;> rfl

theorem Registering.run_get {σ β : Type} (next : σ → Registering σ β) (registry : σ) :
    (get >>= next : Registering σ β).run registry = (next registry).run registry := rfl

namespace ClauseTable

variable {t t' : ClauseTable} {tag key : String} {rule : ClauseRule} {before place : Option String}

/-! ### Places in the order -/

theorem placeAmong_le (others : List String) (before : Option String) :
    placeAmong others before ≤ others.length := by
  unfold placeAmong
  split
  · rename_i before
    cases hplace : others.idxOf? before with
    | none => exact Nat.le_refl _
    | some n => exact Nat.le_of_lt (List.idxOf?_eq_some_iff.mp hplace).1
  · exact Nat.le_refl _

theorem insertIdx_placeAmong (tag before : String) (others : List String) :
    others.insertIdx (placeAmong others (some before)) tag = insertBefore tag before others := by
  induction others with
  | nil => rfl
  | cons t ts ih =>
    by_cases ht : t = before
    · simp [placeAmong, insertBefore, List.idxOf?_cons, ht]
    · have hnext : placeAmong (t :: ts) (some before) = placeAmong ts (some before) + 1 := by
        simp only [placeAmong, List.idxOf?_cons, beq_iff_eq, if_neg ht]
        cases ts.idxOf? before <;> rfl
      rw [hnext, List.insertIdx_succ_cons, ih, insertBefore, if_neg ht]

theorem idxOf?_insertIdx {others : List String} {n : Nat} (h : tag ∉ others)
    (hn : n ≤ others.length) : (others.insertIdx n tag).idxOf? tag = some n := by
  induction others generalizing n with
  | nil =>
    obtain rfl : n = 0 := by simpa using hn
    simp [List.idxOf?_cons]
  | cons t ts ih =>
    cases n with
    | zero => simp [List.idxOf?_cons]
    | succ n =>
      have ht : t ≠ tag := fun heq => h (heq ▸ List.mem_cons_self)
      have hts : tag ∉ ts := fun hmem => h (List.mem_cons_of_mem _ hmem)
      rw [List.insertIdx_succ_cons, List.idxOf?_cons, if_neg (by simpa using ht),
        ih hts (Nat.le_of_succ_le_succ hn)]
      rfl

/-- The order after a clause was put in its place. -/
def placed (tag : String) (before : Option String) (order : List String) : List String :=
  let others := order.filter (· != tag)
  others.insertIdx (placeAmong others before) tag

/-- The clause stands immediately before another one, whose tag is read as in a registration,
or last. -/
def Stands (order : List String) (tag : String) : Option String → Prop
  | none => ∃ left, order = left ++ [tag]
  | some before =>
    ∃ key left right, registryKey before = .ok key ∧ order = left ++ tag :: key :: right

theorem not_mem_others (tag : String) (order : List String) : tag ∉ order.filter (· != tag) := by
  simp

theorem placed_perm (tag : String) (before : Option String) (order : List String) :
    (placed tag before order).Perm (tag :: order.filter (· != tag)) :=
  List.perm_insertIdx _ _ (placeAmong_le _ before)

theorem mem_placed {x : String} {order : List String} :
    x ∈ placed tag before order ↔ x = tag ∨ x ∈ order := by
  rw [(placed_perm tag before order).mem_iff, List.mem_cons, List.mem_filter, bne_iff_ne]
  by_cases h : x = tag <;> simp [h]

theorem nodup_placed {order : List String} (h : order.Nodup) : (placed tag before order).Nodup := by
  rw [(placed_perm tag before order).nodup_iff]
  exact List.nodup_cons.mpr ⟨not_mem_others tag order, h.filter _⟩

theorem idxOf?_placed (tag : String) (before : Option String) (order : List String) :
    (placed tag before order).idxOf? tag =
      some (placeAmong (order.filter (· != tag)) before) :=
  idxOf?_insertIdx (not_mem_others tag order) (placeAmong_le _ before)

/-- All other clauses keep their order. -/
theorem filter_placed (tag : String) (before : Option String) (order : List String) :
    (placed tag before order).filter (· != tag) = order.filter (· != tag) := by
  unfold placed
  cases before with
  | none => simp [placeAmong, List.insertIdx_length_self]
  | some before =>
    rw [insertIdx_placeAmong, filter_insertBefore, List.filter_filter]
    simp only [Bool.and_self]

/-! ### What a registration does -/

theorem checkBefore_cases (h : t.checkBefore key before = .ok place) :
    (before = none ∧ place = none) ∨
      ∃ b b', before = some b ∧ place = some b' ∧ registryKey b = .ok b' ∧ b' ≠ key ∧
        b' ∈ t.order := by
  unfold checkBefore at h
  cases before with
  | none =>
    cases h
    exact .inl ⟨rfl, rfl⟩
  | some b =>
    dsimp only at h
    cases hb : registryKey b with
    | error e =>
      rw [hb] at h
      cases h
    | ok b' =>
      rw [hb] at h
      dsimp only at h
      split at h
      · cases h
      · rename_i hne
        split at h
        · rename_i hmem
          cases h
          exact .inr ⟨b, b', rfl, rfl, hb, hne, hmem⟩
        · cases h

theorem stands_placed (h : t.checkBefore key before = .ok place) :
    Stands (placed key place t.order) key before := by
  rcases checkBefore_cases h with ⟨rfl, rfl⟩ | ⟨b, b', rfl, rfl, hb, hne, hmem⟩
  · exact ⟨_, List.insertIdx_length_self⟩
  · have hothers : b' ∈ t.order.filter (· != key) :=
      List.mem_filter.mpr ⟨hmem, by simpa using hne⟩
    obtain ⟨left, right, -, -, hinsert⟩ := insertBefore_of_mem key hothers
    exact ⟨b', left, right, hb, (insertIdx_placeAmong key b' _).trans hinsert⟩

theorem run_register (hkey : registryKey tag = .ok key)
    (hplace : t.checkBefore key before = .ok place) :
    (register tag rule before).run t =
      (.ok ⟨key, placeAmong (t.order.filter (· != key)) place⟩,
        ⟨placed key place t.order, Table.put key rule t.rules⟩) := by
  rw [register, Registering.run_checked, hkey]
  dsimp only
  rw [Registering.run_get, Registering.run_checked, hplace]
  rfl

/-- **A registration is refused and changes nothing, or puts the clause in its place.** -/
theorem register_cases (tag : String) (rule : ClauseRule) (before : Option String)
    (t : ClauseTable) :
    (∃ e, (register tag rule before).run t = (.error e, t)) ∨
      ∃ key place, registryKey tag = .ok key ∧ t.checkBefore key before = .ok place ∧
        (register tag rule before).run t =
          (.ok ⟨key, placeAmong (t.order.filter (· != key)) place⟩,
            ⟨placed key place t.order, Table.put key rule t.rules⟩) := by
  cases hkey : registryKey tag with
  | error e =>
    refine .inl ⟨e, ?_⟩
    rw [register, Registering.run_checked, hkey]
  | ok key =>
    cases hplace : t.checkBefore key before with
    | error e =>
      refine .inl ⟨e, ?_⟩
      rw [register, Registering.run_checked, hkey]
      dsimp only
      rw [Registering.run_get, Registering.run_checked, hplace]
    | ok place => exact .inr ⟨key, place, rfl, hplace, run_register hkey hplace⟩

theorem of_register_eq_ok {entry : ClauseEntry}
    (h : (register tag rule before).run t = (.ok entry, t')) :
    ∃ key place, registryKey tag = .ok key ∧ t.checkBefore key before = .ok place ∧
      entry = ⟨key, placeAmong (t.order.filter (· != key)) place⟩ ∧
      t' = ⟨placed key place t.order, Table.put key rule t.rules⟩ := by
  rcases register_cases tag rule before t with ⟨e, hrun⟩ | ⟨key, place, hkey, hplace, hrun⟩
  · cases h.symm.trans hrun
  · cases h.symm.trans hrun
    exact ⟨key, place, hkey, hplace, rfl, rfl⟩

/-- The clauses in the order are those that have a rule, each once. -/
structure Sound (t : ClauseTable) : Prop where
  nodup : t.order.Nodup
  mem_order : ∀ tag, tag ∈ t.order ↔ (t.rule? tag).isSome = true

/-- What a registration that is not refused does to the clauses. -/
structure Registered (t t' : ClauseTable) (tag : String) (rule : ClauseRule)
    (before : Option String) (entry : ClauseEntry) : Prop where
  key : registryKey tag = .ok entry.tag
  priority : t'.priority? entry.tag = some entry.priority
  ruled : t'.rule? entry.tag = some rule
  stands : Stands t'.order entry.tag before
  others : t'.order.filter (· != entry.tag) = t.order.filter (· != entry.tag)
  otherRules : ∀ other, other ≠ entry.tag → t'.rule? other = t.rule? other

theorem sound_builtin : builtin.Sound where
  nodup := by decide +kernel
  mem_order := Table.mem_keys_iff_has Clause.builtin

theorem Sound.register (h : t.Sound) (tag : String) (rule : ClauseRule) (before : Option String) :
    ((ClauseTable.register tag rule before).run t).2.Sound := by
  rcases register_cases tag rule before t with ⟨e, hrun⟩ | ⟨key, place, -, -, hrun⟩
  · rwa [hrun]
  · rw [hrun]
    refine ⟨nodup_placed h.nodup, fun other => ?_⟩
    show other ∈ placed key place t.order ↔ (Table.get? other (Table.put key rule t.rules)).isSome
    rw [mem_placed, h.mem_order, Table.get?_put, rule?]
    by_cases hother : other = key
    · simp [hother]
    · simp [hother, Ne.symm hother]

theorem registered_of_run {entry : ClauseEntry}
    (h : (register tag rule before).run t = (.ok entry, t')) :
    t.Registered t' tag rule before entry := by
  obtain ⟨key, place, hkey, hplace, rfl, rfl⟩ := of_register_eq_ok h
  exact
    { key := hkey
      priority := idxOf?_placed key place t.order
      ruled := by rw [rule?, Table.get?_put, if_pos rfl]
      stands := stands_placed hplace
      others := filter_placed key place t.order
      otherRules := fun other hother => by
        rw [rule?, Table.get?_put, if_neg (Ne.symm hother), rule?] }

end ClauseTable

namespace Grammar

variable {g g' : Grammar}

theorem run_onClauses {α : Type} (change : Registering ClauseTable α) (g : Grammar) :
    (onClauses change).run g =
      ((change.run g.clauses).1, { g with clauses := (change.run g.clauses).2 }) := rfl

theorem run_registerForm (tag : String) (rule : FormRule) (g : Grammar) :
    (registerForm tag rule).run g =
      match registryKey tag with
      | .ok key => (.ok key, { g with forms := Table.put key rule g.forms })
      | .error e => (.error e, g) := by
  rw [registerForm, Registering.run_checked]
  cases registryKey tag <;> rfl

theorem run_registerDialect (name : String) (d : Dialect) (g : Grammar) :
    (registerDialect name d).run g =
      match registryKey name with
      | .ok key => (.ok d, { g with dialects := Table.put key d g.dialects })
      | .error e => (.error e, g) := by
  rw [registerDialect, Registering.run_checked]
  cases registryKey name <;> rfl

theorem run_registerOperator (tag : String) (policy : OperatorPolicy) (g : Grammar) :
    (registerOperator tag policy).run g =
      match registryKey tag with
      | .ok key =>
        if policy.sql = some "" then (.error (.emptySql key), g)
        else (.ok policy, { g with operators := Table.put key policy g.operators })
      | .error e => (.error e, g) := by
  rw [registerOperator, Registering.run_checked]
  cases registryKey tag with
  | error e => rfl
  | ok key =>
    dsimp only
    split <;> rfl

/-! ### Sequences of registrations -/

/-- A request to change a grammar. -/
inductive Registration where
  | clause (tag : String) (rule : ClauseRule) (before : Option String)
  | form (tag : String) (rule : FormRule)
  | operator (tag : String) (policy : OperatorPolicy)
  | dialect (name : String) (dialect : Dialect)

/-- Why a change is refused, if it is, and the registry that it leaves. -/
def outcome {α : Type} (change : Registering Grammar α) (g : Grammar) :
    Option RegistrationFault × Grammar :=
  match change.run g with
  | (.ok _, g') => (none, g')
  | (.error e, g') => (some e, g')

theorem outcome_snd {α : Type} (change : Registering Grammar α) (g : Grammar) :
    (outcome change g).2 = (change.run g).2 := by
  unfold outcome
  rcases change.run g with ⟨_ | _, _⟩ <;> rfl

/-- What becomes of a request. -/
def answer (g : Grammar) : Registration → Option RegistrationFault × Grammar
  | .clause tag rule before => outcome (registerClause tag rule before) g
  | .form tag rule => outcome (registerForm tag rule) g
  | .operator tag policy => outcome (registerOperator tag policy) g
  | .dialect name d => outcome (registerDialect name d) g

/-- The grammars that registrations lead to, whether they are refused or not. -/
inductive Reachable : Grammar → Prop
  | standard : Reachable .standard
  | bare : Reachable .bare
  | registered {g : Grammar} (h : Reachable g) (r : Registration) : Reachable (g.answer r).2

/-- **A registration is refused and changes nothing, or keeps the clauses sound.** -/
theorem answer_cases (g : Grammar) (r : Registration) :
    (∃ e, g.answer r = (some e, g)) ∨
      ∃ g', g.answer r = (none, g') ∧ (g.clauses.Sound → g'.clauses.Sound) := by
  cases r with
  | clause tag rule before =>
    have hsound := fun h : g.clauses.Sound => h.register tag rule before
    simp only [answer, outcome]
    rw [registerClause, run_onClauses]
    rcases ClauseTable.register_cases tag rule before g.clauses with
      ⟨e, hrun⟩ | ⟨key, place, -, -, hrun⟩
    · rw [hrun]
      exact .inl ⟨e, rfl⟩
    · rw [hrun] at hsound ⊢
      exact .inr ⟨_, rfl, hsound⟩
  | form tag rule =>
    simp only [answer, outcome]
    rw [run_registerForm]
    cases registryKey tag with
    | error e => exact .inl ⟨e, rfl⟩
    | ok key => exact .inr ⟨_, rfl, id⟩
  | operator tag policy =>
    simp only [answer, outcome]
    rw [run_registerOperator]
    cases registryKey tag with
    | error e => exact .inl ⟨e, rfl⟩
    | ok key =>
      dsimp only
      by_cases hempty : policy.sql = some ""
      · rw [if_pos hempty]
        exact .inl ⟨_, rfl⟩
      · rw [if_neg hempty]
        exact .inr ⟨_, rfl, id⟩
  | dialect name d =>
    simp only [answer, outcome]
    rw [run_registerDialect]
    cases registryKey name with
    | error e => exact .inl ⟨e, rfl⟩
    | ok key => exact .inr ⟨_, rfl, id⟩

theorem Reachable.sound (h : g.Reachable) : g.clauses.Sound := by
  induction h with
  | standard => exact ClauseTable.sound_builtin
  | bare => exact ⟨.nil, fun tag => by simp [Grammar.bare, ClauseTable.rule?]⟩
  | @registered g _ r ih =>
    rcases answer_cases g r with ⟨e, hrun⟩ | ⟨g', hrun, hsound⟩
    · rwa [hrun]
    · rw [hrun]
      exact hsound ih

theorem eq_of_refused {r : Registration} {e : RegistrationFault}
    (h : g.answer r = (some e, g')) : g' = g := by
  rcases answer_cases g r with ⟨e', hrun⟩ | ⟨g'', hrun, -⟩
  · cases h.symm.trans hrun
    rfl
  · cases h.symm.trans hrun

/-- **The registry of clauses.** After any registrations the clauses in the order are those that
have a rule, each once, and a registration that is refused changes nothing.  One of a clause that
is not refused gives the place of the clause in the order; the clause stands there with its rule,
immediately before the clause it was put before or last, and no other clause is touched.  Under
`mysql` the assignments move before the conditions, and the other clauses keep their order. -/
theorem Reachable.registry_invariant (h : g.Reachable) :
    g.clauses.Sound ∧
      (∀ r e g', g.answer r = (some e, g') → g' = g) ∧
      (∀ tag rule before entry g', (registerClause tag rule before).run g = (.ok entry, g') →
        g.clauses.Registered g'.clauses tag rule before entry ∧
          g' = { g with clauses := g'.clauses }) ∧
      (g.clauseOrder .mysql).Perm g.clauses.order ∧
      ("set" ∈ g.clauses.order → "where" ∈ g.clauses.order →
        ∃ left right, g.clauseOrder .mysql = left ++ "set" :: "where" :: right) ∧
      (g.clauseOrder .mysql).filter (· != "set") = g.clauses.order.filter (· != "set") := by
  have hmysql : g.clauseOrder .mysql = moveBefore g.clauses.order "set" "where" := rfl
  rw [hmysql]
  refine ⟨h.sound, fun r e g' => eq_of_refused, ?_, moveBefore_perm _ _ _,
    moveBefore_adjacent (by decide), filter_moveBefore _ _ _⟩
  intro tag rule before entry g' hrun
  rw [registerClause, run_onClauses] at hrun
  cases hclauses : (ClauseTable.register tag rule before).run g.clauses with
  | mk result clauses =>
    rw [hclauses] at hrun
    cases hrun
    exact ⟨ClauseTable.registered_of_run hclauses, rfl⟩

/-- A new clause is put before `order-by`; the assignments still move under `mysql`. -/
theorem registry_invariant_qualify :
    let added := (registerClause ":Qualify " Clause.condition (some " ORDER-BY")).run standard
    added.1 = .ok ⟨"qualify", 34⟩ ∧
      standard.clauses.Registered added.2.clauses ":Qualify " Clause.condition (some " ORDER-BY")
        ⟨"qualify", 34⟩ ∧
      ∃ left right, added.2.clauseOrder .mysql = left ++ "set" :: "where" :: right := by
  intro added
  have hadded : added.1 = .ok ⟨"qualify", 34⟩ := eq_ok_of_toOption (by decide +kernel)
  have hreach := Reachable.standard.registered
    (.clause ":Qualify " Clause.condition (some " ORDER-BY"))
  rw [answer, outcome_snd] at hreach
  obtain ⟨-, -, hregistered, -⟩ := Reachable.standard.registry_invariant
  obtain ⟨-, -, -, -, hmysql, -⟩ := hreach.registry_invariant
  exact ⟨hadded, (hregistered _ _ _ _ _ (Prod.ext hadded rfl)).1,
    hmysql (by decide +kernel) (by decide +kernel)⟩

end Grammar
end Clausal
