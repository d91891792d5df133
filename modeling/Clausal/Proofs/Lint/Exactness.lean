import Clausal.Lint
import Clausal.Proofs.Draft.Basic
import Clausal.Proofs.Reach

/-! # What the linter refuses

The rules of the linter, one by one and without the linter: a deletion or change without a condition
(`Lint.Unguarded`), a selection of nothing (`Lint.SelectsNothing`), a test for membership in an
empty list (`Lint.TestsEmpty`) and in a list with a null (`Lint.TestsNull`).  A statement passes
exactly when nothing that it reaches breaks a rule (`Lint.check_exact`).

The linter stops at the first violation, and asks about a list or a map before it goes into its
parts.  Neither matters here: what is not refused has been looked at whole.
-/
namespace Clausal
namespace Lint

/-! ### The rules -/

/-- The statement deletes or changes rows and has no condition, or a vacuous one. -/
def Unguarded (s : Statement) : Prop :=
  (∃ tag ∈ ["delete", "delete-from", "update"], s.contains tag = true) ∧
    ∀ condition, s.get? "where" = some condition → isVacuous condition = true

/-- The statement selects nothing. -/
def SelectsNothing (s : Statement) : Prop :=
  ("select", .seq []) ∈ s ∨ ("select-distinct", .seq []) ∈ s

/-- The value stands for this list of candidates: it is the list, or the named parameter that it
refers to has the list as its value. -/
inductive Candidates (params : Table Value) : Value → List Value → Prop where
  | listed (items : List Value) : Candidates params (.seq items) items
  | named {set : Value} {name : String} {items : List Value} (hset : set.paramRef? = some name)
      (hname : Table.get? name params = some (.seq items)) : Candidates params set items

/-- The value tests for membership in these candidates. -/
def TestsIn (params : Table Value) (v : Value) (candidates : List Value) : Prop :=
  ∃ head subject set, v = .seq [head, subject, set] ∧
    (head.isWord "in" = true ∨ head.isWord "not-in" = true) ∧ Candidates params set candidates

/-- The value tests for membership in an empty list. -/
def TestsEmpty (params : Table Value) (v : Value) : Prop := TestsIn params v []

/-- The value tests for membership in a list with a null. -/
def TestsNull (params : Table Value) (v : Value) : Prop :=
  ∃ candidates, TestsIn params v candidates ∧ .null ∈ candidates

/-- The value breaks a rule of the basic level. -/
def Broken (params : Table Value) (v : Value) : Prop :=
  (∃ s, v = .map s ∧ (Unguarded s ∨ SelectsNothing s)) ∨ TestsEmpty params v

/-! ### The linter on one value -/

theorem hasCondition_iff {s : Statement} : hasCondition s = true ↔
    ¬ ∀ condition, s.get? "where" = some condition → isVacuous condition = true := by
  unfold hasCondition
  split
  · rename_i condition hcondition
    simp [hcondition]
  · rename_i hnone
    simp [hnone]

theorem unguarded?_eq_none_iff {s : Statement} : unguarded? s = none ↔ ¬ Unguarded s := by
  have htags : guardedTags.findSome? (fun tag => s.get? tag) = none ↔
      ¬ ∃ tag ∈ ["delete", "delete-from", "update"], s.contains tag = true := by
    rw [List.findSome?_eq_none_iff]
    push Not
    refine forall₂_congr fun tag _ => ?_
    rw [Statement.contains, Table.has, ne_eq, Bool.not_eq_true, Option.isSome_eq_false_iff,
      Option.isNone_iff_eq_none]
    rfl
  unfold unguarded? Unguarded
  rw [not_and_or, ← htags, ← hasCondition_iff]
  split
  · rename_i hcondition
    exact iff_of_true rfl (.inr hcondition)
  · rename_i hmissing
    rw [Option.map_eq_none_iff, or_iff_left hmissing]

theorem emptySelection?_eq_none_iff {tag : String} {payload : Value} :
    emptySelection? tag payload = none ↔
      (tag, payload) ≠ ("select", .seq []) ∧ (tag, payload) ≠ ("select-distinct", .seq []) := by
  have hempty : isEmptyList payload = true ↔ payload = .seq [] := by
    cases payload with
    | seq items => cases items <;> simp [isEmptyList]
    | _ => simp [isEmptyList]
  unfold emptySelection?
  split
  · rename_i h
    rw [hempty] at h
    obtain ⟨rfl | rfl, rfl⟩ := h <;> simp
  · rename_i h
    rw [hempty] at h
    simp only [ne_eq, Prod.mk.injEq, true_iff]
    exact ⟨fun hs => h ⟨.inl hs.1, hs.2⟩, fun hs => h ⟨.inr hs.1, hs.2⟩⟩

theorem emptySelection?_entries_iff {s : Statement} :
    (∀ e ∈ s, emptySelection? e.1 e.2 = none) ↔ ¬ SelectsNothing s := by
  unfold SelectsNothing
  simp only [emptySelection?_eq_none_iff]
  constructor
  · rintro h (hmem | hmem)
    · exact (h _ hmem).1 rfl
    · exact (h _ hmem).2 rfl
  · intro h e he
    refine ⟨?_, ?_⟩
    · rintro heq
      exact h (.inl (heq ▸ he))
    · rintro heq
      exact h (.inr (heq ▸ he))

/-- A reference to a parameter has two items, and neither is a null. -/
theorem paramRef?_eq_none {items : List Value} (h : items = [] ∨ .null ∈ items) :
    (Value.seq items).paramRef? = none := by
  cases hname : (Value.seq items).paramRef? with
  | none => rfl
  | some name =>
    exfalso
    unfold Value.paramRef? at hname
    split at hname
    · rename_i heq
      cases heq
    · rename_i head arg heq
      cases heq
      obtain ⟨hhead, harg⟩ := Option.ite_none_right_eq_some.mp hname
      rcases h with h | h
      · cases h
      · rcases List.mem_pair.mp h with rfl | rfl
        · cases hhead
        · cases harg
    · cases hname

theorem candidates_of_eq_some {params : Table Value} {set : Value} {items : List Value}
    (h : candidates? params set = some items) : Candidates params set items := by
  have hseq : ∀ {v : Value}, v.seq? = some items → v = .seq items := by
    intro v hv
    cases v <;> cases hv
    rfl
  unfold candidates? at h
  split at h
  · rename_i name hname
    obtain ⟨v, hv, hitems⟩ := Option.bind_eq_some_iff.mp h
    exact .named hname (hseq hitems ▸ hv)
  · rw [hseq h]
    exact .listed items

theorem candidates?_of_candidates {params : Table Value} {set : Value} {items : List Value}
    (h : Candidates params set items) (hitems : items = [] ∨ .null ∈ items) :
    candidates? params set = some items := by
  unfold candidates?
  cases h with
  | listed =>
    rw [paramRef?_eq_none hitems]
    rfl
  | named hset hname =>
    rw [hset]
    simp only [hname]
    rfl

theorem testsIn_three {params : Table Value} {head subject set : Value} {items : List Value} :
    TestsIn params (.seq [head, subject, set]) items ↔
      (head.isWord "in" || head.isWord "not-in") = true ∧ Candidates params set items := by
  rw [Bool.or_eq_true]
  constructor
  · rintro ⟨_, _, _, heq, h⟩
    cases heq
    exact h
  · exact fun h => ⟨head, subject, set, rfl, h⟩

theorem any_isNull_iff {items : List Value} : items.any Value.isNull = true ↔ .null ∈ items := by
  rw [List.any_eq_true]
  constructor
  · rintro ⟨v, hv, hnull⟩
    cases v with
    | null => exact hv
    | _ => cases hnull
  · exact fun h => ⟨.null, h, rfl⟩

theorem membership?_eq_none_iff {level : LintLevel} {params : Table Value} {items : List Value} :
    membership? level params items = none ↔
      ¬ TestsEmpty params (.seq items) ∧ (level = .strict → ¬ TestsNull params (.seq items)) := by
  unfold TestsEmpty TestsNull membership?
  split
  · rename_i head subject set
    simp only [testsIn_three]
    split
    · rename_i hhead
      have hempty : Candidates params set [] ↔ candidates? params set = some [] :=
        ⟨fun h => candidates?_of_candidates h (.inl rfl), candidates_of_eq_some⟩
      have hnull : (∃ items, Candidates params set items ∧ .null ∈ items) ↔
          ∃ items, candidates? params set = some items ∧ .null ∈ items :=
        exists_congr fun items => and_congr_left fun hmem =>
          ⟨fun h => candidates?_of_candidates h (.inr hmem), candidates_of_eq_some⟩
      simp only [hhead, true_and, hempty, hnull]
      cases candidates? params set with
      | none => simp
      | some items =>
        cases items with
        | nil => simp
        | cons v items => simp [← any_isNull_iff]
    · rename_i hhead
      simp [hhead]
  · rename_i hthree
    have hnot : ∀ candidates, ¬ TestsIn params (.seq items) candidates := by
      rintro candidates ⟨head, subject, set, heq, -⟩
      cases heq
      exact hthree _ _ _ rfl
    simp [hnot]

/-! ### The linter on a whole value -/

/-- The value itself breaks no rule of the level. -/
def Passes (level : LintLevel) (params : Table Value) (v : Value) : Prop :=
  ¬ Broken params v ∧ (level = .strict → ¬ TestsNull params v)

section
variable {level : LintLevel} {params : Table Value}

theorem passes_atom {v : Value} (hv : v.isAtom = true) : Passes level params v := by
  have htests : ∀ candidates, ¬ TestsIn params v candidates := by
    rintro candidates ⟨head, subject, set, rfl, -⟩
    cases hv
  refine ⟨?_, ?_⟩
  · rintro (⟨s, rfl, -⟩ | hempty)
    · cases hv
    · exact htests [] hempty
  · rintro - ⟨candidates, hin, -⟩
    exact htests candidates hin

theorem passes_seq {items : List Value} :
    Passes level params (.seq items) ↔ membership? level params items = none := by
  rw [membership?_eq_none_iff]
  refine and_congr_left fun _ => not_congr ⟨?_, .inr⟩
  rintro (⟨s, heq, -⟩ | hempty)
  · cases heq
  · exact hempty

theorem passes_map {s : Statement} :
    Passes level params (.map s) ↔
      unguarded? s = none ∧ ∀ e ∈ s, emptySelection? e.1 e.2 = none := by
  have htests : ∀ candidates, ¬ TestsIn params (.map s) candidates := by
    rintro candidates ⟨head, subject, set, heq, -⟩
    cases heq
  rw [unguarded?_eq_none_iff, emptySelection?_entries_iff, ← not_or]
  constructor
  · exact fun h hs => h.1 (.inl ⟨s, rfl, hs⟩)
  · refine fun h => ⟨?_, ?_⟩
    · rintro (⟨t, heq, hs⟩ | hempty)
      · cases heq
        exact h hs
      · exact htests [] hempty
    · rintro - ⟨candidates, hin, -⟩
      exact htests candidates hin

theorem items?_eq_none_iff {items : List Value} :
    items? level params items = none ↔ ∀ v ∈ items, value? level params v = none := by
  induction items with
  | nil => simp [items?]
  | cons v items ih => rw [items?, Option.or_eq_none_iff, ih, List.forall_mem_cons]

theorem entries?_eq_none_iff {s : Statement} :
    entries? level params s = none ↔
      ∀ e ∈ s, emptySelection? e.1 e.2 = none ∧ value? level params e.2 = none := by
  induction s with
  | nil => simp [entries?]
  | cons e s ih =>
    rw [entries?, Option.or_eq_none_iff, Option.or_eq_none_iff, ih, List.forall_mem_cons]

/-- **Nothing is found in a value exactly when all that it reaches passes.** -/
theorem value?_eq_none_iff {v : Value} :
    value? level params v = none ↔ ∀ w, v.Reaches w → Passes level params w := by
  induction v using Value.nested_induction with
  | atom v hatom =>
    rw [Value.forall_reaches_atom hatom]
    refine iff_of_true ?_ (passes_atom hatom)
    cases v with
    | seq items => cases hatom
    | map s => cases hatom
    | _ => simp [value?]
  | seq items ih =>
    rw [Value.forall_reaches_seq, passes_seq, value?, Option.or_eq_none_iff, items?_eq_none_iff]
    exact and_congr_right fun _ => forall₂_congr ih
  | map s ih =>
    rw [Value.forall_reaches_map, passes_map, value?, Option.or_eq_none_iff, entries?_eq_none_iff,
      and_assoc]
    refine and_congr_right fun _ => ?_
    rw [← forall₂_and]
    exact forall₂_congr fun e he => and_congr_right fun _ => ih e he

theorem check_eq_ok_iff (hlevel : level ≠ .off) {s : Statement} :
    check level s params = .ok () ↔ ∀ w, (Value.map s).Reaches w → Passes level params w := by
  rw [← value?_eq_none_iff]
  cases level with
  | off => exact absurd rfl hlevel
  | _ =>
    unfold check
    dsimp only
    split
    · rename_i hviolation
      simp [hviolation]
    · rename_i hnone
      simp [hnone]

end

/-! ### Equal statements -/

end Lint

namespace Value

/-- What looks neither into lists nor into maps sees no difference between equal values. -/
theorem congr_of_equal {α : Type} {f : Value → α} {v w : Value} (h : v.equal w = true)
    (hseq : ∀ as bs, f (.seq as) = f (.seq bs)) (hmap : ∀ s t, f (.map s) = f (.map t)) :
    f v = f w := by
  cases v with
  | seq as =>
    cases w with
    | seq bs => exact hseq as bs
    | _ => cases h
  | map s =>
    cases w with
    | map t => exact hmap s t
    | _ => cases h
  | _ => rw [eq_of_equal_of_isAtom rfl h]

theorem isWord_of_equal {v w : Value} (h : v.equal w = true) (word : String) :
    v.isWord word = w.isWord word :=
  congr_of_equal (f := isWord word) h (fun _ _ => rfl) (fun _ _ => rfl)

theorem text?_of_equal {v w : Value} (h : v.equal w = true) : v.text? = w.text? :=
  congr_of_equal h (fun _ _ => rfl) (fun _ _ => rfl)

theorem distinct_of_reaches {v w : Value} (h : v.Reaches w) (hv : v.distinctKeys = true) :
    w.distinctKeys = true := by
  induction h with
  | self v => exact hv
  | item hmem _ ih => exact ih (distinct_of_mem_items hv _ hmem)
  | entry hmem _ ih => exact ih (distinct_of_mem_entries hv _ hmem)

/-- Equal maps have equal payloads under every key. -/
theorem get?_of_equal {s t : Statement} (h : (Value.map s).equal (.map t) = true) {key : String}
    {a : Value} (ha : s.get? key = some a) :
    ∃ b, t.get? key = some b ∧ a.equal b = true :=
  (equal_map_iff.mp h).2 (Statement.tagOf key, a) (Table.mem_of_get? ha)

theorem paramRef?_of_equal {v w : Value} (h : v.equal w = true) : v.paramRef? = w.paramRef? := by
  cases v with
  | seq as =>
    cases w with
    | seq bs =>
      rw [equal, equalItems_iff] at h
      -- Only a list of two can be a reference.
      rcases h with _ | ⟨hhead, _ | ⟨harg, _ | ⟨_, _⟩⟩⟩
      · rfl
      · rfl
      · simp only [paramRef?, isWord_of_equal hhead, text?_of_equal harg]
      · rfl
    | _ => cases h
  | map s =>
    cases w with
    | map t => rfl
    | _ => cases h
  | _ => rw [eq_of_equal_of_isAtom rfl h]

theorem isVacuous_of_equal {v w : Value} (h : v.equal w = true) : isVacuous v = isVacuous w := by
  induction v using nested_induction generalizing w with
  | atom v hatom => rw [eq_of_equal_of_isAtom hatom h]
  | seq as ih =>
    cases w with
    | seq bs =>
      rw [equal, equalItems_iff] at h
      cases h with
      | nil => rfl
      | cons hhead hrest =>
        rw [List.forall_mem_cons] at ih
        rw [isVacuous, isVacuous, isWord_of_equal hhead, isWord_of_equal hhead]
        refine congrArg _ ?_
        obtain ⟨-, ih⟩ := ih
        induction hrest with
        | nil => rfl
        | cons hab _ ihrest =>
          rw [List.forall_mem_cons] at ih
          rw [allVacuous, allVacuous, ih.1 hab, ihrest ih.2]
    | _ => cases h
  | map s ih =>
    cases w with
    | map t => rfl
    | _ => cases h

end Value

namespace Lint
variable {params : Table Value} {v w : Value}

theorem Unguarded.of_equal {s t : Statement} (hs : (Value.map s).distinctKeys = true)
    (ht : (Value.map t).distinctKeys = true) (heq : (Value.map s).equal (.map t) = true)
    (h : Unguarded s) : Unguarded t := by
  obtain ⟨⟨tag, htag, hhas⟩, hvacuous⟩ := h
  refine ⟨⟨tag, htag, ?_⟩, ?_⟩
  · obtain ⟨a, ha⟩ := Option.isSome_iff_exists.mp hhas
    obtain ⟨b, hb, -⟩ := Value.get?_of_equal heq ha
    exact Option.isSome_iff_exists.mpr ⟨b, hb⟩
  · intro condition hcondition
    obtain ⟨a, ha, hequal⟩ := Value.get?_of_equal (Value.equal_symm hs ht heq) hcondition
    rw [Value.isVacuous_of_equal hequal]
    exact hvacuous a ha

theorem SelectsNothing.of_equal {s t : Statement} (heq : (Value.map s).equal (.map t) = true)
    (h : SelectsNothing s) : SelectsNothing t := by
  have hentry : ∀ tag, (tag, Value.seq []) ∈ s → (tag, Value.seq []) ∈ t := by
    intro tag hmem
    obtain ⟨b, hb, hequal⟩ := (Value.equal_map_iff.mp heq).2 _ hmem
    cases b with
    | seq items =>
      cases items with
      | nil => exact Table.mem_of_get? hb
      | cons v items => cases hequal
    | _ => cases hequal
  exact h.imp (hentry _) (hentry _)

/-- Equal values stand for lists that have nulls at the same places. -/
theorem Candidates.of_equal {set other : Value} {items : List Value}
    (h : Candidates params set items) (heq : set.equal other = true) :
    ∃ others, Candidates params other others ∧
      List.Forall₂ (fun a b => a.isNull = b.isNull) items others := by
  cases h with
  | listed =>
    cases other with
    | seq others =>
      rw [Value.equal, Value.equalItems_iff] at heq
      refine ⟨others, .listed others, heq.imp fun a b hab => ?_⟩
      exact Value.congr_of_equal hab (fun _ _ => rfl) (fun _ _ => rfl)
    | _ => cases heq
  | named hset hname =>
    rw [Value.paramRef?_of_equal heq] at hset
    exact ⟨items, .named hset hname, List.forall₂_same.mpr fun _ _ => rfl⟩

theorem TestsIn.of_equal {items : List Value} (h : TestsIn params v items)
    (heq : v.equal w = true) :
    ∃ others, TestsIn params w others ∧
      List.Forall₂ (fun a b => a.isNull = b.isNull) items others := by
  obtain ⟨head, subject, set, rfl, hhead, hset⟩ := h
  cases w with
  | seq others =>
    rw [Value.equal, Value.equalItems_iff] at heq
    rcases heq with _ | ⟨hhead', _ | ⟨-, _ | ⟨hset', _ | ⟨_, _⟩⟩⟩⟩
    rw [Value.isWord_of_equal hhead', Value.isWord_of_equal hhead'] at hhead
    obtain ⟨others, hothers, hnulls⟩ := hset.of_equal hset'
    exact ⟨others, ⟨_, _, _, rfl, hhead, hothers⟩, hnulls⟩
  | _ => cases heq

theorem any_isNull_congr {items others : List Value}
    (h : List.Forall₂ (fun a b => a.isNull = b.isNull) items others) :
    items.any Value.isNull = others.any Value.isNull := by
  induction h with
  | nil => rfl
  | cons hab _ ih => rw [List.any_cons, List.any_cons, hab, ih]

theorem TestsNull.of_equal (h : TestsNull params v) (heq : v.equal w = true) :
    TestsNull params w := by
  obtain ⟨items, hin, hnull⟩ := h
  obtain ⟨others, hothers, hnulls⟩ := hin.of_equal heq
  refine ⟨others, hothers, ?_⟩
  rw [← any_isNull_iff] at hnull ⊢
  rwa [← any_isNull_congr hnulls]

theorem Broken.of_equal (hv : v.distinctKeys = true) (hw : w.distinctKeys = true)
    (heq : v.equal w = true) (h : Broken params v) : Broken params w := by
  rcases h with ⟨s, rfl, hs⟩ | hempty
  · cases w with
    | map t => exact .inl ⟨t, rfl, hs.imp (.of_equal hv hw heq) (.of_equal heq)⟩
    | _ => cases heq
  · obtain ⟨others, hothers, hnulls⟩ := TestsIn.of_equal hempty heq
    cases hnulls
    exact .inr hothers

/-- Equal statements pass together. -/
theorem check_of_equal {level : LintLevel} {s t : Statement}
    (hs : (Value.map s).distinctKeys = true) (ht : (Value.map t).distinctKeys = true)
    (heq : s.equal t = true) (h : check level s params = .ok ()) :
    check level t params = .ok () := by
  by_cases hlevel : level = .off
  · subst hlevel
    rfl
  rw [check_eq_ok_iff hlevel] at h ⊢
  intro w hw
  -- What is reached in the one has an equal that is reached in the other.
  have hdistinct := Value.distinct_of_reaches hw ht
  obtain ⟨v, hv, hequal⟩ := Value.reaches_of_equal hw (Value.equal_symm hs ht heq)
  obtain ⟨hbroken, hnull⟩ := h v hv
  have hdistinct' := Value.distinct_of_reaches hv hs
  exact ⟨fun hb => hbroken (hb.of_equal hdistinct hdistinct' hequal),
    fun hstrict hn => hnull hstrict (hn.of_equal hequal)⟩

/-- **The linter is exact.**  At the basic level it passes a statement exactly when nothing that the
statement reaches breaks a rule.  The strict level adds one rule and takes none away, and equal
statements pass together. -/
theorem check_exact (params : Table Value) :
    (∀ s, check .basic s params = .ok () ↔
      ∀ w, (Value.map s).Reaches w → ¬ Broken params w) ∧
    (∀ s, check .strict s params = .ok () ↔
      (∀ w, (Value.map s).Reaches w → ¬ Broken params w) ∧
        ∀ w, (Value.map s).Reaches w → ¬ TestsNull params w) ∧
    (∀ s, check .strict s params = .ok () → check .basic s params = .ok ()) ∧
    (∀ s e, check .basic s params = .error e → ∃ e', check .strict s params = .error e') ∧
    ∀ level (s t : Statement), (Value.map s).distinctKeys = true →
      (Value.map t).distinctKeys = true → s.equal t = true →
      (check level s params = .ok () ↔ check level t params = .ok ()) := by
  have hbasic : ∀ s, check .basic s params = .ok () ↔
      ∀ w, (Value.map s).Reaches w → ¬ Broken params w := by
    intro s
    rw [check_eq_ok_iff (by decide)]
    refine forall₂_congr fun w _ => and_iff_left nofun
  have hstrict : ∀ s, check .strict s params = .ok () ↔
      (∀ w, (Value.map s).Reaches w → ¬ Broken params w) ∧
        ∀ w, (Value.map s).Reaches w → ¬ TestsNull params w := by
    intro s
    rw [check_eq_ok_iff (by decide), ← forall₂_and]
    exact forall₂_congr fun w _ => and_congr_right fun _ => forall_prop_of_true rfl
  have hmono : ∀ s, check .strict s params = .ok () → check .basic s params = .ok () :=
    fun s h => (hbasic s).mpr ((hstrict s).mp h).1
  refine ⟨hbasic, hstrict, hmono, fun s e hfail => ?_, fun level s t hs ht heq => ?_⟩
  · cases hcheck : check .strict s params with
    | error e' => exact ⟨e', rfl⟩
    | ok u =>
      rw [hmono s hcheck] at hfail
      cases hfail
  · exact ⟨check_of_equal hs ht heq, check_of_equal ht hs (Value.equal_symm hs ht heq)⟩

/-- A change passes whichever of its clauses comes first. -/
theorem check_exact_reordered :
    check .basic [("update", .ident "t"),
        ("where", .seq [.ident "in", .ident "id", .seq [.int 1, .null]])] [] = .ok () ∧
      check .basic [("where", .seq [.ident "in", .ident "id", .seq [.int 1, .null]]),
        ("update", .ident "t")] [] = .ok () := by
  have hpasses : check .basic [("update", .ident "t"),
      ("where", .seq [.ident "in", .ident "id", .seq [.int 1, .null]])] [] = .ok () :=
    eq_ok_of_toOption (by decide +kernel)
  refine ⟨hpasses, ?_⟩
  exact ((check_exact []).2.2.2.2 .basic _ _ (by decide) (by decide) (by decide)).mp hpasses

end Lint
end Clausal
