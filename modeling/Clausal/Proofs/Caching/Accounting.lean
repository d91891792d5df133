import Clausal.Proofs.Caching.Run
import Clausal.Proofs.KeyOrder.Equivalence
import Mathlib.Data.Finset.Card

/-! # What a store counts

A store that is empty at first is used by calls and cleared now and then.  Its counters give the
number of calls that asked it, and its entries are one for each key under which a statement was
written for keeping since the store was last cleared (`Grammar.store_accounting`).

Keys count as the same when their statements are equal, whatever the order of the clauses, so they
are counted as classes (`KeyClass`).  Which calls ask, and which of them have something to keep, is
said without a store (`Grammar.askedDialect?`, `Grammar.keptKey?`): whether a call finds its entry
or makes it, its key is among the entries afterwards.  A call that cannot look up a name fails after
its entry was made, and the entry stays.
-/
namespace Clausal

/-! ### Classes of keys -/

/-- A key whose statement has no key twice, as it is for every statement. -/
structure ProperKey extends StoreKey where
  distinct : (Value.map statement).distinctKeys = true

/-- Keys of one entry. -/
instance ProperKey.setoid : Setoid ProperKey where
  r a b := a.toStoreKey.same b.toStoreKey = true
  iseqv := by
    refine ⟨fun a => ?_, fun {a b} h => ?_, fun {a b c} hab hbc => ?_⟩
    · rw [StoreKey.same, Bool.and_eq_true, beq_iff_eq]
      exact ⟨Value.equal_refl _ a.distinct, rfl⟩
    · rw [StoreKey.same, Bool.and_eq_true, beq_iff_eq] at h ⊢
      exact ⟨Value.equal_symm a.distinct b.distinct h.1, h.2.symm⟩
    · rw [StoreKey.same, Bool.and_eq_true, beq_iff_eq] at hab hbc ⊢
      exact ⟨Value.equal_trans hab.1 hbc.1, hab.2.trans hbc.2⟩

/-- A key up to the order of the clauses in its statement. -/
def KeyClass : Type := Quotient ProperKey.setoid

instance : DecidableEq KeyClass :=
  @Quotient.decidableEq _ ProperKey.setoid fun a b =>
    inferInstanceAs (Decidable (a.toStoreKey.same b.toStoreKey = true))

/-- The class of a key. -/
def ProperKey.toClass (key : ProperKey) : KeyClass := Quotient.mk _ key

theorem ProperKey.toClass_eq_iff {a b : ProperKey} :
    a.toClass = b.toClass ↔ a.toStoreKey.same b.toStoreKey = true :=
  ⟨Quotient.exact, fun h => Quotient.sound h⟩

/-! ### Uses of a store -/

/-- One use of a store. -/
inductive StoreUse where
  /-- A statement is written, or taken from the store. -/
  | call (call : Call)
  | clear

/-- The calls since the store was last cleared. -/
def sinceClear (uses : List StoreUse) : List Call :=
  uses.foldl (fun calls use =>
    match use with
    | .call call => calls ++ [call]
    | .clear => []) []

/-- The key of a call under a dialect. -/
def Call.key (call : Call) (d : Dialect) : ProperKey :=
  { statement := call.statement, fingerprint := call.options.fingerprint d,
    distinct := call.distinct }

namespace Grammar

/-- The store after one use. -/
def use (g : Grammar) (store : Store) : StoreUse → Store
  | .call call => (g.formatWith store call.statement call.options).2
  | .clear => store.clear

/-- The store after some uses, empty at first. -/
def storeAfter (g : Grammar) (uses : List StoreUse) : Store := uses.foldl g.use {}

/-- The dialect with which a call asks the store.  A call does not ask when values are written into
the text or the dialect has no registered name, when there is no such dialect, or when the statement
does not pass the checks. -/
def askedDialect? (g : Grammar) (call : Call) : Option Dialect :=
  if call.options.inline || call.options.isCustom then none
  else (g.admissible call.statement call.options).toOption

/-- The use is a call that asks the store. -/
def asks (g : Grammar) : StoreUse → Bool
  | .call call => (g.askedDialect? call).isSome
  | .clear => false

/-- The key under which a call has something to keep: it asks the store, and its statement can be
written for keeping. -/
def keptKey? (g : Grammar) (call : Call) : Option ProperKey :=
  (g.askedDialect? call).bind fun d =>
    (g.stored call.statement call.options d).toOption.map fun _ => call.key d

/-- The keys under which there is something to keep since the store was last cleared, up to
the order of clauses. -/
def keptClasses (g : Grammar) (uses : List StoreUse) : List KeyClass :=
  ((sinceClear uses).filterMap g.keptKey?).map ProperKey.toClass

end Grammar

/-! ### One use -/

namespace Store

/-- Asking is counted once, whatever is found. -/
theorem counts_lookup (store : Store) (key : StoreKey) :
    (store.lookup key).2.hits + (store.lookup key).2.misses = store.hits + store.misses + 1 := by
  unfold lookup
  split
  · exact Nat.add_right_comm store.hits 1 store.misses
  · rfl

/-- The entries have these keys, which belong to different classes. -/
structure Keyed (store : Store) (keys : List ProperKey) : Prop where
  entries : store.entries.map Prod.fst = keys.map ProperKey.toStoreKey
  nodup : (keys.map ProperKey.toClass).Nodup

variable {store : Store} {keys : List ProperKey}

theorem Keyed.length_eq (h : store.Keyed keys) : store.entries.length = keys.length := by
  simpa using congrArg List.length h.entries

/-- The store finds an entry for a key if it has an entry of its class. -/
theorem Keyed.find?_isSome_iff (h : store.Keyed keys) (key : ProperKey) :
    (store.find? key.toStoreKey).isSome = true ↔ key.toClass ∈ keys.map ProperKey.toClass := by
  have hfind : (store.find? key.toStoreKey).isSome = true ↔
      ∃ k ∈ store.entries.map Prod.fst, k.same key.toStoreKey = true := by
    simp only [find?, Option.isSome_map, List.find?_isSome, List.mem_map, exists_exists_and_eq_and]
  rw [hfind, h.entries, List.mem_map]
  simp only [List.mem_map, exists_exists_and_eq_and, ProperKey.toClass_eq_iff]

/-- A key of a new class is added at the end. -/
theorem Keyed.append (h : store.Keyed keys) {after : Store} {key : ProperKey} {kept : Kept}
    (hnew : store.find? key.toStoreKey = none)
    (hafter : after.entries = store.entries ++ [(key.toStoreKey, kept)]) :
    after.Keyed (keys ++ [key]) := by
  constructor
  · rw [hafter, List.map_append, List.map_append, h.entries]
    rfl
  · have hclass : key.toClass ∉ keys.map ProperKey.toClass := by
      rw [← h.find?_isSome_iff, hnew]
      exact Bool.false_ne_true
    rw [List.map_append, List.map_singleton, ← List.concat_eq_append]
    exact h.nodup.concat hclass

end Store

namespace Grammar
variable {g : Grammar} {store : Store} {call : Call}

theorem askedDialect?_of_ok {d : Dialect}
    (h : (call.options.inline || call.options.isCustom) = false)
    (ha : g.admissible call.statement call.options = .ok d) : g.askedDialect? call = some d := by
  rw [askedDialect?, h, ha]
  rfl

theorem askedDialect?_of_error {e : Fault}
    (ha : g.admissible call.statement call.options = .error e) : g.askedDialect? call = none := by
  rw [askedDialect?, ha]
  split <;> rfl

theorem askedDialect?_of_bypass (h : (call.options.inline || call.options.isCustom) = true) :
    g.askedDialect? call = none := if_pos h

theorem keptKey?_of_asked {d : Dialect} (h : g.askedDialect? call = some d) :
    g.keptKey? call =
      (g.stored call.statement call.options d).toOption.map fun _ => call.key d := by
  rw [keptKey?, h]
  rfl

theorem keptKey?_of_not_asked (h : g.askedDialect? call = none) : g.keptKey? call = none := by
  rw [keptKey?, h]
  rfl

/-- A call is counted if it asks. -/
theorem counts_use (g : Grammar) (store : Store) (use : StoreUse) :
    (g.use store use).hits + (g.use store use).misses =
      store.hits + store.misses + if g.asks use then 1 else 0 := by
  cases use with
  | clear => rfl
  | call call =>
    have hserved := g.served store call.statement call.options
    rw [Grammar.use, asks]
    generalize g.formatWith store call.statement call.options = after at hserved
    cases hserved with
    | bypass h => rw [askedDialect?_of_bypass h]; rfl
    | refused h ha => rw [askedDialect?_of_error ha]; rfl
    | hit h ha hfind =>
      rw [askedDialect?_of_ok h ha]
      exact store.counts_lookup _
    | failed h ha hfind hk =>
      rw [askedDialect?_of_ok h ha]
      exact store.counts_lookup _
    | added h ha hfind hk =>
      rw [askedDialect?_of_ok h ha]
      exact store.counts_lookup _

/-- **A call leaves the entries as they are, or adds one** at the end.  They stay as they are only
if the call has nothing to keep or its key is there. -/
theorem entries_use (g : Grammar) (store : Store) (call : Call) :
    ((g.use store (.call call)).entries = store.entries ∧
        ∀ key, g.keptKey? call = some key → (store.find? key.toStoreKey).isSome = true) ∨
      ∃ key kept, g.keptKey? call = some key ∧ store.find? key.toStoreKey = none ∧
        (g.use store (.call call)).entries = store.entries ++ [(key.toStoreKey, kept)] := by
  have hserved := g.served store call.statement call.options
  rw [Grammar.use]
  generalize g.formatWith store call.statement call.options = after at hserved
  cases hserved with
  | bypass h =>
    rw [keptKey?_of_not_asked (askedDialect?_of_bypass h)]
    exact .inl ⟨rfl, nofun⟩
  | refused h ha =>
    rw [keptKey?_of_not_asked (askedDialect?_of_error ha)]
    exact .inl ⟨rfl, nofun⟩
  | @hit d kept h ha hfind =>
    refine .inl ⟨store.entries_lookup _, fun key hkey => ?_⟩
    rw [keptKey?_of_asked (askedDialect?_of_ok h ha)] at hkey
    obtain ⟨_, -, rfl⟩ := Option.map_eq_some_iff.mp hkey
    exact Option.isSome_of_eq_some hfind
  | failed h ha hfind hk =>
    rw [keptKey?_of_asked (askedDialect?_of_ok h ha), hk]
    exact .inl ⟨store.entries_lookup _, nofun⟩
  | @added d kept h ha hfind hk =>
    refine .inr ⟨call.key d, kept, ?_, hfind, ?_⟩
    · rw [keptKey?_of_asked (askedDialect?_of_ok h ha), hk]
      rfl
    · have hfind' :
          (store.lookup (call.key d).toStoreKey).2.find? (call.key d).toStoreKey = none := by
        rw [Store.find?, Store.entries_lookup]
        exact hfind
      exact (Store.entries_save hfind' kept).trans
        (congrArg (· ++ [((call.key d).toStoreKey, kept)]) (store.entries_lookup _))

/-! ### Many uses -/

theorem storeAfter_append (g : Grammar) (uses : List StoreUse) (use : StoreUse) :
    g.storeAfter (uses ++ [use]) = g.use (g.storeAfter uses) use := by
  rw [storeAfter, List.foldl_append]
  rfl

theorem keptClasses_call (g : Grammar) (uses : List StoreUse) (call : Call) :
    g.keptClasses (uses ++ [.call call]) =
      g.keptClasses uses ++ ((g.keptKey? call).map ProperKey.toClass).toList := by
  have hcalls : sinceClear (uses ++ [.call call]) = sinceClear uses ++ [call] := by
    rw [sinceClear, List.foldl_append]
    rfl
  rw [keptClasses, hcalls, List.filterMap_append, List.map_append]
  cases hkey : g.keptKey? call <;> simp [keptClasses, hkey]

theorem keptClasses_clear (g : Grammar) (uses : List StoreUse) :
    g.keptClasses (uses ++ [.clear]) = [] := by
  have hcalls : sinceClear (uses ++ [.clear]) = [] := by
    rw [sinceClear, List.foldl_append]
    rfl
  rw [keptClasses, hcalls]
  rfl

theorem counts_storeAfter (g : Grammar) (uses : List StoreUse) :
    (g.storeAfter uses).hits + (g.storeAfter uses).misses = uses.countP g.asks := by
  induction uses using List.reverseRecOn with
  | nil => rfl
  | append_singleton uses use ih =>
    rw [storeAfter_append, counts_use, ih, List.countP_append, List.countP_singleton]

/-- The store has one entry for each class of keys that has something to keep. -/
theorem keyed_storeAfter (g : Grammar) (uses : List StoreUse) :
    ∃ keys : List ProperKey, (g.storeAfter uses).Keyed keys ∧
      ∀ c, c ∈ keys.map ProperKey.toClass ↔ c ∈ g.keptClasses uses := by
  induction uses using List.reverseRecOn with
  | nil => exact ⟨[], ⟨rfl, List.nodup_nil⟩, fun _ => Iff.rfl⟩
  | append_singleton uses use ih =>
    rw [storeAfter_append]
    obtain ⟨keys, hkeyed, hclasses⟩ := ih
    cases use with
    | clear =>
      rw [keptClasses_clear]
      exact ⟨[], ⟨rfl, List.nodup_nil⟩, fun _ => Iff.rfl⟩
    | call call =>
      rw [keptClasses_call]
      rcases g.entries_use (g.storeAfter uses) call with
        ⟨hsame, hfound⟩ | ⟨key, kept, hkey, hnew, hadded⟩
      · refine ⟨keys, ⟨hsame ▸ hkeyed.entries, hkeyed.nodup⟩, fun c => ?_⟩
        rw [List.mem_append, ← hclasses]
        refine (or_iff_left_of_imp fun hc => ?_).symm
        obtain ⟨key, hkey, rfl⟩ := Option.map_eq_some_iff.mp (Option.mem_toList.mp hc)
        exact (hkeyed.find?_isSome_iff key).mp (hfound key hkey)
      · refine ⟨keys ++ [key], hkeyed.append hnew hadded, fun c => ?_⟩
        rw [hkey, List.map_append, List.mem_append, List.mem_append, hclasses]
        rfl

/-- **What a store counts.**  After any uses of a store, empty at first, by any grammar: it was
asked as often as its counters say; it has one entry for each key, up to the order of clauses, under
which a statement was written for keeping since it was last cleared; a call with nothing to keep
leaves the entries as they are; and no call changes an entry or takes one away. -/
theorem store_accounting (g : Grammar) (uses : List StoreUse) :
    let store := g.storeAfter uses
    store.hits + store.misses = uses.countP g.asks ∧
      store.entries.length = (g.keptClasses uses).toFinset.card ∧
      (∀ call, g.keptKey? call = none → (g.use store (.call call)).entries = store.entries) ∧
      ∀ call, store.entries <+: (g.use store (.call call)).entries := by
  intro store
  refine ⟨g.counts_storeAfter uses, ?_, fun call hnone => ?_, fun call => ?_⟩
  · obtain ⟨keys, hkeyed, hclasses⟩ := g.keyed_storeAfter uses
    have hset : (keys.map ProperKey.toClass).toFinset = (g.keptClasses uses).toFinset := by
      ext c
      rw [List.mem_toFinset, List.mem_toFinset, hclasses]
    rw [hkeyed.length_eq, ← hset, List.toFinset_card_of_nodup hkeyed.nodup, List.length_map]
  · rcases g.entries_use store call with ⟨hsame, -⟩ | ⟨key, kept, hkey, -, -⟩
    · exact hsame
    · rw [hnone] at hkey
      cases hkey
  · rcases g.entries_use store call with ⟨hsame, -⟩ | ⟨key, kept, -, -, hadded⟩
    · rw [hsame]
    · rw [hadded]
      exact List.prefix_append _ _

end Grammar
end Clausal
