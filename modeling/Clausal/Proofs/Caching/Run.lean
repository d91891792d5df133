import Clausal.Proofs.Caching.Resolve
import Clausal.Proofs.Equality
import Clausal.Proofs.Fingerprint
import Mathlib.Data.List.Nodup

/-! # Stores do not show

A run of calls that share a store gives what the same calls give without it, but for
statements that expand a named list, which are refused (`Grammar.serve_transparent`).

What is stored for a statement is its draft settled by name.  It depends on the fingerprint of
the options only (`Plain.stored_congr`), so an entry serves every call with its key, whichever
call of the run it comes from.  `Store.Holds` says of all entries that they come from the run;
every call preserves this, also one that fails after its entry was made.
-/
namespace Clausal

/-! ### What is stored -/

namespace Grammar

/-- What is stored for a statement. -/
def stored (g : Grammar) (s : Statement) (o : Options) (d : Dialect) : Except Fault Kept :=
  keep o (g.evalStatement (g.context o d true) s)

variable {g : Grammar} {s : Statement} {o o' : Options} {d : Dialect}

theorem defers (g : Grammar) (d : Dialect) (ho : o.inline = false) (ho' : o'.inline = false) :
    (g.context o d true).Defers (g.context o' d false) := ⟨ho, ho', rfl, rfl⟩

theorem Plain.stored_eq (hg : g.Plain) (s : Statement) (d : Dialect) (ho : o.inline = false) :
    g.stored s o d =
      (Draft.settle (g.context o d true) (g.draftStatement (g.context o d true).shape s)).map
        (Settled.kept o) :=
  keep_of_yields o (hg.yields_evalStatement _ s (Draft.solid_of_not_inline ho _))

/-- **A stored statement, handed out under its own options, is the formatted statement.** -/
theorem Plain.finish_stored (hg : g.Plain) (ho : o.inline = false)
    (hd : g.admissible s o = .ok d) {kept : Kept} (hk : g.stored s o d = .ok kept) :
    finish o kept = g.format s o := by
  rw [hg.stored_eq s d ho] at hk
  obtain ⟨r, hr, rfl⟩ := map_eq_ok.mp hk
  have hsettle := Draft.settle_resolved (g.defers d ho ho) hr
  rw [Settled.finish_kept, hg.format_settled hd (Draft.solid_of_not_inline ho _)]
  exact congrArg (Except.map _) hsettle.symm

/-- Only a list that is expanded keeps a statement from being stored. -/
theorem Plain.stored_of_format (hg : g.Plain) (ho : o.inline = false)
    (hd : g.admissible s o = .ok d) {f : Formatted} (hf : g.format s o = .ok f) :
    (∃ kept, g.stored s o d = .ok kept) ∨
      ∃ fragment, g.stored s o d = .error (.malformed .listWhileCaching fragment) := by
  rw [hg.format_settled hd (Draft.solid_of_not_inline ho _)] at hf
  obtain ⟨q, hq, -⟩ := map_eq_ok.mp hf
  rw [hg.stored_eq s d ho]
  rcases Draft.settle_deferred (g.defers d ho ho) hq with ⟨r, hr⟩ | ⟨fragment, hr⟩
  · exact .inl ⟨_, map_eq_ok.mpr ⟨r, hr, rfl⟩⟩
  · exact .inr ⟨fragment, congrArg (Except.map (Settled.kept o)) hr⟩

theorem shape_congr (h : o.Alike o') (d : Dialect) :
    (g.context o d true).shape = (g.context o' d true).shape := by
  have hdefaults : (fun column => o.defaultColumns.contains column) =
      fun column => o'.defaultColumns.contains column := by
    funext column
    rw [Bool.eq_iff_iff, List.contains_iff_mem, List.contains_iff_mem]
    exact h.defaultColumns column
  simp only [Context.shape, context, h.isQuoted, h.quotedSnake, hdefaults]

/-- **What is stored depends on the options through their fingerprint only**, not on
the values of named parameters. -/
theorem Plain.stored_congr (hg : g.Plain) (ho : o.inline = false) (ho' : o'.inline = false)
    (h : o.Alike o') (s : Statement) (d : Dialect) : g.stored s o d = g.stored s o' d := by
  have hkept : Settled.kept o = Settled.kept o' := by
    funext r
    rw [Settled.kept, Settled.kept, Options.placeholder, Options.placeholder, h.numbered]
  rw [hg.stored_eq s d ho, hg.stored_eq s d ho', shape_congr h d, hkept,
    Draft.settle_caching (g.defers d ho ho) (g.defers d ho' ho)]

end Grammar

/-! ### What a call does -/

namespace Store

theorem lookup_fst (store : Store) (key : StoreKey) :
    (store.lookup key).1 = store.find? key := by
  unfold lookup
  split
  · rename_i hfind
    exact hfind.symm
  · rename_i hfind
    exact hfind.symm

@[simp] theorem entries_lookup (store : Store) (key : StoreKey) :
    (store.lookup key).2.entries = store.entries := by
  unfold lookup
  split <;> rfl

theorem find?_eq_some {store : Store} {key : StoreKey} {kept : Kept}
    (h : store.find? key = some kept) :
    ∃ e ∈ store.entries, e.1.same key = true ∧ e.2 = kept := by
  obtain ⟨e, he, hkept⟩ := Option.map_eq_some_iff.mp h
  have hsame : e.1.same key = true := by simpa using List.find?_some he
  exact ⟨e, List.mem_of_find?_eq_some he, hsame, hkept⟩

theorem replace_of_forall {key : StoreKey} {entries : List (StoreKey × Kept)}
    (h : ∀ e ∈ entries, e.1.same key = false) (kept : Kept) :
    replace key kept entries = entries ++ [(key, kept)] := by
  induction entries with
  | nil => rfl
  | cons e entries ih =>
    have hrest := ih fun f hf => h f (List.mem_cons_of_mem e hf)
    rw [replace, if_neg (by simp [h e List.mem_cons_self]), hrest, List.cons_append]

/-- A statement that is not there is added at the end. -/
theorem entries_save {store : Store} {key : StoreKey} (h : store.find? key = none)
    (kept : Kept) : (store.save key kept).entries = store.entries ++ [(key, kept)] := by
  refine replace_of_forall (fun e he => ?_) kept
  have hnone := List.find?_eq_none.mp (Option.map_eq_none_iff.mp h) e he
  simpa using hnone

end Store

namespace Grammar

/-- What a call with a store can do. -/
inductive Served (g : Grammar) (store : Store) (s : Statement) (o : Options) :
    Except Fault Formatted × Store → Prop
  /-- Values are written into the text, or the dialect has no registered name. -/
  | bypass (h : (o.inline || o.isCustom) = true) : Served g store s o (g.format s o, store)
  /-- There is no such dialect, or the statement does not pass the checks. -/
  | refused {e : Fault} (h : (o.inline || o.isCustom) = false)
      (ha : g.admissible s o = .error e) : Served g store s o (.error e, store)
  | hit {d : Dialect} {kept : Kept} (h : (o.inline || o.isCustom) = false)
      (ha : g.admissible s o = .ok d)
      (hfind : store.find? ⟨s, o.fingerprint d⟩ = some kept) :
      Served g store s o (finish o kept, (store.lookup ⟨s, o.fingerprint d⟩).2)
  /-- The statement cannot be stored. -/
  | failed {d : Dialect} {e : Fault} (h : (o.inline || o.isCustom) = false)
      (ha : g.admissible s o = .ok d) (hfind : store.find? ⟨s, o.fingerprint d⟩ = none)
      (hk : g.stored s o d = .error e) :
      Served g store s o (.error e, (store.lookup ⟨s, o.fingerprint d⟩).2)
  | added {d : Dialect} {kept : Kept} (h : (o.inline || o.isCustom) = false)
      (ha : g.admissible s o = .ok d) (hfind : store.find? ⟨s, o.fingerprint d⟩ = none)
      (hk : g.stored s o d = .ok kept) :
      Served g store s o (finish o kept,
        (store.lookup ⟨s, o.fingerprint d⟩).2.save ⟨s, o.fingerprint d⟩ kept)

/-- A call does nothing else. -/
theorem served (g : Grammar) (store : Store) (s : Statement) (o : Options) :
    g.Served store s o (g.formatWith store s o) := by
  unfold formatWith
  split
  case isTrue h => exact .bypass h
  case isFalse h =>
    have hplain : (o.inline || o.isCustom) = false := by simpa using h
    cases ha : g.admissible s o with
    | error e => exact .refused hplain ha
    | ok d =>
      have hfst := store.lookup_fst ⟨s, o.fingerprint d⟩
      dsimp only
      split
      case h_1 kept store' hlookup =>
        rw [hlookup] at hfst
        have hhit := Served.hit hplain ha hfst.symm
        rw [hlookup] at hhit
        exact hhit
      case h_2 store' hlookup =>
        rw [hlookup] at hfst
        split
        case h_1 e hk =>
          have hfailed := Served.failed hplain ha hfst.symm hk
          rw [hlookup] at hfailed
          exact hfailed
        case h_2 kept hk =>
          have hadded := Served.added hplain ha hfst.symm hk
          rw [hlookup] at hadded
          exact hadded

end Grammar

/-! ### Runs -/

/-- A statement to write and the options for it.  A statement is a map, so no key comes
twice in it. -/
structure Call where
  statement : Statement
  options : Options
  distinct : (Value.map statement).distinctKeys = true

/-- Statements of the calls that are equal list their keys in the same order. -/
def OrderedAlike (calls : List Call) : Prop :=
  ∀ a ∈ calls, ∀ b ∈ calls, a.statement.equal b.statement = true →
    (Value.map a.statement).sameOrder (.map b.statement) = true

/-- The outcomes of calls one after the other that share a store. -/
def Grammar.serve (g : Grammar) (store : Store) : List Call → List (Except Fault Formatted)
  | [] => []
  | call :: calls =>
    let (outcome, store) := g.formatWith store call.statement call.options
    outcome :: g.serve store calls

/-- The outcome with a store against the outcome without it: what is written is the same,
and only a statement that expands a named list is refused. -/
structure Transparent (plain served : Except Fault Formatted) : Prop where
  sound : ∀ f, served = .ok f → plain = .ok f
  complete : ∀ f, plain = .ok f →
    served = .ok f ∨ ∃ fragment, served = .error (.malformed .listWhileCaching fragment)

theorem Transparent.of_eq {plain served : Except Fault Formatted} (h : served = plain) :
    Transparent plain served := by
  subst h
  exact ⟨fun _ hf => hf, fun _ hf => .inl hf⟩

/-- The call makes the entry. -/
structure Call.Makes (g : Grammar) (call : Call) (d : Dialect) (e : StoreKey × Kept) : Prop where
  inline : call.options.inline = false
  isCustom : call.options.isCustom = false
  dialect : g.resolveDialect call.options = .ok d
  key : e.1 = ⟨call.statement, call.options.fingerprint d⟩
  kept : g.stored call.statement call.options d = .ok e.2

/-- Every entry of the store is made by one of the calls. -/
def Store.Holds (g : Grammar) (calls : List Call) (store : Store) : Prop :=
  ∀ e ∈ store.entries, ∃ call ∈ calls, ∃ d, call.Makes g d e

namespace Grammar
variable {g : Grammar}

/-- A registered dialect can be told by its name. -/
def DialectsNamed (g : Grammar) : Prop :=
  ∀ e ∈ g.dialects, ∀ e' ∈ g.dialects, e.2.name = e'.2.name → e.2 = e'.2

theorem standard_dialectsNamed : standard.DialectsNamed := by
  have hnodup : (standard.dialects.map fun e => e.2.name).Nodup := by decide
  intro e he e' he' hname
  exact congrArg Prod.snd (List.inj_on_of_nodup_map hnodup he he' hname)

theorem format_of_refused {s : Statement} {o : Options} {e : Fault}
    (h : g.admissible s o = .error e) : g.format s o = .error e := by
  rw [format, h]
  rfl

variable {calls : List Call} {call : Call} {store : Store}

/-- **An entry serves every call with its key**, whichever call has made it. -/
theorem Plain.stored_of_same (hg : g.Plain) (hn : g.DialectsNamed) (horder : OrderedAlike calls)
    {maker : Call} (hm : maker ∈ calls) (hc : call ∈ calls) {d d' : Dialect}
    {e : StoreKey × Kept} (hmakes : maker.Makes g d' e) (hinline : call.options.inline = false)
    (hcustom : call.options.isCustom = false) (hd : g.resolveDialect call.options = .ok d)
    (hsame : e.1.same ⟨call.statement, call.options.fingerprint d⟩ = true) :
    g.stored call.statement call.options d = .ok e.2 := by
  rw [StoreKey.same, Bool.and_eq_true, beq_iff_eq, hmakes.key] at hsame
  obtain ⟨hequal, hfingerprint⟩ := hsame
  have hstatement : maker.statement = call.statement :=
    Value.map.inj (Value.eq_of_equal hequal (horder maker hm call hc hequal) call.distinct)
  obtain ⟨hname, halike⟩ := Options.alike_of_fingerprint hfingerprint
  have hdialect : d' = d := by
    obtain ⟨k', hk'⟩ := mem_dialects hmakes.isCustom hmakes.dialect
    obtain ⟨k, hk⟩ := mem_dialects hcustom hd
    exact hn _ hk' _ hk hname
  rw [← hstatement, ← hdialect, ← hg.stored_congr hmakes.inline hinline halike]
  exact hmakes.kept

/-- One call: its outcome does not show the store, and the store still holds nothing but
what the calls make. -/
theorem Plain.transparent_of_served (hg : g.Plain) (hn : g.DialectsNamed)
    (horder : OrderedAlike calls) (hc : call ∈ calls) (hstore : store.Holds g calls)
    {after : Except Fault Formatted × Store}
    (h : g.Served store call.statement call.options after) :
    Transparent (g.format call.statement call.options) after.1 ∧ after.2.Holds g calls := by
  cases h with
  | bypass => exact ⟨.of_eq rfl, hstore⟩
  | refused _ ha => exact ⟨.of_eq (format_of_refused ha).symm, hstore⟩
  | @hit d kept h ha hfind =>
    obtain ⟨hinline, hcustom⟩ := Bool.or_eq_false_iff.mp h
    -- The entry was made by a call with other values of the parameters.
    obtain ⟨e, he, hsame, rfl⟩ := Store.find?_eq_some hfind
    obtain ⟨maker, hm, d', hmakes⟩ := hstore e he
    have hk := hg.stored_of_same hn horder hm hc hmakes hinline hcustom
      (resolveDialect_of_admissible ha) hsame
    refine ⟨.of_eq (hg.finish_stored hinline ha hk), ?_⟩
    rw [Store.Holds, Store.entries_lookup]
    exact hstore
  | @failed d e h ha hfind hk =>
    obtain ⟨hinline, -⟩ := Bool.or_eq_false_iff.mp h
    refine ⟨⟨nofun, fun f hf => .inr ?_⟩, ?_⟩
    · rcases hg.stored_of_format hinline ha hf with ⟨kept, hkept⟩ | ⟨fragment, herror⟩
      · rw [hk] at hkept
        cases hkept
      · rw [hk] at herror
        cases herror
        exact ⟨fragment, rfl⟩
    · rw [Store.Holds, Store.entries_lookup]
      exact hstore
  | @added d kept h ha hfind hk =>
    obtain ⟨hinline, hcustom⟩ := Bool.or_eq_false_iff.mp h
    -- The entry is made whether or not its names can be looked up for this call.
    refine ⟨.of_eq (hg.finish_stored hinline ha hk), ?_⟩
    have hfind' : (store.lookup ⟨call.statement, call.options.fingerprint d⟩).2.find?
        ⟨call.statement, call.options.fingerprint d⟩ = none := by
      rw [Store.find?, Store.entries_lookup]
      exact hfind
    intro e he
    rw [Store.entries_save hfind', Store.entries_lookup, List.mem_append,
      List.mem_singleton] at he
    rcases he with he | rfl
    · exact hstore e he
    · exact ⟨call, hc, d, hinline, hcustom, resolveDialect_of_admissible ha, rfl, hk⟩

/-- A run from a store that holds nothing but what the calls make. -/
theorem Plain.transparent_of_serve (hg : g.Plain) (hn : g.DialectsNamed)
    (horder : OrderedAlike calls) {rest : List Call} (hrest : ∀ call ∈ rest, call ∈ calls)
    (hstore : store.Holds g calls) :
    List.Forall₂ (fun call => Transparent (g.format call.statement call.options)) rest
      (g.serve store rest) := by
  induction rest generalizing store with
  | nil => exact .nil
  | cons call rest ih =>
    have hc : call ∈ calls := hrest call List.mem_cons_self
    obtain ⟨htransparent, hholds⟩ := hg.transparent_of_served hn horder hc hstore
      (g.served store call.statement call.options)
    exact .cons htransparent (ih (fun c hmem => hrest c (List.mem_cons_of_mem call hmem)) hholds)

/-- **A shared store does not show.**  Calls of the standard grammar that share a store,
empty at first, give what they give without it, unless a call expands a named list
and is refused for that; provided that equal statements among them list their keys in the
same order. -/
theorem serve_transparent (calls : List Call) (horder : OrderedAlike calls) :
    List.Forall₂ (fun call => Transparent (standard.format call.statement call.options)) calls
      (standard.serve {} calls) :=
  standard_plain.transparent_of_serve standard_dialectsNamed horder (fun _ h => h) nofun

/-- Three calls with one statement: the first one makes the entry, with a name that it cannot
look up, and the other two find it. -/
theorem serve_transparent_thrice :
    ∃ calls : List Call,
      calls = [[], [("id", .int 7)], [("id", .str "x")]].map (fun params =>
        ⟨[("from", .ident "users"), ("where", .call "=" [.ident "id", .ident "?id"])],
          { params := params, numbered := true }, rfl⟩) ∧
      OrderedAlike calls ∧
      List.Forall₂ (fun call => Transparent (standard.format call.statement call.options)) calls
        (standard.serve {} calls) := by
  refine ⟨_, rfl, ?_, serve_transparent _ ?_⟩ <;>
  · intro a ha b hb _
    obtain ⟨_, -, rfl⟩ := List.mem_map.mp ha
    obtain ⟨_, -, rfl⟩ := List.mem_map.mp hb
    rfl

end Grammar

end Clausal
