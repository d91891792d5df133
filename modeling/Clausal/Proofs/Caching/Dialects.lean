import Clausal.Proofs.Caching.Run
import Clausal.Proofs.ClosedEvaluation
import Clausal.Proofs.Registry.Registration

/-! # Stores and registered dialects

Two calls with one statement that ask for different registered dialects share a store.  The second
call gives what it gives without the store, as long as dialects of one name are one dialect
(`Grammar.second_dialect_unseen`).  A store refuses a statement that expands a named list, and looks
names up last, so that a name that is missing may not be the first fault.

The fingerprint holds the name that a dialect gives itself, and not the key under which it is
registered.
-/
namespace Clausal

namespace Grammar

/-- The statement expands the named list when it is written under the options. -/
def ExpandsList (g : Grammar) (s : Statement) (o : Options) (name : String) : Prop :=
  ∃ d, g.resolveDialect o = .ok d ∧
    Token.namedList name ∈ g.draftStatement (g.context o d false).shape s

/-- How the outcome of a call that may use a store compares with `Grammar.format`.  A call that
is not served as without the store has a statement that cannot be stored, and is refused with the
fault that storing it gives. -/
inductive Unseen (g : Grammar) (s : Statement) (o : Options) : Except Fault Formatted → Prop
  | same : Unseen g s o (g.format s o)
  /-- A list has as many holes as items, so that its text cannot be kept. -/
  | list {d : Dialect} {name : String} (ho : o.inline = false) (ha : g.admissible s o = .ok d)
      (hname : g.ExpandsList s o name)
      (hk : g.stored s o d = .error (.malformed .listWhileCaching (.ident ("?" ++ name)))) :
      Unseen g s o (.error (.malformed .listWhileCaching (.ident ("?" ++ name))))
  /-- Names are looked up after the statement is written, so that its other faults come first. -/
  | missing {d : Dialect} {name : String} {e : Fault} (ho : o.inline = false)
      (ha : g.admissible s o = .ok d) (hk : g.stored s o d = .error e)
      (hmissing : g.format s o = .error (.missingParam name)) : Unseen g s o (.error e)

variable {g : Grammar} {s : Statement} {o o' : Options} {d : Dialect}

theorem Plain.unseen_of_refused (hg : g.Plain) (ho : o.inline = false)
    (ha : g.admissible s o = .ok d) {e : Fault} (hk : g.stored s o d = .error e) :
    g.Unseen s o (.error e) := by
  have hformat := hg.format_settled ha (Draft.solid_of_not_inline ho _)
  have hsettle : Draft.settle (g.context o d true)
      (g.draftStatement (g.context o d false).shape s) = .error e := by
    rw [hg.stored_eq s d ho] at hk
    exact map_eq_error.mp hk
  rcases Draft.settle_refused (g.defers d ho ho) hsettle with
    hsame | ⟨name, hmem, rfl⟩ | ⟨name, hmissing⟩
  · rw [hsame] at hformat
    have hsame := Unseen.same (g := g) (s := s) (o := o)
    rwa [hformat] at hsame
  · exact .list ho ha ⟨d, resolveDialect_of_admissible ha, hmem⟩ hk
  · rw [hmissing] at hformat
    exact .missing ho ha hk hformat

/-- A statement that expands a list cannot be stored. -/
theorem Plain.not_stored_of_expandsList (hg : g.Plain) (ho : o.inline = false)
    (ha : g.admissible s o = .ok d) {name : String} (hname : g.ExpandsList s o name) (kept : Kept) :
    g.stored s o d ≠ .ok kept := by
  obtain ⟨d', hd', hmem⟩ := hname
  cases (resolveDialect_of_admissible ha).symm.trans hd'
  intro hk
  rw [hg.stored_eq s d ho] at hk
  obtain ⟨r, hr, -⟩ := map_eq_ok.mp hk
  exact Draft.not_settled_of_namedList rfl hmem r hr

/-- The entry that a call makes in an empty store. -/
theorem Served.entry {after : Except Fault Formatted × Store} (h : g.Served {} s o after)
    {e : StoreKey × Kept} (he : e ∈ after.2.entries) :
    ∃ d, g.resolveDialect o = .ok d ∧ o.inline = false ∧ e.1 = ⟨s, o.fingerprint d⟩ ∧
      g.stored s o d = .ok e.2 := by
  cases h with
  | bypass => cases he
  | refused => cases he
  | hit _ _ hfind => cases hfind
  | failed =>
    rw [Store.entries_lookup] at he
    cases he
  | @added d kept h ha hfind hk =>
    have hentries : e ∈ [(⟨s, o.fingerprint d⟩, kept)] := he
    rw [List.mem_singleton.mp hentries]
    exact ⟨d, resolveDialect_of_admissible ha, (Bool.or_eq_false_iff.mp h).1, rfl, hk⟩

theorem formatWith_bypass (store : Store) (ho : (o.inline || o.isCustom) = true) :
    (g.formatWith store s o).1 = g.format s o := by
  rw [formatWith, if_pos ho]

theorem formatWith_inadmissible (store : Store) (ho : (o.inline || o.isCustom) = false)
    {e : Fault} (ha : g.admissible s o = .error e) : (g.formatWith store s o).1 = .error e := by
  rw [formatWith, if_neg (by simp [ho]), ha]

theorem formatWith_fst (store : Store) (ho : (o.inline || o.isCustom) = false)
    (ha : g.admissible s o = .ok d) :
    (g.formatWith store s o).1 =
      match store.find? ⟨s, o.fingerprint d⟩ with
      | some kept => finish o kept
      | none => (g.stored s o d).bind (finish o) := by
  unfold formatWith stored Store.lookup
  rw [ho, ha]
  dsimp only
  cases store.find? ⟨s, o.fingerprint d⟩ with
  | some kept => rfl
  | none => cases keep o (g.evalStatement (g.context o d true) s) <;> rfl

/-- With an empty store the statement is written anew. -/
theorem formatWith_fresh (ho : (o.inline || o.isCustom) = false)
    (ha : g.admissible s o = .ok d) :
    (g.formatWith {} s o).1 = (g.stored s o d).bind (finish o) :=
  formatWith_fst {} ho ha

/-- **A second call does not show the first one**, if the two ask for one dialect or for dialects
of different names. -/
theorem Plain.second_eq_fresh (hg : g.Plain) (s : Statement) {first second : Options}
    (hnames : ∀ d d', g.resolveDialect first = .ok d → g.resolveDialect second = .ok d' →
      d.name = d'.name → d = d') :
    (g.formatWith (g.formatWith {} s first).2 s second).1 = (g.formatWith {} s second).1 := by
  have hsecond := g.served (g.formatWith {} s first).2 s second
  generalize hafter : g.formatWith (g.formatWith {} s first).2 s second = after at hsecond ⊢
  cases hsecond with
  | bypass h => exact (formatWith_bypass {} h).symm
  | refused h ha => exact (formatWith_inadmissible {} h ha).symm
  | @hit d kept h ha hfind =>
    obtain ⟨hinline, -⟩ := Bool.or_eq_false_iff.mp h
    obtain ⟨e, he, hsame, rfl⟩ := Store.find?_eq_some hfind
    obtain ⟨d', hd', hinline', hkey, hk⟩ := (g.served {} s first).entry he
    rw [StoreKey.same, Bool.and_eq_true, beq_iff_eq, hkey] at hsame
    obtain ⟨hname, halike⟩ := Options.alike_of_fingerprint hsame.2
    -- The keys agree, so that the dialects do, and the entry is the one of this call.
    have hdialect : d' = d := hnames d' d hd' (resolveDialect_of_admissible ha) hname
    rw [hdialect, hg.stored_congr hinline' hinline halike] at hk
    rw [formatWith_fresh h ha, hk]
    rfl
  | failed h ha hfind hk =>
    rw [formatWith_fresh h ha, hk]
    rfl
  | added h ha hfind hk =>
    rw [formatWith_fresh h ha, hk]
    rfl

/-- A call with an empty store. -/
theorem Plain.unseen_fresh (hg : g.Plain) (s : Statement) (o : Options) :
    g.Unseen s o (g.formatWith {} s o).1 := by
  have hserved := g.served {} s o
  generalize g.formatWith {} s o = after at hserved ⊢
  cases hserved with
  | bypass => exact .same
  | refused _ ha =>
    rw [← format_of_refused ha]
    exact .same
  | hit _ _ hfind => cases hfind
  | failed h ha hfind hk => exact hg.unseen_of_refused (Bool.or_eq_false_iff.mp h).1 ha hk
  | added h ha hfind hk =>
    rw [hg.finish_stored (Bool.or_eq_false_iff.mp h).1 ha hk]
    exact .same

/-- A call with an empty store that binds parameters refuses a statement that expands a list. -/
theorem Plain.refused_of_expandsList (hg : g.Plain) (ho : (o.inline || o.isCustom) = false)
    {name : String} (hname : g.ExpandsList s o name) :
    ∃ e, (g.formatWith {} s o).1 = .error e := by
  have hserved := g.served {} s o
  generalize g.formatWith {} s o = after at hserved ⊢
  cases hserved with
  | bypass h => rw [ho] at h; cases h
  | refused => exact ⟨_, rfl⟩
  | hit _ _ hfind => cases hfind
  | failed => exact ⟨_, rfl⟩
  | @added d kept h ha hfind hk =>
    exact absurd hk (hg.not_stored_of_expandsList (Bool.or_eq_false_iff.mp h).1 ha hname kept)

theorem formatWith_entries (ho : (o.inline || o.isCustom) = false)
    (ha : g.admissible s o = .ok d) :
    (g.formatWith {} s o).2.entries =
      match g.stored s o d with
      | .ok kept => [(⟨s, o.fingerprint d⟩, kept)]
      | .error _ => [] := by
  unfold formatWith stored
  rw [ho, ha]
  dsimp only
  cases keep o (g.evalStatement (g.context o d true) s) <;> rfl

/-- A second call that has the fingerprint of the first one is served its entry. -/
theorem formatWith_same_fingerprint {d' : Dialect} {kept : Kept} (hs : s.equal s = true)
    (ho : (o.inline || o.isCustom) = false) (ho' : (o'.inline || o'.isCustom) = false)
    (ha : g.admissible s o = .ok d) (ha' : g.admissible s o' = .ok d')
    (hfingerprint : o.fingerprint d = o'.fingerprint d') (hk : g.stored s o d = .ok kept) :
    (g.formatWith (g.formatWith {} s o).2 s o').1 = finish o' kept := by
  have hentries := formatWith_entries ho ha
  rw [hk] at hentries
  have hfind : (g.formatWith {} s o).2.find? ⟨s, o'.fingerprint d'⟩ = some kept := by
    unfold Store.find?
    rw [hentries, hfingerprint, List.find?_cons_of_pos (by simp [StoreKey.same, hs])]
    rfl
  rw [formatWith_fst _ ho' ha', hfind]

/-- Calls with a statement that cannot be stored leave no entry. -/
theorem formatWith_refused {d' : Dialect} {e e' : Fault}
    (ho : (o.inline || o.isCustom) = false) (ho' : (o'.inline || o'.isCustom) = false)
    (ha : g.admissible s o = .ok d) (ha' : g.admissible s o' = .ok d')
    (hk : g.stored s o d = .error e) (hk' : g.stored s o' d' = .error e') :
    (g.formatWith (g.formatWith {} s o).2 s o').1 = .error e' := by
  have hentries := formatWith_entries ho ha
  rw [hk] at hentries
  have hfind : (g.formatWith {} s o).2.find? ⟨s, o'.fingerprint d'⟩ = none := by
    unfold Store.find?
    rw [hentries]
    rfl
  rw [formatWith_fst _ ho' ha', hfind, hk']
  rfl

/-! ### Registered dialects -/

/-- The standard grammar after registrations of dialects. -/
def withDialects (registered : List (String × Dialect)) : Grammar :=
  registered.foldl (fun g e => ((registerDialect e.1 e.2).run g).2) standard

theorem Plain.registerDialect (hg : g.Plain) (name : String) (d : Dialect) :
    ((Grammar.registerDialect name d).run g).2.Plain := by
  rw [run_registerDialect]
  cases registryKey name with
  | error e => exact hg
  | ok key => exact ⟨hg.clause, hg.form⟩

theorem plain_withDialects (registered : List (String × Dialect)) :
    (withDialects registered).Plain := by
  have hfold : ∀ g : Grammar, g.Plain →
      (registered.foldl (fun g e => ((Grammar.registerDialect e.1 e.2).run g).2) g).Plain := by
    induction registered with
    | nil =>
      intro g hg
      exact hg
    | cons e registered ih =>
      intro g hg
      rw [List.foldl_cons]
      exact ih _ (hg.registerDialect e.1 e.2)
  exact hfold standard standard_plain

theorem dialect?_of_resolveDialect {name : String}
    (h : g.resolveDialect { o with dialect := some (.named name) } = .ok d) :
    g.dialect? name = some d := by
  unfold resolveDialect at h
  dsimp only at h
  split at h
  · rename_i d' hd
    cases h
    exact hd
  · cases h

theorem admissible_named {name key : String} (hkey : registryKey name = .ok key)
    (hd : Table.get? key g.dialects = some d) (params : Table Value) :
    g.admissible s { dialect := some (.named name), params := params } = .ok d := by
  unfold admissible resolveDialect
  dsimp only
  rw [dialect?_of_key hkey, hd]
  rfl

theorem format_of_admissible (ha : g.admissible s o = .ok d) {kept : Except Fault Kept}
    (hk : keep o (g.evalStatement (g.context o d false) s) = kept) :
    g.format s o = kept.bind (finish o) := by
  rw [format, ha, ← hk]
  rfl

/-- A dialect in brackets that gives itself the name of the standard. -/
def bracketed : Dialect := { name := "ansi", quote := delimit '[' ']' }

theorem registryKey_brackets : registryKey "brackets" = .ok "brackets" :=
  eq_ok_of_toOption (by decide +kernel)

theorem withDialects_brackets (d : Dialect) : withDialects [("brackets", d)] =
    { standard with dialects := Table.put "brackets" d standard.dialects } := by
  unfold withDialects
  rw [List.foldl_cons, List.foldl_nil, run_registerDialect, registryKey_brackets]

theorem registryKey_mysql : registryKey "mysql" = .ok "mysql" :=
  eq_ok_of_toOption (by decide +kernel)

/-- **The store keeps dialects apart.**  Two calls with one statement ask for two registered
dialects and share a store that is empty at first.  If dialects of one name are one dialect, the
second call gives what it gives with a store of its own.  That is what it gives without a store,
unless the statement cannot be stored: it expands a named list, or has a fault that is found before
the name that is missing.  A statement that expands a named list is refused unless its values are
written into the text. -/
theorem second_dialect_unseen (registered : List (String × Dialect)) (s : Statement) (o : Options)
    (name name' : String)
    (hnames : ∀ d d', (withDialects registered).dialect? name = some d →
      (withDialects registered).dialect? name' = some d' → d.name = d'.name → d = d') :
    let g := withDialects registered
    let first := g.formatWith {} s { o with dialect := some (.named name) }
    let second := g.formatWith first.2 s { o with dialect := some (.named name') }
    second.1 = (g.formatWith {} s { o with dialect := some (.named name') }).1 ∧
      g.Unseen s { o with dialect := some (.named name') } second.1 ∧
      (o.inline = false → ∀ list, g.ExpandsList s { o with dialect := some (.named name') } list →
        ∃ e, second.1 = .error e) := by
  intro g first second
  have hg := plain_withDialects registered
  have hfresh : second.1 = (g.formatWith {} s { o with dialect := some (.named name') }).1 := by
    refine hg.second_eq_fresh s fun d d' hd hd' => hnames d d' ?_ ?_
    · exact dialect?_of_resolveDialect hd
    · exact dialect?_of_resolveDialect hd'
  rw [hfresh]
  refine ⟨rfl, hg.unseen_fresh s _, fun ho list hlist => hg.refused_of_expandsList ?_ hlist⟩
  rw [Bool.or_eq_false_iff]
  exact ⟨ho, rfl⟩

/-- A dialect that is registered under its own name is kept apart from the standard. -/
theorem second_dialect_unseen_brackets :
    let own : Dialect := { bracketed with name := "brackets" }
    let g := withDialects [("brackets", own)]
    let s : Statement := [("select", .seq [.ident "a"]), ("from", .ident "t")]
    let first := g.formatWith {} s { dialect := some (.named "ansi") }
    let second := g.formatWith first.2 s { dialect := some (.named "brackets") }
    g.dialect? "ansi" = some .ansi ∧ g.dialect? "brackets" = some own ∧
      second.1 = (g.formatWith {} s { dialect := some (.named "brackets") }).1 ∧
      g.Unseen s { dialect := some (.named "brackets") } second.1 := by
  intro own g s first second
  have hg := withDialects_brackets own
  have hansi : g.dialect? "ansi" = some .ansi := by
    refine (dialect?_of_key registryKey_default).trans ?_
    rw [show g = _ from hg]
    rfl
  have hbrackets : g.dialect? "brackets" = some own := by
    refine (dialect?_of_key registryKey_brackets).trans ?_
    rw [show g = _ from hg]
    rfl
  have hnames : ∀ d d', g.dialect? "ansi" = some d → g.dialect? "brackets" = some d' →
      d.name = d'.name → d = d' := by
    intro d d' hd hd' hname
    cases hansi.symm.trans hd
    cases hbrackets.symm.trans hd'
    exact absurd hname (by decide)
  obtain ⟨hfresh, hunseen, -⟩ := second_dialect_unseen _ s {} "ansi" "brackets" hnames
  exact ⟨hansi, hbrackets, hfresh, hunseen⟩

/-- Under a key of its own, a dialect may give itself the name of another one: it is then served
what was written for the other one.  A list that is expanded is refused under every dialect.  With
a store, a fault of the statement is found before a name that is missing. -/
theorem dialect_seen_through_store :
    (let g := withDialects [("brackets", bracketed)]
      let s : Statement := [("select", .seq [.ident "a"]), ("from", .ident "t")]
      let first := g.formatWith {} s { dialect := some (.named "ansi") }
      let second := g.formatWith first.2 s { dialect := some (.named "brackets") }
      second.1 = .ok ⟨"SELECT \"a\" FROM \"t\"", []⟩ ∧
        g.format s { dialect := some (.named "brackets") } = .ok ⟨"SELECT [a] FROM [t]", []⟩) ∧
    (let g := withDialects []
      let s : Statement := [("where", .call "in" [.ident "id", .ident "?ids"])]
      let params : Table Value := [("ids", .seq [.int 1, .int 2])]
      let first := g.formatWith {} s { dialect := some (.named "ansi"), params := params }
      let second := g.formatWith first.2 s { dialect := some (.named "mysql"), params := params }
      second.1 = .error (.malformed .listWhileCaching (.ident "?ids")) ∧
        g.format s { dialect := some (.named "mysql"), params := params } =
          .ok ⟨"WHERE \x60id\x60 IN (?, ?)", [.int 1, .int 2]⟩) ∧
    (let g := withDialects []
      let s : Statement := [("select", .seq [.ident "?x", .seq []])]
      let first := g.formatWith {} s { dialect := some (.named "ansi") }
      let second := g.formatWith first.2 s { dialect := some (.named "mysql") }
      second.1 = .error (.malformed .emptyExpression (.seq [])) ∧
        g.format s { dialect := some (.named "mysql") } = .error (.missingParam "x")) := by
  refine ⟨?_, ?_, ?_⟩
  · intro g s first second
    have hg := withDialects_brackets bracketed
    have hansi : g.admissible s { dialect := some (.named "ansi") } = .ok .ansi :=
      admissible_named registryKey_default (by rw [show g = _ from hg]; rfl) []
    have hbrackets : g.admissible s { dialect := some (.named "brackets") } = .ok bracketed :=
      admissible_named registryKey_brackets (by rw [show g = _ from hg]; rfl) []
    have hstored : g.stored s { dialect := some (.named "ansi") } .ansi =
        .ok ⟨"SELECT \"a\" FROM \"t\"", []⟩ := by
      rw [show g = _ from hg, stored, evalStatement_of_ordered (by decide +kernel)]
      decide +kernel
    have hkeep : keep { dialect := some (.named "brackets") }
        (g.evalStatement (g.context { dialect := some (.named "brackets") } bracketed false) s) =
          .ok ⟨"SELECT [a] FROM [t]", []⟩ := by
      rw [show g = _ from hg, evalStatement_of_ordered (by decide +kernel)]
      decide +kernel
    exact ⟨formatWith_same_fingerprint rfl rfl rfl hansi hbrackets rfl hstored,
      format_of_admissible hbrackets hkeep⟩
  · intro g s params first second
    have hansi : g.admissible s { dialect := some (.named "ansi"), params := params } = .ok .ansi :=
      admissible_named registryKey_default rfl params
    have hmysql : g.admissible s { dialect := some (.named "mysql"), params := params } =
        .ok .mysql :=
      admissible_named registryKey_mysql rfl params
    have hstored : g.stored s { dialect := some (.named "ansi"), params := params } .ansi =
        .error (.malformed .listWhileCaching (.ident "?ids")) := by decide +kernel
    have hstored' : g.stored s { dialect := some (.named "mysql"), params := params } .mysql =
        .error (.malformed .listWhileCaching (.ident "?ids")) := by decide +kernel
    have hkeep : keep { dialect := some (.named "mysql"), params := params }
        (g.evalStatement (g.context { dialect := some (.named "mysql"), params := params }
          .mysql false) s) =
          .ok ⟨"WHERE \x60id\x60 IN (?, ?)", [.literal (.int 1), .literal (.int 2)]⟩ := by
      decide +kernel
    exact ⟨formatWith_refused rfl rfl hansi hmysql hstored hstored',
      format_of_admissible hmysql hkeep⟩
  · intro g s first second
    have hansi : g.admissible s { dialect := some (.named "ansi") } = .ok .ansi :=
      admissible_named registryKey_default rfl []
    have hmysql : g.admissible s { dialect := some (.named "mysql") } = .ok .mysql :=
      admissible_named registryKey_mysql rfl []
    have hstored : g.stored s { dialect := some (.named "ansi") } .ansi =
        .error (.malformed .emptyExpression (.seq [])) := by decide +kernel
    have hstored' : g.stored s { dialect := some (.named "mysql") } .mysql =
        .error (.malformed .emptyExpression (.seq [])) := by decide +kernel
    have hkeep : keep { dialect := some (.named "mysql") }
        (g.evalStatement (g.context { dialect := some (.named "mysql") } .mysql false) s) =
          .error (.missingParam "x") := by
      decide +kernel
    exact ⟨formatWith_refused rfl rfl hansi hmysql hstored hstored',
      format_of_admissible hmysql hkeep⟩

end Grammar
end Clausal
