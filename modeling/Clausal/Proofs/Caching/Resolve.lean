import Clausal.Proofs.Draft.Format

/-! # Settling by name and by value

A context that keeps its result binds named parameters by name, another one by value.
Looking the names up afterwards gives what settling by value gives, or the same fault
(`Draft.settle_resolved`).  Settling by name does not look at the values at all
(`Draft.settle_caching`), and it fails where settling by value does not only for a list
that is expanded (`Draft.settle_deferred`).  Where both fail, the faults can differ: a name
that is missing is found while settling by value, and otherwise afterwards
(`Draft.settle_refused`).
-/
namespace Clausal

/-- The first context keeps what the second one resolves; both bind parameters. -/
structure Context.Defers (kept c : Context) : Prop where
  inline : kept.inline = false
  inline' : c.inline = false
  caching : kept.caching = true
  caching' : c.caching = false

namespace Token
variable {kept c : Context}

/-- What settles by name settles by value, once its names are looked up. -/
theorem settle_resolved (h : kept.Defers c) {t : Token} {r : Settled}
    (hr : t.settle kept = .ok r) : t.settle c = r.resolved c.params := by
  cases t with
  | text s => cases hr; rfl
  | value v =>
    rw [settle, send_of_not_inline h.inline] at hr
    cases hr
    exact send_of_not_inline h.inline' v
  | named name =>
    rw [settle, h.caching, h.inline] at hr
    cases hr
    rw [settle, h.caching', lookup, Settled.resolved_slot_cons, Slot.resolved]
    cases Table.get? name c.params with
    | none => rfl
    | some v => exact send_of_not_inline h.inline' v
  | namedList name =>
    rw [settle, h.caching] at hr
    cases hr
  | fault e => cases hr

/-- What settles by value settles by name, unless it is a list. -/
theorem settle_deferred (h : kept.Defers c) {t : Token} {q : Settled}
    (hq : t.settle c = .ok q) :
    (∃ r, t.settle kept = .ok r) ∨
      ∃ fragment, t.settle kept = .error (.malformed .listWhileCaching fragment) := by
  cases t with
  | text s => exact .inl ⟨_, rfl⟩
  | value v => exact .inl ⟨_, send_of_not_inline h.inline v⟩
  | named name =>
    rw [settle, h.caching, h.inline]
    exact .inl ⟨_, rfl⟩
  | namedList name =>
    rw [settle, h.caching]
    exact .inr ⟨_, rfl⟩
  | fault e => cases hq

/-- What settles by name settles by value, unless its name is missing. -/
theorem settle_or_missing (h : kept.Defers c) {t : Token} {r : Settled}
    (hr : t.settle kept = .ok r) :
    (∃ q, t.settle c = .ok q) ∨ ∃ name, t.settle c = .error (.missingParam name) := by
  cases t with
  | text s => exact .inl ⟨_, rfl⟩
  | value v => exact .inl ⟨_, send_of_not_inline h.inline' v⟩
  | named name =>
    rw [settle, h.caching', lookup]
    cases Table.get? name c.params with
    | none => exact .inr ⟨name, rfl⟩
    | some v => exact .inl ⟨_, send_of_not_inline h.inline' v⟩
  | namedList name =>
    rw [settle, h.caching] at hr
    cases hr
  | fault e => cases hr

/-- A fault by name is a list, or the same fault by value. -/
theorem settle_refused (h : kept.Defers c) {t : Token} {e : Fault}
    (he : t.settle kept = .error e) :
    t.settle c = .error e ∨
      ∃ name, t = .namedList name ∧ e = .malformed .listWhileCaching (.ident ("?" ++ name)) := by
  cases t with
  | text s => cases he
  | value v =>
    rw [settle, send_of_not_inline h.inline] at he
    cases he
  | named name =>
    rw [settle, h.caching, h.inline] at he
    cases he
  | namedList name =>
    rw [settle, h.caching] at he
    cases he
    exact .inr ⟨name, rfl, rfl⟩
  | fault e' => exact .inl he

/-- Settling by name does not look at the values of named parameters. -/
theorem settle_caching {kept' : Context} (h : kept.Defers c) (h' : kept'.Defers c) (t : Token) :
    t.settle kept = t.settle kept' := by
  cases t with
  | text s => rfl
  | value v => rw [settle, settle, send_of_not_inline h.inline, send_of_not_inline h'.inline]
  | named name => rw [settle, settle, h.caching, h'.caching, h.inline, h'.inline]; rfl
  | namedList name => rw [settle, settle, h.caching, h'.caching]; rfl
  | fault e => rfl

end Token

namespace Draft
variable {kept c : Context}

/-- **Looking names up afterwards gives what settling by value gives.** -/
theorem settle_resolved (h : kept.Defers c) {d : Draft} {r : Settled}
    (hr : settle kept d = .ok r) : settle c d = r.resolved c.params :=
  settle_substitute (fun _ _ => Token.settle_resolved h) hr

/-- Only a list that is expanded keeps a draft from being settled by name. -/
theorem settle_deferred (h : kept.Defers c) {d : Draft} {q : Settled} (hq : settle c d = .ok q) :
    (∃ r, settle kept d = .ok r) ∨
      ∃ fragment, settle kept d = .error (.malformed .listWhileCaching fragment) := by
  induction d generalizing q with
  | nil => exact .inl ⟨_, rfl⟩
  | cons t d ih =>
    obtain ⟨a, ha, hq⟩ := bind_eq_ok.mp hq
    obtain ⟨b, hb, -⟩ := bind_eq_ok.mp hq
    rw [settle_cons]
    rcases Token.settle_deferred h ha with ⟨r, hr⟩ | ⟨fragment, hr⟩
    · rcases ih hb with ⟨rest, hrest⟩ | ⟨fragment, hrest⟩
      · exact .inl ⟨r ++ rest, by rw [hr, hrest]; rfl⟩
      · exact .inr ⟨fragment, by rw [hr, hrest]; rfl⟩
    · exact .inr ⟨fragment, by rw [hr]; rfl⟩

/-- A draft that cannot be settled by name expands a list, or has the same fault by value; but by
value a name that is missing may be found first. -/
theorem settle_refused (h : kept.Defers c) {d : Draft} {e : Fault}
    (he : settle kept d = .error e) :
    settle c d = .error e ∨
      (∃ name, .namedList name ∈ d ∧
        e = .malformed .listWhileCaching (.ident ("?" ++ name))) ∨
      ∃ name, settle c d = .error (.missingParam name) := by
  induction d with
  | nil => cases he
  | cons t d ih =>
    rw [settle_cons] at he ⊢
    cases hkept : t.settle kept with
    | error e' =>
      rw [hkept] at he
      cases he
      rcases Token.settle_refused h hkept with hfault | ⟨name, rfl, rfl⟩
      · exact .inl (by rw [hfault]; rfl)
      · exact .inr (.inl ⟨name, List.mem_cons_self, rfl⟩)
    | ok r =>
      -- The fault is in the rest.
      have hrest : settle kept d = .error e := by
        rw [hkept] at he
        cases hd : settle kept d with
        | error e' =>
          rw [hd] at he
          exact he
        | ok rest =>
          rw [hd] at he
          cases he
      rcases Token.settle_or_missing h hkept with ⟨q, hq⟩ | ⟨name, hmissing⟩
      · rcases ih hrest with hsame | ⟨name, hmem, heq⟩ | ⟨name, hmissing⟩
        · exact .inl (by rw [hq, hsame]; rfl)
        · exact .inr (.inl ⟨name, List.mem_cons_of_mem t hmem, heq⟩)
        · exact .inr (.inr ⟨name, by rw [hq, hmissing]; rfl⟩)
      · exact .inr (.inr ⟨name, by rw [hmissing]; rfl⟩)

/-- A list does not settle by name. -/
theorem not_settled_of_namedList (hkept : kept.caching = true) {d : Draft} {name : String}
    (hmem : .namedList name ∈ d) (r : Settled) : settle kept d ≠ .ok r := by
  induction d generalizing r with
  | nil => cases hmem
  | cons t d ih =>
    intro hr
    obtain ⟨a, ha, hr⟩ := bind_eq_ok.mp hr
    obtain ⟨b, hb, -⟩ := bind_eq_ok.mp hr
    rcases List.mem_cons.mp hmem with rfl | hrest
    · rw [Token.settle, hkept] at ha
      cases ha
    · exact ih hrest b hb

theorem settle_caching {kept' : Context} (h : kept.Defers c) (h' : kept'.Defers c) (d : Draft) :
    settle kept d = settle kept' d := by
  induction d with
  | nil => rfl
  | cons t d ih => rw [settle_cons, settle_cons, Token.settle_caching h h', ih]

end Draft

end Clausal
