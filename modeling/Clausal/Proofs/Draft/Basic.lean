import Clausal.Session

/-! # Drafts

A draft is SQL in which every parameter still stands in its place, before a
context decides what becomes of it: a hole, a literal in the text, or a fault.
A context *settles* a draft from left to right (`Draft.settle`).  What comes out
is text with slots in their places; numbering the slots gives the SQL and the
bound parameters (`Settled.sql`, `Settled.slots`).

Two contexts that settle the same draft can be compared token by token, which is
how every statement about placeholders, literals and named parameters is proved.
Where the slots stand is the *outline* of settled text, and the SQL depends on
nothing else.
-/
namespace Clausal

/-- A token of a draft: text, or a parameter in its place. -/
inductive Token where
  | text (s : String)
  | value (v : Value)
  | named (name : String)
  | namedList (name : String)
  /-- Writing fails here. -/
  | fault (e : Fault)

/-- SQL with its parameters still in place. -/
abbrev Draft := List Token

/-- A piece of settled text: text, or a bound parameter in its place. -/
inductive Spot where
  | text (s : String)
  | slot (slot : Slot)

/-- Text with bound parameters in their places. -/
abbrev Settled := List Spot

/-- Where the parameters stand: the texts, and `none` for each parameter. -/
abbrev Outline := List (Option String)

/-- The SQL of an outline, when `k` parameters are bound already. -/
def Outline.number (k : Nat) : Outline → Sql
  | [] => []
  | some s :: rest => .text s :: number k rest
  | none :: rest => .hole (k + 1) :: number (k + 1) rest

namespace Settled

/-- The outline of settled text. -/
def outline (r : Settled) : Outline :=
  r.map fun
    | .text s => some s
    | .slot _ => none

/-- The bound parameters from left to right. -/
def slots (r : Settled) : List Slot :=
  r.filterMap fun
    | .text _ => none
    | .slot slot => some slot

/-- The SQL, when `k` parameters are bound already. -/
def sql (k : Nat) (r : Settled) : Sql := r.outline.number k

/-- There is no text and no parameter. -/
def isEmpty (r : Settled) : Bool :=
  r.all fun
    | .text s => s.isEmpty
    | .slot _ => false

/-- Between parentheses. -/
def parens (r : Settled) : Settled := .text "(" :: r ++ [.text ")"]

/-- Two parts with a separator; a part without text takes the separator with it. -/
def beside (sep : String) (a b : Settled) : Settled :=
  if isEmpty a then b else if isEmpty b then a else a ++ .text sep :: b

/-- Text before a body, unless the body is empty. -/
def lead (s : String) (r : Settled) : Settled := if isEmpty r then [] else .text s :: r

/-- In parentheses when nested, unless there is no text. -/
def wrap (nested : Bool) (r : Settled) : Settled :=
  if nested && !isEmpty r then parens r else r

@[simp] theorem outline_append (a b : Settled) : outline (a ++ b) = outline a ++ outline b := by
  simp [outline]

theorem outline_parens (r : Settled) :
    outline (parens r) = some "(" :: outline r ++ [some ")"] := by
  simp [parens, outline]

@[simp] theorem slots_append (a b : Settled) : slots (a ++ b) = slots a ++ slots b := by
  simp [slots]

@[simp] theorem isEmpty_append (a b : Settled) : isEmpty (a ++ b) = (isEmpty a && isEmpty b) := by
  simp [isEmpty]

@[simp] theorem isEmpty_parens (r : Settled) : isEmpty (parens r) = false := by
  simp [parens, isEmpty]

theorem sql_append (k : Nat) (a b : Settled) :
    sql k (a ++ b) = sql k a ++ sql (k + (slots a).length) b := by
  induction a generalizing k with
  | nil => rfl
  | cons spot a ih =>
    cases spot with
    | text s => simpa [sql, outline, slots, Outline.number] using ih k
    | slot slot =>
      simpa [sql, outline, slots, Outline.number, Nat.add_assoc, Nat.add_comm] using ih (k + 1)

@[simp] theorem sql_text (k : Nat) (s : String) : sql k [.text s] = Sql.ofText s := rfl

theorem sql_parens (k : Nat) (r : Settled) : sql k (parens r) = (sql k r).parens := by
  have h : parens r = [.text "("] ++ r ++ [.text ")"] := rfl
  rw [h, sql_append, sql_append, sql_text, sql_text]
  rfl

@[simp] theorem slots_parens (r : Settled) : slots (parens r) = slots r := by
  simp [parens, slots]

/-- Holes are never empty, so the SQL is empty exactly when the settled text is. -/
@[simp] theorem isEmpty_sql (k : Nat) (r : Settled) : (sql k r).isEmpty = r.isEmpty := by
  induction r generalizing k with
  | nil => rfl
  | cons spot r ih =>
    cases spot with
    | text s => exact congrArg (s.isEmpty && ·) (ih k)
    | slot slot => rfl

theorem slots_of_isEmpty {r : Settled} (h : r.isEmpty = true) : r.slots = [] := by
  induction r with
  | nil => rfl
  | cons spot r ih =>
    cases spot with
    | text s =>
      simp only [isEmpty, List.all_cons, Bool.and_eq_true] at h
      exact ih h.2
    | slot slot => simp [isEmpty] at h

theorem sql_text_cons (k : Nat) (s : String) (r : Settled) :
    sql k (.text s :: r) = Sql.ofText s ++ sql k r := rfl

@[simp] theorem slots_text_cons (s : String) (r : Settled) : slots (.text s :: r) = slots r := rfl

theorem slots_beside (sep : String) (a b : Settled) :
    (beside sep a b).slots = a.slots ++ b.slots := by
  unfold beside
  split
  · rename_i h
    rw [slots_of_isEmpty h, List.nil_append]
  · split
    · rename_i h
      rw [slots_of_isEmpty h, List.append_nil]
    · rw [slots_append, slots_text_cons]

theorem sql_beside (k : Nat) (sep : String) (a b : Settled) :
    (beside sep a b).sql k = Sql.beside sep (a.sql k) (b.sql (k + a.slots.length)) := by
  unfold beside Sql.beside
  rw [isEmpty_sql, isEmpty_sql]
  split
  · rename_i h
    rw [slots_of_isEmpty h, List.length_nil, Nat.add_zero]
  · split
    · rfl
    · rw [sql_append, sql_text_cons, List.append_assoc]

theorem slots_lead (s : String) (r : Settled) : (lead s r).slots = r.slots := by
  unfold lead
  split
  · rename_i h
    rw [slots_of_isEmpty h]
    rfl
  · rw [slots_text_cons]

theorem sql_lead (k : Nat) (s : String) (r : Settled) :
    (lead s r).sql k = if (r.sql k).isEmpty then [] else Sql.ofText s ++ r.sql k := by
  unfold lead
  rw [isEmpty_sql]
  split
  · rfl
  · rw [sql_text_cons]

theorem slots_wrap (nested : Bool) (r : Settled) : (wrap nested r).slots = r.slots := by
  unfold wrap
  split
  · rw [slots_parens]
  · rfl

theorem sql_wrap (k : Nat) (nested : Bool) (r : Settled) :
    (wrap nested r).sql k =
      if nested && !(r.sql k).isEmpty then (r.sql k).parens else r.sql k := by
  unfold wrap
  rw [isEmpty_sql]
  split
  · rw [sql_parens]
  · rfl

end Settled

/-! ### What a context makes of a token -/

section Outcome
variable {ε α β : Type}

theorem bind_eq_ok {x : Except ε α} {f : α → Except ε β} {b : β} :
    x.bind f = .ok b ↔ ∃ a, x = .ok a ∧ f a = .ok b := by
  cases x with
  | error e => simp [Except.bind]
  | ok a => simp [Except.bind]

theorem map_eq_ok {x : Except ε α} {f : α → β} {b : β} :
    x.map f = .ok b ↔ ∃ a, x = .ok a ∧ f a = b := by
  cases x with
  | error e => simp [Except.map]
  | ok a => simp [Except.map]

theorem map_eq_error {x : Except ε α} {f : α → β} {e : ε} :
    x.map f = .error e ↔ x = .error e := by
  cases x <;> simp [Except.map]

theorem eq_ok_of_toOption {x : Except ε α} {a : α} (h : x.toOption = some a) : x = .ok a := by
  cases x <;> cases h
  rfl

end Outcome

namespace Token

/-- A value that is sent on: a literal in the text, or a bound parameter. -/
def send (c : Context) (v : Value) : Except Fault Settled :=
  if c.inline then v.literal.map fun s => [.text s] else .ok [.slot (.literal v)]

/-- Values that are sent on one by one, divided by commas. -/
def sendAll (c : Context) : List Value → Except Fault Settled
  | [] => .ok []
  | [v] => send c v
  | v :: vs => do
    let first ← send c v
    let rest ← sendAll c vs
    return first ++ .text ", " :: rest

/-- The value of a named parameter. -/
def lookup (c : Context) (name : String) : Except Fault Value :=
  match Table.get? name c.params with
  | some v => .ok v
  | none => .error (.missingParam name)

/-- The settled form of one token. -/
def settle (c : Context) : Token → Except Fault Settled
  | .text s => .ok [.text s]
  | .value v => send c v
  | .named name =>
    if c.caching && !c.inline then .ok [.slot (.named name)]
    else (lookup c name).bind (send c)
  | .namedList name =>
    if c.caching then .error (.malformed .listWhileCaching (.ident ("?" ++ name)))
    else (lookup c name).bind fun v => (sendAll c v.items).map Settled.parens
  | .fault e => .error e

/-- The token is empty text. -/
def isEmpty : Token → Bool
  | .text s => s.isEmpty
  | _ => false

theorem sendAll_cons (c : Context) (v : Value) {vs : List Value} (h : vs ≠ []) :
    sendAll c (v :: vs) = (do return (← send c v) ++ .text ", " :: (← sendAll c vs)) := by
  cases vs with
  | nil => exact absurd rfl h
  | cons w ws => rfl

/-- Contexts that send values on in the same way. -/
structure Agree (c c' : Context) : Prop where
  inline : c.inline = c'.inline
  caching : c.caching = c'.caching
  params : c.params = c'.params

theorem Agree.send {c c' : Context} (h : Agree c c') (v : Value) :
    Token.send c v = Token.send c' v := by
  rw [Token.send, Token.send, h.inline]

theorem Agree.sendAll {c c' : Context} (h : Agree c c') (vs : List Value) :
    Token.sendAll c vs = Token.sendAll c' vs := by
  fun_induction Token.sendAll c vs with
  | case1 => rfl
  | case2 v => exact h.send v
  | case3 v vs hne ih => rw [sendAll_cons c' v hne, h.send, ih]

theorem Agree.settle {c c' : Context} (h : Agree c c') (t : Token) :
    t.settle c = t.settle c' := by
  have hsend : Token.send c = Token.send c' := funext h.send
  have hsendAll : Token.sendAll c = Token.sendAll c' := funext h.sendAll
  cases t with
  | text s => rfl
  | value v => exact h.send v
  | named name =>
    rw [Token.settle, Token.settle, lookup, lookup, hsend, h.inline, h.caching, h.params]
  | namedList name =>
    rw [Token.settle, Token.settle, lookup, lookup, hsendAll, h.caching, h.params]
  | fault e => rfl

theorem send_of_not_inline {c : Context} (hc : c.inline = false) (v : Value) :
    send c v = .ok [.slot (.literal v)] := by
  simp [send, hc]

/-- Without literals, every parameter takes a place in the text. -/
theorem isEmpty_settle {c : Context} (hc : c.inline = false) {t : Token} {r : Settled}
    (h : t.settle c = .ok r) : r.isEmpty = t.isEmpty := by
  cases t with
  | text s =>
    cases h
    simp [Settled.isEmpty, isEmpty]
  | value v =>
    rw [settle, send_of_not_inline hc] at h
    cases h
    rfl
  | named name =>
    rw [settle] at h
    split at h
    · cases h
      rfl
    · obtain ⟨v, -, hv⟩ := bind_eq_ok.mp h
      rw [send_of_not_inline hc] at hv
      cases hv
      rfl
  | namedList name =>
    rw [settle] at h
    split at h
    · cases h
    · obtain ⟨v, -, hv⟩ := bind_eq_ok.mp h
      obtain ⟨q, -, rfl⟩ := map_eq_ok.mp hv
      rw [Settled.isEmpty_parens]
      rfl
  | fault e => cases h

end Token

namespace Draft

/-- The settled form of a draft; the first fault from the left ends it. -/
def settle (c : Context) : Draft → Except Fault Settled
  | [] => .ok []
  | t :: ts => do
    let first ← t.settle c
    let rest ← settle c ts
    return first ++ rest

/-- There is no text and no parameter. -/
def isEmpty (d : Draft) : Bool := d.all Token.isEmpty

/-- Two parts with a separator; a part without text takes the separator with it. -/
def beside (sep : String) (a b : Draft) : Draft :=
  if isEmpty a then b else if isEmpty b then a else a ++ .text sep :: b

/-- Text before a body, unless the body is empty. -/
def lead (s : String) (d : Draft) : Draft := if isEmpty d then [] else .text s :: d

/-- In parentheses when nested, unless there is no text. -/
def wrap (nested : Bool) (d : Draft) : Draft :=
  if nested && !isEmpty d then .text "(" :: d ++ [.text ")"] else d

/-- No parameter of the draft becomes empty text in the context. -/
def Solid (c : Context) (d : Draft) : Prop :=
  ∀ t ∈ d, ∀ r, t.settle c = .ok r → r.isEmpty = t.isEmpty

theorem solid_of_not_inline {c : Context} (hc : c.inline = false) (d : Draft) : Solid c d :=
  fun _ _ _ h => Token.isEmpty_settle hc h

theorem solid_append {c : Context} {a b : Draft} : Solid c (a ++ b) ↔ Solid c a ∧ Solid c b := by
  simp only [Solid, List.mem_append]
  constructor
  · intro h
    exact ⟨fun t ht => h t (.inl ht), fun t ht => h t (.inr ht)⟩
  · rintro ⟨ha, hb⟩ t (ht | ht)
    · exact ha t ht
    · exact hb t ht

/-- Empty text stays empty in every context. -/
theorem solid_of_isEmpty {c : Context} {d : Draft} (h : isEmpty d = true) : Solid c d := by
  intro t ht r hr
  -- Only text is empty; a value or a name is not, whatever it becomes.
  have hempty := List.all_eq_true.mp h t ht
  cases t with
  | text s =>
    cases hr
    simp [Settled.isEmpty, Token.isEmpty]
  | _ => simp [Token.isEmpty] at hempty

@[simp] theorem settle_nil (c : Context) : settle c [] = .ok [] := rfl

theorem settle_cons (c : Context) (t : Token) (ts : Draft) :
    settle c (t :: ts) = (do return (← t.settle c) ++ (← settle c ts)) := rfl

@[simp] theorem settle_singleton (c : Context) (t : Token) : settle c [t] = t.settle c := by
  rw [settle_cons, settle_nil]
  cases t.settle c <;> simp [bind, Except.bind, pure, Except.pure]

theorem settle_congr {c c' : Context} (h : Token.Agree c c') (d : Draft) :
    settle c d = settle c' d := by
  induction d with
  | nil => rfl
  | cons t d ih => rw [settle_cons, settle_cons, h.settle, ih]

theorem settle_append (c : Context) (a b : Draft) :
    settle c (a ++ b) = (do return (← settle c a) ++ (← settle c b)) := by
  induction a with
  | nil => cases h : settle c b <;> simp [h, bind, Except.bind, pure, Except.pure]
  | cons t a ih =>
    rw [List.cons_append, settle_cons, settle_cons, ih]
    cases t.settle c <;> cases settle c a <;> cases settle c b <;>
      simp [bind, Except.bind, pure, Except.pure]

/-- A draft whose parameters take their places is empty when its settled form is. -/
theorem isEmpty_settle {c : Context} {d : Draft} (hd : Solid c d) {r : Settled}
    (h : settle c d = .ok r) : r.isEmpty = isEmpty d := by
  induction d generalizing r with
  | nil => cases h; rfl
  | cons t d ih =>
    obtain ⟨x, hx, h⟩ := bind_eq_ok.mp h
    obtain ⟨y, hy, h⟩ := bind_eq_ok.mp h
    cases h
    have hfirst := hd t List.mem_cons_self x hx
    have hrest := ih (fun u hu => hd u (List.mem_cons_of_mem _ hu)) hy
    rw [Settled.isEmpty_append, hfirst, hrest]
    rfl

/-- An empty draft settles to empty text in every context. -/
theorem settle_of_isEmpty (c : Context) {d : Draft} (h : isEmpty d = true) :
    ∃ r, settle c d = .ok r ∧ r.isEmpty = true := by
  induction d with
  | nil => exact ⟨[], rfl, rfl⟩
  | cons t d ih =>
    simp only [isEmpty, List.all_cons, Bool.and_eq_true] at h
    obtain ⟨r, hr, hempty⟩ := ih h.2
    cases t with
    | text s =>
      refine ⟨[.text s] ++ r, ?_, ?_⟩
      · rw [settle_cons, hr]
        rfl
      · rw [Settled.isEmpty_append, hempty, Bool.and_true]
        simpa [Settled.isEmpty, Token.isEmpty] using h.1
    | _ => simp [Token.isEmpty] at h

theorem settle_beside {c : Context} {a b : Draft} (sep : String) (ha : Solid c a)
    (hb : Solid c b) :
    settle c (beside sep a b) =
      (do return Settled.beside sep (← settle c a) (← settle c b)) := by
  -- The draft leaves a part out before it is settled, `Settled.beside` afterwards.  A part is
  -- empty before if and only if it is afterwards, so the branches on both sides correspond.
  unfold beside
  split
  · rename_i h
    obtain ⟨r, hr, hempty⟩ := settle_of_isEmpty c h
    rw [hr]
    cases settle c b <;> simp [bind, Except.bind, pure, Except.pure, Settled.beside, hempty]
  · rename_i hna
    split
    · rename_i h
      obtain ⟨r, hr, hempty⟩ := settle_of_isEmpty c h
      rw [hr]
      cases hs : settle c a with
      | error e => rfl
      | ok x =>
        have hx := isEmpty_settle ha hs
        simp [bind, Except.bind, pure, Except.pure, Settled.beside, hempty, hx, hna]
    · rename_i hnb
      rw [settle_append, settle_cons]
      cases hs : settle c a with
      | error e => rfl
      | ok x =>
        cases ht : settle c b with
        | error e => rfl
        | ok y =>
          have hx := isEmpty_settle ha hs
          have hy := isEmpty_settle hb ht
          simp [bind, Except.bind, pure, Except.pure, Settled.beside, hx, hy, hna, hnb,
            Token.settle]

theorem settle_lead {c : Context} {d : Draft} (s : String) (hd : Solid c d) :
    settle c (lead s d) = (settle c d).map (Settled.lead s) := by
  unfold lead
  split
  · rename_i h
    obtain ⟨r, hr, hempty⟩ := settle_of_isEmpty c h
    rw [hr]
    simp [Except.map, Settled.lead, hempty]
  · rename_i hn
    rw [settle_cons]
    cases hs : settle c d with
    | error e => rfl
    | ok r =>
      have hr := isEmpty_settle hd hs
      simp [bind, Except.bind, pure, Except.pure, Except.map, Settled.lead, hr, hn, Token.settle]

theorem settle_wrap {c : Context} {d : Draft} (nested : Bool) (hd : Solid c d) :
    settle c (wrap nested d) = (settle c d).map (Settled.wrap nested) := by
  unfold wrap
  split
  · rename_i h
    rw [settle_append, settle_cons, settle_cons, settle_nil]
    cases hs : settle c d with
    | error e => rfl
    | ok r =>
      have hr := isEmpty_settle hd hs
      simp [bind, Except.bind, pure, Except.pure, Except.map, Settled.wrap, hr, h, Token.settle,
        Settled.parens]
  · rename_i h
    cases hs : settle c d with
    | error e => rfl
    | ok r =>
      have hr := isEmpty_settle hd hs
      simp [Except.map, Settled.wrap, hr, h]

/-- What `beside` leaves out is empty, so nothing that could become empty is lost. -/
theorem solid_of_beside {c : Context} {sep : String} {a b : Draft}
    (h : Solid c (beside sep a b)) : Solid c a ∧ Solid c b := by
  unfold beside at h
  split at h
  · rename_i ha
    exact ⟨solid_of_isEmpty ha, h⟩
  · split at h
    · rename_i hb
      exact ⟨h, solid_of_isEmpty hb⟩
    · obtain ⟨ha, hb⟩ := solid_append.mp h
      exact ⟨ha, fun t ht => hb t (List.mem_cons_of_mem _ ht)⟩

theorem solid_of_lead {c : Context} {s : String} {d : Draft} (h : Solid c (lead s d)) :
    Solid c d := by
  unfold lead at h
  split at h
  · rename_i hd
    exact solid_of_isEmpty hd
  · exact fun t ht => h t (List.mem_cons_of_mem _ ht)

theorem solid_of_wrap {c : Context} {nested : Bool} {d : Draft} (h : Solid c (wrap nested d)) :
    Solid c d := by
  unfold wrap at h
  split at h
  · exact fun t ht => (solid_append.mp h).1 t (List.mem_cons_of_mem _ ht)
  · exact h

end Draft
end Clausal
