import Clausal.Proofs.Depth.Fits
import Clausal.Proofs.Operands
import Clausal.Proofs.Readability.Lexeme
import Mathlib.Data.List.Basic

/-! # Formulas and their lexemes

A formula is built from plain names and literals by operators, negation and range tests.
Its *norm* leaves null operands of `and` and `or` out and replaces an operator that
stands with one operand by this operand.

A formula stands for a list of lexemes, in which operands of more than one lexeme are grouped
and stand in the *frame* of the head.  The norm has the same lexemes
(`Value.lexemes_norm`).  Statements about formulas are proved by `Value.formula_induction`,
with one case for all heads.
-/
namespace Clausal

/-! ### Formulas -/

/-- The head leaves null operands out. -/
def dropsNull (op : String) : Bool :=
  (Table.get? op OperatorPolicy.builtin).any (·.ignoreNull)

/-- The head may stand with one operand, which then stands for the whole. -/
def takesOne (op : String) : Bool := (Table.get? op OperatorPolicy.builtin).any (·.unary)

/-- The operands of a head that are written. -/
def operandsOf (op : String) (args : List Value) : List Value :=
  match Table.get? op OperatorPolicy.builtin with
  | some p => p.operands args
  | none => args

theorem operandsOf_operator {op : String} {p : OperatorPolicy}
    (h : Table.get? op OperatorPolicy.builtin = some p) (args : List Value) :
    operandsOf op args = p.operands args := by
  simp only [operandsOf, h]

theorem operandsOf_form {op : String} (h : Table.get? op OperatorPolicy.builtin = none)
    (args : List Value) : operandsOf op args = args := by
  simp only [operandsOf, h]

theorem operandsOf_eq (op : String) (args : List Value) :
    operandsOf op args = args.filter fun v => !(dropsNull op && v.isNull) := by
  cases hp : Table.get? op OperatorPolicy.builtin with
  | none =>
    rw [operandsOf_form hp]
    simp [dropsNull, hp]
  | some p =>
    rw [operandsOf_operator hp, OperatorPolicy.operands]
    cases hnull : p.ignoreNull <;> simp [dropsNull, hp, hnull]

theorem operandsOf_cons (op : String) (v : Value) (vs : List Value) :
    operandsOf op (v :: vs) =
      if dropsNull op && v.isNull then operandsOf op vs else v :: operandsOf op vs := by
  rw [operandsOf_eq, operandsOf_eq, List.filter_cons]
  cases dropsNull op && v.isNull <;> rfl

/-- The head takes these operands: an operator, a negation or a range test. -/
def takes (op : String) (args : List Value) : Bool :=
  match Table.get? op OperatorPolicy.builtin with
  | some p => p.takes (p.operands args).length
  | none =>
    op == "not" && args.length == 1 ||
      (op == "between" || op == "not-between") && args.length == 3

/-- What some operands make together; a single one stands for itself where it may. -/
def collapse {α : Type} (op : String) (whole : List α → α) : List α → α
  | [x] => if takesOne op then x else whole [x]
  | xs => whole xs

namespace Value

mutual

/-- A plain name, a literal, or an operator, a negation or a range test of formulas. -/
def isFormula : Value → Bool
  | .bool _ => true
  | .int _ => true
  | .float _ => true
  | .str _ => true
  | .ident name => isPlainName name
  | .seq (.ident op :: args) => takes op args && areOperands (dropsNull op) args
  | _ => false

/-- All of the arguments are formulas, or null where null is left out. -/
def areOperands (dropNull : Bool) : List Value → Bool
  | [] => true
  | v :: vs => (dropNull && v.isNull || v.isFormula) && areOperands dropNull vs

end

mutual

/-- The formula without null operands and without operators that stand with one operand. -/
def norm : Value → Value
  | .seq (.ident op :: args) => collapse op (.call op) (normOperands (dropsNull op) args)
  | v => v

/-- The norms of the operands, nulls left out where they are. -/
def normOperands (dropNull : Bool) : List Value → List Value
  | [] => []
  | v :: vs =>
    if dropNull && v.isNull then normOperands dropNull vs else v.norm :: normOperands dropNull vs

end

end Value

/-! ### Frames -/

/-- How a head stands among its operands. -/
inductive Frame where
  /-- Before its operand. -/
  | before (word : String)
  /-- Between two operands. -/
  | pair (words : List String)
  /-- Between the first two of three operands, with `AND` between the others. -/
  | range (words : List String)
  /-- Between neighbours, with `AND` between the pairs. -/
  | chain (word : String)
  /-- Between all operands. -/
  | joined (word : String)
deriving DecidableEq

namespace Frame
variable {α β : Type}

/-- The words of the head. -/
def words : Frame → List String
  | .before w => [w]
  | .pair ws => ws
  | .range ws => ws
  | .chain w => [w]
  | .joined w => [w]

/-- The frame takes these operands. -/
inductive Fits : Frame → List α → Prop where
  | before (w : String) (x : α) : Fits (.before w) [x]
  | pair (ws : List String) (x y : α) : Fits (.pair ws) [x, y]
  | range (ws : List String) (x y z : α) : Fits (.range ws) [x, y, z]
  | chain (w : String) (x y : α) (rest : List α) : Fits (.chain w) (x :: y :: rest)
  | joined (w : String) (x y : α) (rest : List α) : Fits (.joined w) (x :: y :: rest)

/-- A chain from its second operand on. -/
def chainTail (op conj : α) : α → List α → List α
  | y, [] => [y]
  | y, z :: rest => y :: conj :: y :: op :: chainTail op conj z rest

/-- Joined operands from the second one on. -/
def joinTail (op : α) : α → List α → List α
  | y, [] => [y]
  | y, z :: rest => y :: op :: joinTail op z rest

/-- The operands with the words of the frame between them. -/
def arrange (word : String → α) : Frame → List α → List α
  | .before w, xs => word w :: xs
  | .pair ws, [x, y] => x :: ws.map word ++ [y]
  | .range ws, [x, y, z] => x :: ws.map word ++ [y, word "AND", z]
  | .chain w, x :: y :: rest => x :: word w :: chainTail (word w) (word "AND") y rest
  | .joined w, x :: y :: rest => x :: word w :: joinTail (word w) y rest
  | _, xs => xs

theorem map_chainTail (f : α → β) (op conj y : α) (rest : List α) :
    (chainTail op conj y rest).map f = chainTail (f op) (f conj) (f y) (rest.map f) := by
  induction rest generalizing y with
  | nil => rfl
  | cons z rest ih => simp [chainTail, ih]

theorem map_joinTail (f : α → β) (op y : α) (rest : List α) :
    (joinTail op y rest).map f = joinTail (f op) (f y) (rest.map f) := by
  induction rest generalizing y with
  | nil => rfl
  | cons z rest ih => simp [joinTail, ih]

theorem map_arrange (f : α → β) (word : String → α) {frame : Frame} {xs : List α}
    (h : frame.Fits xs) :
    (frame.arrange word xs).map f = frame.arrange (fun w => f (word w)) (xs.map f) := by
  cases h with
  | before w x => rfl
  | pair ws x y => simp [arrange]
  | range ws x y z => simp [arrange]
  | chain w x y rest => simp [arrange, map_chainTail]
  | joined w x y rest => simp [arrange, map_joinTail]

theorem Fits.map (f : α → β) {frame : Frame} {xs : List α} (h : frame.Fits xs) :
    frame.Fits (xs.map f) := by
  cases h with
  | before w x => exact .before w (f x)
  | pair ws x y => exact .pair ws (f x) (f y)
  | range ws x y z => exact .range ws (f x) (f y) (f z)
  | chain w x y rest => exact .chain w (f x) (f y) (rest.map f)
  | joined w x y rest => exact .joined w (f x) (f y) (rest.map f)

end Frame

/-- The frame of an operator. -/
def OperatorPolicy.frame (p : OperatorPolicy) (op : String) : Frame :=
  match p.arity with
  | .binary => .pair (Text.split ' ' (keyword op))
  | .comparison => .chain (keyword op)
  | .variadic => .joined (keyword op)

/-- The frames of the forms that formulas are built with. -/
def formFrames : Table Frame :=
  [("not", .before "NOT"), ("between", .range ["BETWEEN"]),
    ("not-between", .range ["NOT", "BETWEEN"])]

/-- The frames of the operators. -/
def operatorFrames : Table Frame :=
  ["=", "<>", "!=", "<", ">", "<=", ">="].map (fun op => (op, .chain op)) ++
  [("and", .joined "AND"), ("or", .joined "OR")] ++
  ["+", "*", "||", "&", "|", "^", "-", "/", "%"].map (fun op => (op, .joined op)) ++
  [("mod", .joined "MOD"), ("is", .pair ["IS"]), ("is-not", .pair ["IS", "NOT"]),
    ("like", .pair ["LIKE"]), ("not-like", .pair ["NOT", "LIKE"]), ("ilike", .pair ["ILIKE"]),
    ("not-ilike", .pair ["NOT", "ILIKE"]), ("regexp", .pair ["REGEXP"])] ++
  ["~", "~*", "!~", "@>", "<@", "&&", "->", "->>", "#>", "#>>"].map (fun op => (op, .pair [op]))

/-- The frames of all heads of formulas. -/
def frames : Table Frame := formFrames ++ operatorFrames

theorem operatorFrames_eq :
    OperatorPolicy.builtin.map (fun e => (e.1, e.2.frame e.1)) = operatorFrames := by
  decide +kernel

/-! ### Lexemes of a formula -/

/-- Lexemes as an operand: more than one are grouped. -/
def grouped : List Lexeme → Lexeme
  | [t] => t
  | ts => .group ts

/-- The lexemes of a head with the lexemes of its operands. -/
def framed (op : String) (operands : List (List Lexeme)) : List Lexeme :=
  match Table.get? op frames with
  | some frame => frame.arrange .word (operands.map grouped)
  | none => []

namespace Value

mutual

/-- The lexemes of a formula. -/
def lexemes : Value → List Lexeme
  | .ident name => [.word name]
  | .seq (.ident op :: args) => collapse op (framed op) (operandLexemes (dropsNull op) args)
  | v => [.mark v]

/-- The lexemes of each operand, nulls left out where they are. -/
def operandLexemes (dropNull : Bool) : List Value → List (List Lexeme)
  | [] => []
  | v :: vs =>
    if dropNull && v.isNull then operandLexemes dropNull vs
    else v.lexemes :: operandLexemes dropNull vs

end

theorem normOperands_eq (op : String) (args : List Value) :
    normOperands (dropsNull op) args = (operandsOf op args).map norm := by
  induction args with
  | nil => rw [operandsOf_eq]; rfl
  | cons v vs ih => rw [normOperands, operandsOf_cons, apply_ite (List.map norm), ih]; rfl

theorem operandLexemes_eq (op : String) (args : List Value) :
    operandLexemes (dropsNull op) args = (operandsOf op args).map lexemes := by
  induction args with
  | nil => rw [operandsOf_eq]; rfl
  | cons v vs ih => rw [operandLexemes, operandsOf_cons, apply_ite (List.map lexemes), ih]; rfl

theorem isFormula_of_operand {op : String} {args : List Value}
    (h : areOperands (dropsNull op) args = true) :
    ∀ v ∈ operandsOf op args, v.isFormula = true := by
  induction args with
  | nil => simp [operandsOf_eq]
  | cons v vs ih =>
    rw [areOperands, Bool.and_eq_true] at h
    rw [operandsOf_cons]
    split
    · exact ih h.2
    · rename_i hv
      have hformula : v.isFormula = true := by simpa [hv] using h.1
      exact List.forall_mem_cons.mpr ⟨hformula, ih h.2⟩

end Value

/-! ### Heads and their frames -/

/-- Every head has one or two words. -/
theorem words_of_mem : ∀ e ∈ frames, e.2.words.all isWord = true ∧
    (e.2.words.length = 1 ∨ e.2.words.length = 2) := by
  decide

/-- No operator is called like a form. -/
theorem formFrames_of_operator : ∀ e ∈ OperatorPolicy.builtin,
    Table.get? e.1 formFrames = none := by
  decide

theorem frames_of_operator {op : String} {p : OperatorPolicy}
    (h : Table.get? op OperatorPolicy.builtin = some p) :
    Table.get? op frames = some (p.frame op) := by
  have hform : Table.get? op formFrames = none := formFrames_of_operator _ (Table.mem_of_get? h)
  have hoperator : Table.get? op operatorFrames = some (p.frame op) := by
    rw [← operatorFrames_eq, Table.get?_map (fun op p => OperatorPolicy.frame p op), h]
    rfl
  rw [frames, Table.get?_append, hform, hoperator]
  rfl

/-- An operator takes one operand that stands for the whole, or as many as its frame does. -/
theorem OperatorPolicy.fits_of_takes {p : OperatorPolicy} {vs : List Value}
    (h : p.takes vs.length = true) (op : String) :
    (p.unary = true ∧ ∃ v, vs = [v]) ∨ (p.frame op).Fits vs := by
  unfold takes at h
  unfold frame
  cases harity : p.arity with
  | binary =>
    rw [harity, beq_iff_eq] at h
    obtain ⟨x, y, rfl⟩ := List.length_eq_two.mp h
    exact .inr (.pair _ x y)
  | comparison =>
    simp only [harity, decide_eq_true_eq] at h
    obtain ⟨x, vs, rfl⟩ := List.exists_cons_of_length_pos (Nat.lt_of_lt_of_le Nat.two_pos h)
    obtain ⟨y, rest, rfl⟩ := List.exists_cons_of_length_pos (Nat.succ_le_succ_iff.mp h)
    exact .inr (.chain _ x y rest)
  | variadic =>
    simp only [harity, decide_eq_true_eq] at h
    cases vs with
    | nil => cases hu : p.unary <;> simp [hu] at h
    | cons x vs =>
      cases vs with
      | nil =>
        cases hu : p.unary with
        | true => exact .inl ⟨rfl, x, rfl⟩
        | false => simp [hu] at h
      | cons y rest => exact .inr (.joined _ x y rest)

namespace Value

/-- One operand that stands for the whole, or as many as the frame takes. -/
theorem fits_of_takes {op : String} {args : List Value} (h : takes op args = true) :
    (takesOne op = true ∧ ∃ v, operandsOf op args = [v]) ∨
      ∃ frame, Table.get? op frames = some frame ∧ frame.Fits (operandsOf op args) := by
  unfold takes at h
  cases hp : Table.get? op OperatorPolicy.builtin with
  | some p =>
    rw [hp] at h
    rw [operandsOf_operator hp, frames_of_operator hp]
    rcases p.fits_of_takes h op with ⟨hu, hone⟩ | hfits
    · exact .inl ⟨by simpa [takesOne, hp] using hu, hone⟩
    · exact .inr ⟨_, rfl, hfits⟩
  | none =>
    rw [hp] at h
    rw [operandsOf_form hp]
    simp only [Bool.or_eq_true, Bool.and_eq_true, beq_iff_eq] at h
    rcases h with ⟨rfl, hlen⟩ | ⟨rfl | rfl, hlen⟩
    · obtain ⟨x, rfl⟩ := List.length_eq_one_iff.mp hlen
      exact .inr ⟨_, rfl, .before _ x⟩
    · obtain ⟨x, y, z, rfl⟩ := List.length_eq_three.mp hlen
      exact .inr ⟨_, rfl, .range _ x y z⟩
    · obtain ⟨x, y, z, rfl⟩ := List.length_eq_three.mp hlen
      exact .inr ⟨_, rfl, .range _ x y z⟩

/-- An operand that is written is lighter than the whole. -/
theorem weight_operand_lt {op : String} {args : List Value} {v : Value}
    (h : v ∈ operandsOf op args) : v.weight + 2 ≤ (Value.call op args).weight := by
  rw [operandsOf_eq] at h
  have hargs := weight_le_of_mem (List.mem_filter.mp h).1
  simp only [call, weight, weightItems]
  omega

/-- **Induction on formulas.**  Of a head, the hypothesis is about the operands that are written. -/
@[elab_as_elim]
theorem formula_induction {P : Value → Prop} (name : ∀ s, isPlainName s = true → P (.ident s))
    (literal : ∀ v, v.isBound = true → P v)
    (head : ∀ op args, takes op args = true →
      (∀ v ∈ operandsOf op args, v.isFormula = true ∧ P v) → P (.call op args))
    (v : Value) (h : v.isFormula = true) : P v := by
  induction hn : v.weight using Nat.strongRecOn generalizing v with
  | _ n ih =>
    match v, h with
    | .bool b, _ => exact literal (.bool b) rfl
    | .int n, _ => exact literal (.int n) rfl
    | .float x, _ => exact literal (.float x) rfl
    | .str s, _ => exact literal (.str s) rfl
    | .ident s, h => exact name s h
    | .seq (.ident op :: args), h =>
      rw [isFormula, Bool.and_eq_true] at h
      refine head op args h.1 fun v hv => ?_
      have hv' := isFormula_of_operand h.2 v hv
      have hlt := weight_operand_lt hv
      exact ⟨hv', ih v.weight (by rw [← hn]; exact Nat.lt_of_lt_of_le (by omega) hlt) v hv' rfl⟩

end Value

theorem collapse_single {α : Type} {op : String} (h : takesOne op = true) (whole : List α → α)
    (x : α) : collapse op whole [x] = x := by
  rw [collapse, if_pos h]

/-- Only heads between operands may stand with one operand. -/
theorem joined_of_takesOne : ∀ e ∈ frames, takesOne e.1 = true →
    e.2 = .joined (e.2.words.headD "") := by
  decide

theorem collapse_of_fits {α β : Type} {op : String} {frame : Frame}
    (hop : Table.get? op frames = some frame) {ys : List β} (h : frame.Fits ys)
    (whole : List α → α) {xs : List α} (hlen : xs.length = ys.length) :
    collapse op whole xs = whole xs := by
  have hmany : xs.length = 1 → takesOne op = false := by
    intro hone
    rw [hone] at hlen
    cases h with
    | before w y =>
      rw [← Bool.not_eq_true]
      intro hone
      cases joined_of_takesOne _ (Table.mem_of_get? hop) hone
    | pair ws y z => cases hlen
    | range ws y z u => cases hlen
    | chain w y z rest => cases hlen
    | joined w y z rest => cases hlen
  fun_cases collapse op whole xs with
  | case1 x hone =>
    rw [hmany rfl] at hone
    cases hone
  | case2 x hone => rfl
  | case3 xs hne => rfl

namespace Value

theorem norm_call (op : String) (args : List Value) :
    (Value.call op args).norm = collapse op (.call op) ((operandsOf op args).map norm) := by
  rw [call, norm, normOperands_eq]

theorem lexemes_call (op : String) (args : List Value) :
    (Value.call op args).lexemes =
      collapse op (framed op) ((operandsOf op args).map lexemes) := by
  rw [call, lexemes, operandLexemes_eq]

theorem norm_literal {v : Value} (h : v.isBound = true) : v.norm = v := by
  cases v <;> first | rfl | cases h

theorem lexemes_literal {v : Value} (h : v.isBound = true) : v.lexemes = [.mark v] := by
  cases v <;> first | rfl | cases h

/-- The lexeme of a formula as an operand. -/
def operand (v : Value) : Lexeme := grouped v.lexemes

theorem framed_eq {op : String} {frame : Frame} (hop : Table.get? op frames = some frame)
    (vs : List Value) : framed op (vs.map lexemes) = frame.arrange .word (vs.map operand) := by
  rw [framed, hop, List.map_map]
  rfl

/-- A formula is not null, and neither is its norm. -/
theorem isNull_norm {v : Value} (h : v.isFormula = true) : v.norm.isNull = false := by
  refine formula_induction ?name ?literal ?head v h
  case name =>
    intro s _
    rfl
  case literal =>
    intro v hv
    rw [norm_literal hv]
    cases v <;> first | rfl | cases hv
  case head =>
    intro op args htakes ih
    rw [norm_call]
    rcases fits_of_takes htakes with ⟨hone, v, hv⟩ | ⟨frame, hop, hfits⟩
    · rw [hv, List.map_singleton, collapse_single hone]
      exact (ih v (by simp [hv])).2
    · rw [collapse_of_fits hop hfits _ (List.length_map _)]
      rfl

theorem operandsOf_of_not_null {vs : List Value} (h : ∀ v ∈ vs, v.isNull = false) (op : String) :
    operandsOf op vs = vs := by
  rw [operandsOf_eq]
  exact List.filter_eq_self.mpr fun v hv => by simp [h v hv]

/-- **The lexemes of a formula are those of its norm.** -/
theorem lexemes_norm {v : Value} (h : v.isFormula = true) : v.norm.lexemes = v.lexemes := by
  refine formula_induction ?name ?literal ?head v h
  case name =>
    intro s _
    rfl
  case literal =>
    intro v hv
    rw [norm_literal hv]
  case head =>
    intro op args htakes ih
    rw [norm_call, lexemes_call]
    rcases fits_of_takes htakes with ⟨hone, v, hv⟩ | ⟨frame, hop, hfits⟩
    · rw [hv, List.map_singleton, List.map_singleton, collapse_single hone, collapse_single hone]
      exact (ih v (by simp [hv])).2
    · -- The norms of the operands are not null, so all of them are written again.
      have hkept : operandsOf op ((operandsOf op args).map norm) =
          (operandsOf op args).map norm := by
        refine operandsOf_of_not_null (fun n hn => ?_) _
        obtain ⟨v, hv, rfl⟩ := List.mem_map.mp hn
        exact isNull_norm (ih v hv).1
      have hlexemes : ((operandsOf op args).map norm).map lexemes =
          (operandsOf op args).map lexemes := by
        rw [List.map_map]
        exact List.map_congr_left fun v hv => (ih v hv).2
      rw [collapse_of_fits hop hfits _ (List.length_map _), lexemes_call, hkept, hlexemes]

/-! ### The lexemes of a formula are valid -/

theorem isWord_of_plain {s : String} (h : isPlainName s = true) :
    Clausal.isWord s = true := by
  simp only [isPlainName, Bool.and_eq_true, List.all_eq_true] at h
  simp only [Clausal.isWord, Bool.and_eq_true, List.all_eq_true]
  refine ⟨h.1, fun c hc => ?_⟩
  have hplain := h.2 c hc
  have hne : ∀ d : Char, (d.isAlphanum || decide (d = '_')) = false → c ≠ d := by
    rintro d hd rfl
    rw [hplain] at hd
    cases hd
  simp [isInk, hne ' ' (by decide), hne '(' (by decide), hne ')' (by decide), hne '?' (by decide)]

end Value

theorem valid_grouped {ts : List Lexeme} (hne : ts ≠ []) (h : Lexeme.AllValid ts) :
    (grouped ts).Valid := by
  fun_cases grouped ts with
  | case1 t => exact h.1
  | case2 ts hmany => exact ⟨hne, h⟩

theorem Frame.mem_chainTail {α : Type} {op conj y t : α} {rest : List α}
    (h : t ∈ chainTail op conj y rest) : t = op ∨ t = conj ∨ t ∈ y :: rest := by
  induction rest generalizing y with
  | nil => exact .inr (.inr h)
  | cons z rest ih =>
    simp only [chainTail, List.mem_cons] at h
    rcases h with rfl | rfl | rfl | rfl | h
    · exact .inr (.inr List.mem_cons_self)
    · exact .inr (.inl rfl)
    · exact .inr (.inr List.mem_cons_self)
    · exact .inl rfl
    · rcases ih h with h | h | h
      · exact .inl h
      · exact .inr (.inl h)
      · exact .inr (.inr (List.mem_cons_of_mem y h))

theorem Frame.mem_joinTail {α : Type} {op y t : α} {rest : List α}
    (h : t ∈ joinTail op y rest) : t = op ∨ t ∈ y :: rest := by
  induction rest generalizing y with
  | nil => exact .inr h
  | cons z rest ih =>
    simp only [joinTail, List.mem_cons] at h
    rcases h with rfl | rfl | h
    · exact .inr List.mem_cons_self
    · exact .inl rfl
    · rcases ih h with h | h
      · exact .inl h
      · exact .inr (List.mem_cons_of_mem y h)

/-- An arrangement consists of the operands, the words of the head and `AND`. -/
theorem Frame.mem_arrange {α : Type} {word : String → α} {frame : Frame} {xs : List α}
    (hfits : frame.Fits xs) {t : α} (h : t ∈ frame.arrange word xs) :
    t ∈ xs ∨ (∃ w ∈ frame.words, t = word w) ∨ t = word "AND" := by
  cases hfits with
  | before w x =>
    rcases List.mem_cons.mp h with rfl | h
    · exact .inr (.inl ⟨w, List.mem_cons_self, rfl⟩)
    · exact .inl h
  | pair ws x y =>
    simp only [arrange, List.mem_cons, List.mem_append, List.mem_map] at h ⊢
    rcases h with (h | ⟨w, hw, rfl⟩) | h
    · exact .inl (.inl h)
    · exact .inr (.inl ⟨w, hw, rfl⟩)
    · exact .inl (.inr h)
  | range ws x y z =>
    simp only [arrange, List.mem_cons, List.mem_append, List.mem_map] at h ⊢
    rcases h with (h | ⟨w, hw, rfl⟩) | h | h | h
    · exact .inl (.inl h)
    · exact .inr (.inl ⟨w, hw, rfl⟩)
    · exact .inl (.inr (.inl h))
    · exact .inr (.inr h)
    · exact .inl (.inr (.inr h))
  | chain w x y rest =>
    rcases List.mem_cons.mp h with h | h
    · exact .inl (h ▸ List.mem_cons_self)
    · rcases List.mem_cons.mp h with h | h
      · exact .inr (.inl ⟨w, List.mem_cons_self, h⟩)
      · rcases mem_chainTail h with h | h | h
        · exact .inr (.inl ⟨w, List.mem_cons_self, h⟩)
        · exact .inr (.inr h)
        · exact .inl (List.mem_cons_of_mem x h)
  | joined w x y rest =>
    rcases List.mem_cons.mp h with h | h
    · exact .inl (h ▸ List.mem_cons_self)
    · rcases List.mem_cons.mp h with h | h
      · exact .inr (.inl ⟨w, List.mem_cons_self, h⟩)
      · rcases mem_joinTail h with h | h
        · exact .inr (.inl ⟨w, List.mem_cons_self, h⟩)
        · exact .inl (List.mem_cons_of_mem x h)

theorem Frame.arrange_ne_nil {α : Type} (word : String → α) {frame : Frame} {xs : List α}
    (hfits : frame.Fits xs) : frame.arrange word xs ≠ [] := by
  cases hfits <;> exact List.cons_ne_nil _ _

/-- Valid operands make valid lexemes. -/
theorem Frame.valid_arrange {op : String} {frame : Frame}
    (hop : Table.get? op frames = some frame) {ts : List Lexeme} (hfits : frame.Fits ts)
    (h : ∀ t ∈ ts, t.Valid) : Lexeme.AllValid (frame.arrange .word ts) := by
  refine Lexeme.allValid_iff.mpr fun t ht => ?_
  rcases mem_arrange hfits ht with ht | ⟨w, hw, rfl⟩ | rfl
  · exact h t ht
  · have hwords := (words_of_mem _ (Table.mem_of_get? hop)).1
    exact List.all_eq_true.mp hwords w hw
  · exact (by decide : isWord "AND" = true)

/-- **The lexemes of a formula are valid, and there is one at least.** -/
theorem Value.valid_lexemes {v : Value} (h : v.isFormula = true) :
    v.lexemes ≠ [] ∧ Lexeme.AllValid v.lexemes := by
  refine formula_induction ?name ?literal ?head v h
  case name =>
    intro s hs
    exact ⟨List.cons_ne_nil _ _, isWord_of_plain hs, trivial⟩
  case literal =>
    intro v hv
    rw [lexemes_literal hv]
    exact ⟨List.cons_ne_nil _ _, trivial, trivial⟩
  case head =>
    intro op args htakes ih
    rw [lexemes_call]
    rcases fits_of_takes htakes with ⟨hone, v, hv⟩ | ⟨frame, hop, hfits⟩
    · rw [hv, List.map_singleton, collapse_single hone]
      exact (ih v (by simp [hv])).2
    · have hmap := hfits.map operand
      rw [collapse_of_fits hop hfits _ (List.length_map _), framed_eq hop]
      refine ⟨Frame.arrange_ne_nil _ hmap, Frame.valid_arrange hop hmap fun t ht => ?_⟩
      obtain ⟨v, hv, rfl⟩ := List.mem_map.mp ht
      obtain ⟨-, hne, hvalid⟩ := ih v hv
      exact valid_grouped hne hvalid

end Clausal
