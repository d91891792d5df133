import Clausal.Proofs.Readability.Reading
import Mathlib.Data.List.TakeDrop
import Mathlib.Data.List.TakeWhile

/-! # Formulas are written as their lexemes

The draft of a formula spells its lexemes, in parentheses where it stands inside an operator and has
more than one of them (`Grammar.spells_formula`).  Text and parameters determine the lexemes, and
these determine the norm.  Hence two formulas are written alike exactly when their norms are
equal (`Grammar.formatExpr_eq_iff_norm_eq`).
-/
namespace Clausal

/-! ### Spelling lexemes one after the other -/

theorem Text.pieces_ne_nil (sep : Char) (cs : List Char) : pieces sep cs ≠ [] := by
  fun_cases pieces sep cs <;> exact List.cons_ne_nil _ _

namespace Lexeme

theorem spellAll_cons (t : Lexeme) {ts : List Lexeme} (h : ts ≠ []) :
    spellAll (t :: ts) = t.spell ++ .char ' ' :: spellAll ts := by
  cases ts with
  | nil => exact absurd rfl h
  | cons u us => rfl

theorem spellAll_append {as bs : List Lexeme} (ha : as ≠ []) (hb : bs ≠ []) :
    spellAll (as ++ bs) = spellAll as ++ .char ' ' :: spellAll bs := by
  induction as with
  | nil => exact absurd rfl ha
  | cons t ts ih =>
    cases ts with
    | nil => exact spellAll_cons t hb
    | cons u us =>
      have hne : u :: us ++ bs ≠ [] := List.cons_ne_nil _ _
      rw [List.cons_append, spellAll_cons t hne, ih (List.cons_ne_nil u us),
        spellAll_cons t (List.cons_ne_nil u us), List.append_assoc, List.cons_append]

theorem spell_ne_nil {t : Lexeme} (h : t.Valid) : t.spell ≠ [] := by
  cases t with
  | word s =>
    obtain ⟨c, tail, -, hs⟩ := exists_ofText_of_word h
    rw [spell, hs]
    exact List.cons_ne_nil _ _
  | mark v => exact List.cons_ne_nil _ _
  | group inner => exact List.cons_ne_nil _ _

theorem spellAll_ne_nil {ts : List Lexeme} (hne : ts ≠ []) (h : AllValid ts) :
    spellAll ts ≠ [] := by
  cases ts with
  | nil => exact absurd rfl hne
  | cons t ts =>
    have hfirst := spell_ne_nil h.1
    cases ts with
    | nil => exact hfirst
    | cons u us =>
      rw [spellAll_cons t (List.cons_ne_nil u us)]
      exact List.append_ne_nil_of_left_ne_nil hfirst _

/-- Words between blanks are spelled as the text they were cut from. -/
theorem spellAll_pieces (cs : List Char) :
    spellAll ((Text.pieces ' ' cs).map fun p => .word (String.ofList p)) = cs.map .char := by
  fun_induction Text.pieces ' ' cs with
  | case1 => rfl
  | case2 cs ih =>
    rw [List.map_cons, spellAll_cons _ (by simpa using Text.pieces_ne_nil ' ' cs), ih]
    simp [spell, Spelling.ofText]
  | case3 c cs hc hnil => exact absurd hnil (Text.pieces_ne_nil ' ' cs)
  | case4 c cs hc p ps hps ih =>
    rw [hps] at ih
    cases ps with
    | nil => simpa [spellAll, spell, Spelling.ofText] using ih
    | cons q qs => simpa [spellAll, spell, Spelling.ofText] using ih

theorem spellAll_split (s : String) :
    spellAll ((Text.split ' ' s).map .word) = Spelling.ofText s := by
  rw [Text.split, List.map_map]
  exact spellAll_pieces s.toList

end Lexeme

namespace Value

/-- The spelling of a formula on its own, or as an operand. -/
def spelling (nested : Bool) (v : Value) : Spelling :=
  if nested then v.operand.spell else Lexeme.spellAll v.lexemes

theorem operand_valid {v : Value} (h : v.isFormula = true) : v.operand.Valid := by
  obtain ⟨hne, hvalid⟩ := valid_lexemes h
  exact valid_grouped hne hvalid

theorem isNull_of_isFormula {v : Value} (h : v.isFormula = true) : v.isNull = false := by
  cases v <;> first | rfl | cases h

end Value

/-! ### Names -/

theorem notMem_of_plain {s : String} (h : isPlainName s = true) {d : Char}
    (hd : (d.isAlphanum || decide (d = '_')) = false) : d ∉ s.toList := by
  intro hmem
  simp only [isPlainName, Bool.and_eq_true, List.all_eq_true] at h
  rw [h.2 d hmem] at hd
  cases hd

theorem Text.split_of_notMem {sep : Char} {s : String} (h : sep ∉ s.toList) :
    split sep s = [s] := by
  have hpieces : ∀ cs : List Char, sep ∉ cs → pieces sep cs = [cs] := by
    intro cs hcs
    induction cs with
    | nil => rfl
    | cons c cs ih =>
      obtain ⟨hc, hrest⟩ := not_or.mp fun h => hcs (List.mem_cons.mpr h)
      rw [pieces, if_neg (Ne.symm hc), ih hrest]
  rw [split, hpieces _ h, List.map_singleton, String.ofList_toList]

theorem Text.cutFirst?_of_notMem {sep : Char} {s : String} (h : sep ∉ s.toList) :
    cutFirst? sep s = none := by
  have hdrop : s.toList.dropWhile (· != sep) = [] := by
    rw [List.dropWhile_eq_nil_iff]
    intro c hc
    exact bne_iff_ne.mpr fun heq => h (heq ▸ hc)
  rw [cutFirst?, List.span_eq_takeWhile_dropWhile, hdrop]

theorem Text.replaceChar_of_notMem {a b : Char} {s : String} (h : a ∉ s.toList) :
    replaceChar a b s = s := by
  rw [replaceChar, ← String.toList_inj, String.toList_map]
  refine (List.map_congr_left fun c hc => ?_).trans (List.map_id _)
  have hca : c ≠ a := fun heq => h (heq ▸ hc)
  exact if_neg hca

theorem Text.stripLeading?_of_notMem {c : Char} {s : String} (h : c ∉ s.toList) :
    stripLeading? c s = none := by
  unfold stripLeading?
  split
  · rfl
  · rename_i d ds hds
    rw [if_neg]
    rintro rfl
    rw [hds] at h
    exact h List.mem_cons_self

/-- A plain name is written as it is, unless every name goes in delimiters. -/
theorem NameStyle.entity_of_plain {style : NameStyle} (hquoted : style.quoted = false)
    {s : String} (h : isPlainName s = true) : style.entity s = s := by
  have hsnake : snake s = s := Text.replaceChar_of_notMem (notMem_of_plain h (by decide))
  have hparts : nameParts s = [s] := by
    have hne : s.isEmpty = false := by
      simp only [isPlainName, Bool.and_eq_true, Bool.not_eq_true'] at h
      exact h.1
    have hslash : '/' ∉ s.toList := notMem_of_plain h (by decide)
    have hdot : '.' ∉ s.toList := notMem_of_plain h (by decide)
    rw [nameParts, Text.cutFirst?_of_notMem hslash, Text.split_of_notMem hdot]
    simp [hne]
  have hpart : style.part s = s := by
    simp [part, hquoted, hsnake, h]
  rw [entity, hparts, List.map_singleton, hpart, String.intercalate_singleton]

theorem Grammar.nameLayout_of_plain {s : String} (h : isPlainName s = true) :
    nameLayout s = .entity s := by
  rw [nameLayout, Text.stripLeading?_of_notMem (notMem_of_plain h (by decide)),
    Text.stripLeading?_of_notMem (notMem_of_plain h (by decide))]

/-! ### Operands in their frames -/

variable {σ : Shape} {sub : Drafters} {m : Marker}

theorem Spelling.ofText_spaced (s : String) :
    ofText (" " ++ s ++ " ") = .char ' ' :: (ofText s ++ [.char ' ']) := by
  simp [ofText]

theorem Lexeme.spellAll_between (t : Lexeme) {ws ts : List Lexeme} (hws : ws ≠ []) (hts : ts ≠ []) :
    spellAll (t :: ws ++ ts) =
      t.spell ++ .char ' ' :: (spellAll ws ++ .char ' ' :: spellAll ts) := by
  rw [List.cons_append, spellAll_cons t (List.append_ne_nil_of_left_ne_nil hws ts),
    spellAll_append hws hts]

/-- The operands are not null and are drafted as they are spelled. -/
def SpellsOperands (sub : Drafters) (m : Marker) (vs : List Value) : Prop :=
  ∀ v ∈ vs, v.isFormula = true ∧ Draft.Spells (sub.expr m true v) v.operand.spell

theorem SpellsOperands.tail {v : Value} {vs : List Value} (h : SpellsOperands sub m (v :: vs)) :
    SpellsOperands sub m vs :=
  fun w hw => h w (List.mem_cons_of_mem v hw)

theorem SpellsOperands.ne_nil {v : Value} {vs : List Value} (h : SpellsOperands sub m (v :: vs)) :
    v.operand.spell ≠ [] :=
  Lexeme.spell_ne_nil (Value.operand_valid (h v List.mem_cons_self).1)

/-- A keyword between blanks. -/
theorem spells_spaced (s : String) :
    Draft.Spells ((" " ++ s ++ " " : Layout).draft σ sub m)
      (Spelling.ofText (" " ++ s ++ " ")) := by
  rw [Spelling.ofText_append, Spelling.ofText_append]
  exact ((Draft.Spells.single " ").append (.single s)).append (.single " ")

/-- Two operands with text between them. -/
theorem spells_comparison {x y : Value} {vs : List Value} (h : SpellsOperands sub m (x :: y :: vs))
    (op sql : String) :
    Draft.Spells ((comparison op sql x y).draft σ sub m)
      (x.operand.spell ++ Spelling.ofText (" " ++ sql ++ " ") ++ y.operand.spell) := by
  obtain ⟨hx, hxs⟩ := h x List.mem_cons_self
  obtain ⟨hy, hys⟩ := h y (List.mem_cons_of_mem x List.mem_cons_self)
  have hplain : comparison op sql x y =
      Layout.inner x ++ (" " ++ sql ++ " ") ++ Layout.inner y := by
    unfold comparison
    rw [Value.isNull_of_isFormula hx, Value.isNull_of_isFormula hy]
    cases nullTest? op <;> rfl
  rw [hplain]
  exact (hxs.append (spells_spaced sql)).append hys

theorem spells_chain {x y : Value} {rest : List Value}
    (h : SpellsOperands sub m (x :: y :: rest)) (op sql : String) :
    Draft.Spells
      ((Layout.join " AND "
        ((neighbours (x :: y :: rest)).map fun pair =>
          comparison op sql pair.1 pair.2)).draft σ sub m)
      (Lexeme.spellAll
        (Frame.arrange .word (.chain sql) ((x :: y :: rest).map Value.operand))) := by
  induction rest generalizing x y with
  | nil =>
    have hspell : Lexeme.spellAll (Frame.arrange .word (.chain sql) ([x, y].map Value.operand)) =
        x.operand.spell ++ Spelling.ofText (" " ++ sql ++ " ") ++ y.operand.spell := by
      simp [Frame.arrange, Frame.chainTail, Lexeme.spellAll, Lexeme.spell, Spelling.ofText_spaced]
    rw [hspell]
    exact spells_comparison h op sql
  | cons z rest ih =>
    have hspell : Lexeme.spellAll
          (Frame.arrange .word (.chain sql) ((x :: y :: z :: rest).map Value.operand)) =
        x.operand.spell ++ Spelling.ofText (" " ++ sql ++ " ") ++ y.operand.spell ++
          Spelling.ofText (" " ++ "AND" ++ " ") ++ Lexeme.spellAll
            (Frame.arrange .word (.chain sql) ((y :: z :: rest).map Value.operand)) := by
      simp only [Spelling.ofText_spaced]
      simp [Frame.arrange, Frame.chainTail, Lexeme.spellAll, Lexeme.spell]
    rw [hspell]
    exact ((spells_comparison h op sql).append (.single " AND ")).append (ih h.tail)

theorem Frame.joinTail_ne_nil {α : Type} (op y : α) (rest : List α) :
    joinTail op y rest ≠ [] := by
  cases rest <;> exact List.cons_ne_nil _ _

theorem spells_joined {y : Value} {rest : List Value} (h : SpellsOperands sub m (y :: rest))
    (sql : String) :
    Lexeme.spellAll (Frame.joinTail (.word sql) y.operand (rest.map Value.operand)) ≠ [] ∧
    Draft.Spells ((Layout.joinKept (" " ++ sql ++ " ") ((y :: rest).map .inner)).draft σ sub m)
      (Lexeme.spellAll (Frame.joinTail (.word sql) y.operand (rest.map Value.operand))) := by
  obtain ⟨-, hy⟩ := h y List.mem_cons_self
  induction rest generalizing y with
  | nil =>
    refine ⟨h.ne_nil, ?_⟩
    have hlast : (Layout.joinKept (" " ++ sql ++ " ") ([y].map .inner)).draft σ sub m =
        sub.expr m true y := by
      have hdraft : (Layout.joinKept (" " ++ sql ++ " ") ([y].map .inner)).draft σ sub m =
          Draft.beside (" " ++ sql ++ " ") (sub.expr m true y) [.text ""] := rfl
      rw [hdraft, Draft.beside, hy.isEmpty_eq_false h.ne_nil]
      rfl
    rw [hlast]
    exact hy
  | cons z rest ih =>
    obtain ⟨hne, hrest⟩ := ih h.tail (h.tail z List.mem_cons_self).2
    have hspell : Lexeme.spellAll
          (Frame.joinTail (.word sql) y.operand ((z :: rest).map Value.operand)) =
        y.operand.spell ++ Spelling.ofText (" " ++ sql ++ " ") ++
          Lexeme.spellAll (Frame.joinTail (.word sql) z.operand (rest.map Value.operand)) := by
      have hjoin := Frame.joinTail_ne_nil (.word sql) z.operand (rest.map Value.operand)
      rw [List.map_cons, Frame.joinTail, Lexeme.spellAll_cons _ (List.cons_ne_nil _ _),
        Lexeme.spellAll_cons _ hjoin, Spelling.ofText_spaced, Lexeme.spell]
      simp
    rw [hspell]
    exact ⟨List.append_ne_nil_of_right_ne_nil _ hne, hy.beside hrest h.ne_nil hne _⟩

/-- An operator with at least two operands spells its frame. -/
theorem spells_operator (σ : Shape) (p : OperatorPolicy) (op : String) {vs : List Value}
    (hfits : (p.frame op).Fits vs) (h : SpellsOperands sub m vs) (whole : Value) :
    ∃ body, p.joined op (keyword op) vs whole = .wrap body ∧
      Draft.Spells (body.draft σ sub m)
        (Lexeme.spellAll ((p.frame op).arrange .word (vs.map Value.operand))) := by
  unfold OperatorPolicy.frame at hfits ⊢
  unfold OperatorPolicy.joined
  cases harity : p.arity with
  | binary =>
    rw [harity] at hfits
    cases hfits with
    | pair ws x y =>
      refine ⟨comparison op (keyword op) x y, rfl, ?_⟩
      have hsplit : (Text.split ' ' (keyword op)).map Lexeme.word ≠ [] := by
        simpa [Text.split] using Text.pieces_ne_nil ' ' (keyword op).toList
      have hspell : Lexeme.spellAll (Frame.arrange .word (.pair (Text.split ' ' (keyword op)))
            ([x, y].map Value.operand)) =
          x.operand.spell ++ Spelling.ofText (" " ++ keyword op ++ " ") ++ y.operand.spell := by
        have hbetween := Lexeme.spellAll_between x.operand hsplit (List.cons_ne_nil y.operand [])
        rw [Lexeme.spellAll_split] at hbetween
        refine hbetween.trans ?_
        simp [Spelling.ofText_spaced, Lexeme.spellAll]
      rw [hspell]
      exact spells_comparison h op (keyword op)
  | comparison =>
    rw [harity] at hfits
    cases hfits with
    | chain w x y rest => exact ⟨_, rfl, spells_chain h op (keyword op)⟩
  | variadic =>
    rw [harity] at hfits
    cases hfits with
    | joined w x y rest => exact ⟨_, rfl, (spells_joined h (keyword op)).2⟩

theorem grouped_arrange {frame : Frame} {ts : List Lexeme} (h : frame.Fits ts) :
    grouped (frame.arrange .word ts) = .group (frame.arrange .word ts) := by
  cases h with
  | before w x => rfl
  | pair ws x y => cases ws <;> rfl
  | range ws x y z => cases ws <;> rfl
  | chain w x y rest => rfl
  | joined w x y rest => rfl

namespace Value
variable {op : String} {args : List Value}

/-- A head with as many operands as its frame takes is in parentheses where it is nested. -/
theorem spelling_of_fits {frame : Frame} (hop : Table.get? op frames = some frame)
    (hfits : frame.Fits (operandsOf op args)) (nested : Bool) :
    (call op args).spelling nested =
      if nested then
        .char '(' ::
          Lexeme.spellAll (frame.arrange .word ((operandsOf op args).map operand)) ++
            [.char ')']
      else Lexeme.spellAll (frame.arrange .word ((operandsOf op args).map operand)) := by
  have hlexemes : (call op args).lexemes =
      frame.arrange .word ((operandsOf op args).map operand) := by
    rw [lexemes_call, collapse_of_fits hop hfits _ (List.length_map _), framed_eq hop]
  rw [spelling, operand, hlexemes, grouped_arrange (hfits.map operand)]
  rfl

theorem spelling_of_single {v : Value} (hone : takesOne op = true)
    (hv : operandsOf op args = [v]) (nested : Bool) :
    (call op args).spelling nested = v.spelling nested := by
  have hlexemes : (call op args).lexemes = v.lexemes := by
    rw [lexemes_call, hv, List.map_singleton, collapse_single hone]
  rw [spelling, spelling, operand, operand, hlexemes]

end Value

/-! ### Heads -/

/-- The tags of operators are in small letters. -/
theorem lower_of_operator : ∀ e ∈ OperatorPolicy.builtin, Text.lower e.1 = e.1 := by
  have hmap : OperatorPolicy.builtin.map (fun e => Text.lower e.1) =
      OperatorPolicy.builtin.map Prod.fst := by decide +kernel
  exact List.map_inj_left.mp hmap

theorem sql_of_operator : ∀ e ∈ OperatorPolicy.builtin, e.2.sql = none := by
  decide

theorem OperatorPolicy.layout_of_fits {p : OperatorPolicy} {op : String} {args : List Value}
    (hfits : (p.frame op).Fits (p.operands args)) (hsql : p.sql = none) (whole : Value) :
    p.layout op args whole = p.joined op (keyword op) (p.operands args) whole := by
  obtain ⟨x, y, rest, hmany⟩ : ∃ x y rest, p.operands args = x :: y :: rest := by
    generalize p.operands args = vs at hfits
    unfold frame at hfits
    cases harity : p.arity <;> rw [harity] at hfits <;> cases hfits <;> exact ⟨_, _, _, rfl⟩
  rw [layout_of_many op whole hmany, hmany, hsql]
  rfl

namespace Grammar

theorem headed?_operator {op : String} {p : OperatorPolicy}
    (hp : Table.get? op OperatorPolicy.builtin = some p) (args : List Value) :
    standard.headed? op args = some (p.layout op args (.call op args)) := by
  have hmem := Table.mem_of_get? hp
  have hlower : Text.lower op = op := lower_of_operator _ hmem
  have hform : standard.form? op = none := form?_of_operator hp
  have hoperator : standard.operator? op = some p := hp
  simp only [headed?, hlower, hform, hoperator, Option.map_some]

theorem headed?_not (v : Value) :
    standard.headed? "not" [v] = some (.wrap ("NOT " ++ Layout.inner v)) := by
  have hlower : Text.lower "not" = "not" := by decide +kernel
  rw [headed?, hlower]
  rfl

theorem headed?_range {op : String} (hop : op = "between" ∨ op = "not-between") (x y z : Value) :
    standard.headed? op [x, y, z] =
      some (.wrap (Layout.inner x ++ (" " ++ keyword op ++ " ") ++ Layout.inner y ++ " AND " ++
        Layout.inner z)) := by
  rcases hop with rfl | rfl
  · have hlower : Text.lower "between" = "between" := by decide +kernel
    rw [headed?, hlower]
    rfl
  · have hlower : Text.lower "not-between" = "not-between" := by decide +kernel
    rw [headed?, hlower]
    rfl

/-- A body that spells the frame is the head in parentheses where it is nested. -/
theorem spells_wrap {op : String} {args : List Value} {frame : Frame}
    (hop : Table.get? op frames = some frame)
    (hfits : frame.Fits (operandsOf op args))
    (h : SpellsOperands sub m (operandsOf op args)) {body : Layout}
    (hbody : Draft.Spells (body.draft σ sub m) (Lexeme.spellAll
      (frame.arrange .word ((operandsOf op args).map Value.operand)))) :
    Draft.Spells ((Layout.wrap body).draft σ sub m)
      ((Value.call op args).spelling m.nested) := by
  have hmap := hfits.map Value.operand
  have hvalid := Frame.valid_arrange hop hmap fun t ht => by
    obtain ⟨v, hv, rfl⟩ := List.mem_map.mp ht
    exact Value.operand_valid (h v hv).1
  rw [Value.spelling_of_fits hop hfits]
  exact hbody.wrap (Lexeme.spellAll_ne_nil (Frame.arrange_ne_nil _ hmap) hvalid) m.nested

theorem spells_range {op : String} (hop : op = "between" ∨ op = "not-between") {x y z : Value}
    (h : SpellsOperands sub m [x, y, z]) :
    ∃ l, standard.headed? op [x, y, z] = some l ∧
      Draft.Spells (l.draft σ sub m) ((Value.call op [x, y, z]).spelling m.nested) := by
  refine ⟨_, headed?_range hop x y z, ?_⟩
  -- The words of the frame are those of the keyword.
  obtain ⟨ws, hframe, hwords, hne, hform⟩ : ∃ ws, Table.get? op frames = some (.range ws) ∧
      Lexeme.spellAll (ws.map .word) = Spelling.ofText (keyword op) ∧ ws ≠ [] ∧
        Table.get? op OperatorPolicy.builtin = none := by
    rcases hop with rfl | rfl
    · have hkeyword : keyword "between" = "BETWEEN" := by decide +kernel
      exact ⟨_, rfl, by rw [hkeyword]; rfl, List.cons_ne_nil _ _, rfl⟩
    · have hkeyword : keyword "not-between" = "NOT BETWEEN" := by decide +kernel
      exact ⟨_, rfl, by rw [hkeyword]; rfl, List.cons_ne_nil _ _, rfl⟩
  have hargs : operandsOf op [x, y, z] = [x, y, z] := operandsOf_form hform _
  have hspell : Lexeme.spellAll (Frame.arrange .word (.range ws) ([x, y, z].map Value.operand)) =
      x.operand.spell ++ Spelling.ofText (" " ++ keyword op ++ " ") ++ y.operand.spell ++
        Spelling.ofText (" " ++ "AND" ++ " ") ++ z.operand.spell := by
    have hbetween : Lexeme.spellAll
        (x.operand :: ws.map .word ++ [y.operand, .word "AND", z.operand]) = _ :=
      Lexeme.spellAll_between x.operand (by simpa using hne) (List.cons_ne_nil _ _)
    rw [hwords] at hbetween
    refine hbetween.trans ?_
    simp only [Spelling.ofText_spaced]
    simp [Lexeme.spellAll, Lexeme.spell]
  have hx := (h x (by simp)).2
  have hy := (h y (by simp)).2
  have hz := (h z (by simp)).2
  refine spells_wrap hframe (by rw [hargs]; exact .range ws x y z) (by rwa [hargs]) ?_
  rw [hargs, hspell]
  exact (((hx.append (spells_spaced (keyword op))).append hy).append (.single " AND ")).append hz

theorem spells_not {x : Value} (h : SpellsOperands sub m [x]) :
    ∃ l, standard.headed? "not" [x] = some l ∧
      Draft.Spells (l.draft σ sub m) ((Value.call "not" [x]).spelling m.nested) := by
  refine ⟨_, headed?_not x, spells_wrap rfl (.before "NOT" x) h ?_⟩
  have hspell : Lexeme.spellAll (Frame.arrange .word (.before "NOT") ([x].map Value.operand)) =
      Spelling.ofText "NOT " ++ x.operand.spell := by
    have htext : "NOT " = "NOT" ++ " " := rfl
    rw [htext, Spelling.ofText_append, List.append_assoc]
    rfl
  have hbody := (Draft.Spells.single "NOT ").append (h x List.mem_cons_self).2
  rw [← hspell] at hbody
  exact hbody

/-- **One level of a formula**: a head spells its lexemes if its operands do. -/
theorem spells_head (σ : Shape) (sub : Drafters) (m : Marker) {op : String} {args : List Value}
    (htakes : takes op args = true)
    (h : ∀ v ∈ operandsOf op args, v.isFormula = true ∧
      ∀ nested, Draft.Spells (sub.expr m nested v) (v.spelling nested)) :
    ∃ l, standard.headed? op args = some l ∧
      Draft.Spells (l.draft σ sub m) ((Value.call op args).spelling m.nested) := by
  have hoperands : SpellsOperands sub m (operandsOf op args) :=
    fun v hv => ⟨(h v hv).1, (h v hv).2 true⟩
  unfold takes at htakes
  cases hp : Table.get? op OperatorPolicy.builtin with
  | some p =>
    rw [hp] at htakes
    have hkept := operandsOf_operator hp args
    refine ⟨_, headed?_operator hp args, ?_⟩
    rcases p.fits_of_takes htakes op with ⟨hunary, v, hv⟩ | hfits
    · have hone : takesOne op = true := by simpa [takesOne, hp] using hunary
      rw [OperatorPolicy.layout_of_single _ _ hv, if_pos hunary,
        Value.spelling_of_single hone (hkept.trans hv)]
      exact (h v (by simp [hkept, hv])).2 m.nested
    · rw [hkept] at hoperands
      obtain ⟨body, hbody, hspells⟩ := spells_operator σ p op hfits hoperands (.call op args)
      rw [p.layout_of_fits hfits (sql_of_operator _ (Table.mem_of_get? hp)), hbody]
      rw [← hkept] at hfits hspells hoperands
      exact spells_wrap (frames_of_operator hp) hfits hoperands hspells
  | none =>
    rw [operandsOf_form hp] at hoperands
    rw [hp] at htakes
    simp only [Bool.or_eq_true, Bool.and_eq_true, beq_iff_eq] at htakes
    rcases htakes with ⟨rfl, hlen⟩ | ⟨hop, hlen⟩
    · obtain ⟨x, rfl⟩ := List.length_eq_one_iff.mp hlen
      exact spells_not hoperands
    · obtain ⟨x, y, z, rfl⟩ := List.length_eq_three.mp hlen
      exact spells_range hop hoperands

/-- **The draft of a formula spells its lexemes**, at any marker and however deep it may go beyond
its weight. -/
theorem spells_formula (hquoted : σ.style.quoted = false) {v : Value} (h : v.isFormula = true) :
    ∀ depth, v.weight ≤ depth → ∀ m nested,
      Draft.Spells ((standard.drafters σ depth).expr m nested v) (v.spelling nested) := by
  refine Value.formula_induction ?name ?literal ?head v h
  case name =>
    intro s hs depth hdepth m nested
    obtain ⟨d, rfl⟩ : ∃ d, depth = d + 1 :=
      ⟨depth - 1, by simp only [Value.weight] at hdepth; omega⟩
    have hspelling : (Value.ident s).spelling nested = Spelling.ofText s := by cases nested <;> rfl
    have hdraft : (standard.drafters σ (d + 1)).expr m nested (.ident s) = [.text s] := by
      simp only [drafters, exprLayout, nameLayout_of_plain hs, Layout.draft,
        NameStyle.entity_of_plain hquoted hs]
    rw [hspelling, hdraft]
    exact .single s
  case literal =>
    intro v hv depth hdepth m nested
    obtain ⟨d, rfl⟩ : ∃ d, depth = d + 1 := by
      cases v <;> simp only [Value.isBound, Bool.false_eq_true, Value.weight] at hv hdepth <;>
        exact ⟨depth - 1, by omega⟩
    have hspelling : v.spelling nested = [.param v] := by
      rw [Value.spelling, Value.operand, Value.lexemes_literal hv]
      cases nested <;> rfl
    have hdraft : (standard.drafters σ (d + 1)).expr m nested v = [.value v] := by
      cases v <;> first | rfl | cases hv
    rw [hspelling, hdraft]
    exact .value v .nil
  case head =>
    intro op args htakes ih depth hdepth m nested
    obtain ⟨d, rfl⟩ : ∃ d, depth = d + 1 :=
      ⟨depth - 1, by simp only [Value.call, Value.weight] at hdepth; omega⟩
    obtain ⟨l, hl, hspells⟩ := spells_head σ (standard.drafters σ d)
      { m with aliasPosition := false, nested := nested } htakes fun v hv => by
        have hweight := Value.weight_operand_lt hv
        exact ⟨(ih v hv).1, (ih v hv).2 d (by omega) _⟩
    have hdraft : (standard.drafters σ (d + 1)).expr m nested (.call op args) =
        l.draft σ (standard.drafters σ d) { m with aliasPosition := false, nested := nested } := by
      simp only [drafters, Value.call, exprLayout, listLayout, Value.ident?, Option.bind_some, hl]
    rw [hdraft]
    exact hspells

/-- **A formula is written as its lexemes are spelled.** -/
theorem formatExpr_formula {v : Value} (h : v.isFormula = true) :
    standard.formatExpr v {} =
      .ok ⟨(Lexeme.spellAll v.lexemes).text, (Lexeme.spellAll v.lexemes).params⟩ := by
  have hadmissible : standard.admissibleExpr v {} = .ok Dialect.ansi := by
    cases v <;> first | exact resolveDialect_default | cases h
  let c := standard.context {} .ansi false
  have hquoted : c.shape.style.quoted = false := rfl
  have hspells := spells_formula hquoted h (v.weight + spareDepth) (Nat.le_add_right _ _) {} false
  obtain ⟨r, hr, hvalues, htext⟩ := hspells.settle (c := c) rfl
  rw [standard_plain.formatExpr_eq v {} fun d' _ => Draft.solid_of_not_inline rfl _, hadmissible]
  refine (formatDraft_eq standard {} .ansi (standard.draftExpr · v)).trans ?_
  rw [draftExpr, hr, Except.map, Settled.formatted]
  exact congrArg Except.ok (Formatted.mk.injEq .. ▸ ⟨htext, hvalues⟩)

/-- **Formulas are uniquely readable**: under the default options, two of them are written with the
same text and the same parameters exactly when their norms are equal. -/
theorem formatExpr_eq_iff_norm_eq {v w : Value} (hv : v.isFormula = true)
    (hw : w.isFormula = true) :
    ∃ f g, standard.formatExpr v {} = .ok f ∧ standard.formatExpr w {} = .ok g ∧
      (f = g ↔ v.norm = w.norm) := by
  refine ⟨_, _, formatExpr_formula hv, formatExpr_formula hw, ?_⟩
  obtain ⟨hvne, hvvalid⟩ := Value.valid_lexemes hv
  obtain ⟨hwne, hwvalid⟩ := Value.valid_lexemes hw
  constructor
  · intro hwritten
    obtain ⟨htext, hparams⟩ := Formatted.mk.inj hwritten
    have hspelling := Spelling.eq_of_text (Lexeme.clear_spellAll hvvalid)
      (Lexeme.clear_spellAll hwvalid) htext hparams
    have hlexemes := Lexeme.spellAll_injective hvne hwne hvvalid hwvalid hspelling
    have hnorm := Value.assemble_lexemes hv
    rw [hlexemes, Value.assemble_lexemes hw] at hnorm
    exact (Option.some.inj hnorm).symm
  · intro hnorm
    have hlexemes : v.lexemes = w.lexemes := by
      rw [← Value.lexemes_norm hv, ← Value.lexemes_norm hw, hnorm]
    rw [hlexemes]

/-- A chain of comparisons is not written like the conjunction that it stands for. -/
theorem formatExpr_chain_ne_conjunction :
    (Value.call "=" [.ident "a", .ident "b", .ident "c"]).isFormula = true ∧
    (Value.call "and" [.null, .call "=" [.ident "a", .ident "b"],
      .call "=" [.ident "b", .call "+" [.ident "c"]]]).isFormula = true ∧
    ∃ f g, standard.formatExpr (.call "=" [.ident "a", .ident "b", .ident "c"]) {} = .ok f ∧
      standard.formatExpr (.call "and" [.null, .call "=" [.ident "a", .ident "b"],
        .call "=" [.ident "b", .call "+" [.ident "c"]]]) {} = .ok g ∧ f ≠ g := by
  refine ⟨by decide, by decide, ?_⟩
  obtain ⟨f, g, hf, hg, hiff⟩ := formatExpr_eq_iff_norm_eq
    (v := .call "=" [.ident "a", .ident "b", .ident "c"])
    (w := .call "and" [.null, .call "=" [.ident "a", .ident "b"],
      .call "=" [.ident "b", .call "+" [.ident "c"]]]) (by decide) (by decide)
  refine ⟨f, g, hf, hg, fun heq => ?_⟩
  have hnorm : Value.call "=" [.ident "a", .ident "b", .ident "c"] =
      .call "and" [.call "=" [.ident "a", .ident "b"], .call "=" [.ident "b", .ident "c"]] :=
    hiff.mp heq
  simp [Value.call] at hnorm

end Grammar
end Clausal
