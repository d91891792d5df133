import Clausal.Proofs.JsonRoundTrip
import Clausal.Proofs.NestedStatement

/-! # Rows given as maps

Rows that are maps need not have the same keys, nor have them in the same order.  They are written
under all keys that occur, each once and in the order of their first occurrence
(`Clause.firstOccurrences_rowKeys`), and every row is brought into this order: under each
column stands what the row holds there, or `DEFAULT` or `NULL` where it holds nothing.

The cells settle one by one, as each entry does on its own, and the row and the list of rows are put
together from settled cells (`Layout.yields_commas`).  `Clause.rows_under_columns` reads this off
for the clause: what it writes, which parameters it binds, and when it can be written at all.
-/
namespace Clausal

/-! ### Lists of settled parts -/

/-- A list can be made up if each of its items can. -/
theorem mapM_eq_ok_iff {ε α β : Type} {g : α → Except ε β} {as : List α} {bs : List β} :
    as.mapM g = .ok bs ↔ List.Forall₂ (fun a b => g a = .ok b) as bs := by
  induction as generalizing bs with
  | nil =>
    rw [List.mapM_nil, List.forall₂_nil_left_iff]
    exact ⟨fun h => (Except.ok.inj h).symm, fun h => congrArg Except.ok h.symm⟩
  | cons a as ih =>
    rw [List.mapM_cons, List.forall₂_cons_left_iff]
    constructor
    · intro h
      obtain ⟨b, hb, h⟩ := bind_eq_ok.mp h
      obtain ⟨rest, hrest, h⟩ := bind_eq_ok.mp h
      cases h
      exact ⟨b, rest, hb, ih.mp hrest, rfl⟩
    · rintro ⟨b, rest, hb, hrest, rfl⟩
      exact bind_eq_ok.mpr ⟨b, hb, bind_eq_ok.mpr ⟨rest, ih.mpr hrest, rfl⟩⟩

theorem exists_map_eq_ok {ε α β : Type} {x : Except ε α} {f : α → β} :
    (∃ b, x.map f = .ok b) ↔ ∃ a, x = .ok a := by
  simp only [map_eq_ok]
  exact ⟨fun ⟨_, a, ha, _⟩ => ⟨a, ha⟩, fun ⟨a, ha⟩ => ⟨f a, a, ha, rfl⟩⟩

theorem exists_mapM_eq_ok_iff {ε α β : Type} {g : α → Except ε β} {as : List α} :
    (∃ bs, as.mapM g = .ok bs) ↔ ∀ a ∈ as, ∃ b, g a = .ok b := by
  simp only [mapM_eq_ok_iff]
  induction as with
  | nil => simp
  | cons a as ih =>
    rw [List.forall_mem_cons, ← ih]
    constructor
    · rintro ⟨bs, hbs⟩
      obtain ⟨b, rest, hb, hrest, -⟩ := List.forall₂_cons_left_iff.mp hbs
      exact ⟨⟨b, hb⟩, rest, hrest⟩
    · rintro ⟨⟨b, hb⟩, rest, hrest⟩
      exact ⟨b :: rest, .cons hb hrest⟩

/-- A run succeeds in every session or in none. -/
theorem Run.Yields.succeeds_iff {x : Run Sql} {m : Marker} {p : Except Fault Settled}
    (h : x.Yields m p) (bound : List Slot) :
    (∃ sql after, x ⟨bound, m⟩ = (.ok sql, after)) ↔ ∃ r, p = .ok r := by
  cases p with
  | error e =>
    obtain ⟨bound', hrun⟩ := h bound
    refine ⟨fun ⟨_, _, hok⟩ => ?_, nofun⟩
    cases hrun.symm.trans hok
  | ok r => exact ⟨fun _ => ⟨r, rfl⟩, fun _ => ⟨_, _, h bound⟩⟩

namespace Settled

/-- Parts divided by commas. -/
def commas : List Settled → Settled
  | [] => [.text ""]
  | [r] => r
  | r :: rs => r ++ .text ", " :: commas rs

theorem commas_cons (r : Settled) {rs : List Settled} (h : rs ≠ []) :
    commas (r :: rs) = r ++ [.text ", "] ++ commas rs := by
  cases rs with
  | nil => exact absurd rfl h
  | cons r' rs =>
    rw [List.append_assoc]
    rfl

theorem slots_commas (rs : List Settled) : (commas rs).slots = rs.flatMap slots := by
  fun_induction commas rs with
  | case1 => rfl
  | case2 r => simp
  | case3 r rs _ ih => rw [slots_append, slots_text_cons, ih, List.flatMap_cons]

/-- Names in parentheses and rows of cells under them. -/
def rowsUnder (names : List String) (lines : List (List Settled)) : Settled :=
  parens (commas (names.map fun name => [.text name])) ++ [.text " "] ++
    ([.text "VALUES "] ++ commas (lines.map fun line => parens (commas line)))

theorem slots_rowsUnder (names : List String) (lines : List (List Settled)) :
    (rowsUnder names lines).slots = lines.flatten.flatMap slots := by
  have hnames : (names.map fun name => ([.text name] : Settled)).flatMap slots = [] := by
    simp [List.flatMap_map, slots]
  have hlines : (lines.map fun line => parens (commas line)).flatMap slots =
      lines.flatten.flatMap slots := by
    induction lines with
    | nil => rfl
    | cons line lines ih =>
      rw [List.map_cons, List.flatMap_cons, slots_parens, slots_commas, ih, List.flatten_cons,
        List.flatMap_append]
  rw [rowsUnder, slots_append, slots_append, slots_append, slots_parens, slots_commas, hnames,
    slots_commas, hlines]
  rfl

end Settled

open Run in
/-- Parts divided by commas settle one after the other. -/
theorem Layout.yields_commas {α β : Type} {c : Context} {sub : Evaluators} {m : Marker}
    {f : α → Layout} {g : α → Except Fault β} {F : β → Settled} {as : List α}
    (h : ∀ a ∈ as, ((f a).eval c sub).Yields m ((g a).map F)) :
    ((commas (as.map f)).eval c sub).Yields m
      ((as.mapM g).map fun bs => Settled.commas (bs.map F)) := by
  induction as with
  | nil => exact yields_text m ""
  | cons a as ih =>
    have hfirst := h a List.mem_cons_self
    have hrest := ih fun b hb => h b (List.mem_cons_of_mem a hb)
    rw [List.mapM_cons]
    cases as with
    | nil =>
      cases hg : g a with
      | error e =>
        rw [hg] at hfirst
        exact hfirst
      | ok b =>
        rw [hg] at hfirst
        exact hfirst
    | cons a' as =>
      have hcomma := hfirst.both (yields_text m ", ") Settled.slots_append Settled.sql_append
      have hall := hcomma.both hrest Settled.slots_append Settled.sql_append
      cases hg : g a with
      | error e =>
        rw [hg] at hall
        exact hall
      | ok b =>
        cases hgs : (a' :: as).mapM g with
        | error e =>
          rw [hg, hgs] at hall
          exact hall
        | ok bs =>
          have hne : bs.map F ≠ [] := by
            rintro hnil
            obtain rfl := List.map_eq_nil_iff.mp hnil
            cases mapM_eq_ok_iff.mp hgs
          rw [hg, hgs] at hall
          show Run.Yields _ m (.ok (Settled.commas (F b :: bs.map F)))
          rw [Settled.commas_cons (F b) hne]
          exact hall

/-! ### The keys of the rows -/

/-- All names of a list, each once, in the order in which they first occur. -/
structure FirstOccurrences (all names : List String) : Prop where
  nodup : names.Nodup
  mem_iff : ∀ k, k ∈ names ↔ k ∈ all
  ordered : names.Pairwise fun k l => all.idxOf k < all.idxOf l

namespace FirstOccurrences
variable {all names : List String}

theorem nil : FirstOccurrences [] [] where
  nodup := List.nodup_nil
  mem_iff _ := Iff.rfl
  ordered := List.Pairwise.nil

/-- One more name at the end does not change where the others first occur. -/
theorem ordered_append (h : FirstOccurrences all names) (more : List String) :
    names.Pairwise fun k l => (all ++ more).idxOf k < (all ++ more).idxOf l := by
  refine h.ordered.imp_of_mem fun {k l} hk hl hlt => ?_
  rw [List.idxOf_append_of_mem ((h.mem_iff k).mp hk),
    List.idxOf_append_of_mem ((h.mem_iff l).mp hl)]
  exact hlt

/-- A name that comes next is added, unless it has occurred. -/
theorem next (h : FirstOccurrences all names) (k : String) :
    FirstOccurrences (all ++ [k]) (if k ∈ names then names else names ++ [k]) := by
  by_cases hk : k ∈ names
  · rw [if_pos hk]
    refine ⟨h.nodup, fun l => ?_, h.ordered_append [k]⟩
    rw [List.mem_append, List.mem_singleton, ← h.mem_iff]
    exact ⟨.inl, fun hl => hl.elim id (· ▸ hk)⟩
  · rw [if_neg hk]
    refine ⟨?_, fun l => ?_, ?_⟩
    · exact h.nodup.append (List.nodup_singleton k) (List.disjoint_singleton.mpr hk)
    · rw [List.mem_append, List.mem_append, h.mem_iff]
    · refine List.pairwise_append.mpr ⟨h.ordered_append [k], List.pairwise_singleton _ _, ?_⟩
      intro l hl k' hk'
      obtain rfl := List.mem_singleton.mp hk'
      have hl' := (h.mem_iff l).mp hl
      rw [List.idxOf_append_of_mem hl', List.idxOf_append_of_notMem ((h.mem_iff k').not.mp hk)]
      exact Nat.lt_add_right _ (List.idxOf_lt_length_of_mem hl')

/-- Names taken one by one are the first occurrences of all that were taken. -/
theorem foldl (h : FirstOccurrences all names) (more : List String) :
    FirstOccurrences (all ++ more)
      (more.foldl (fun seen k => if k ∈ seen then seen else seen ++ [k]) names) := by
  induction more generalizing all names with
  | nil => rwa [List.append_nil]
  | cons k more ih =>
    rw [List.foldl_cons, ← List.singleton_append, ← List.append_assoc]
    exact ih (h.next k)

end FirstOccurrences

namespace Clause

theorem firstOccurrences_rowKeys (rows : List Statement) :
    FirstOccurrences (rows.flatMap Statement.tags) (rowKeys rows) :=
  FirstOccurrences.nil.foldl (rows.flatMap Statement.tags)

/-! ### The rows -/

theorem rowMaps?_map (rows : List Statement) : rowMaps? (rows.map .map) = some rows := by
  induction rows with
  | nil => rfl
  | cons row rows ih => rw [List.map_cons, rowMaps?, ih, Option.map_some]

/-- Without a `columns` clause, maps are laid out under the keys that occur. -/
theorem rows_of_maps {rows : List Statement} {s : Statement} (hrows : rows ≠ [])
    (hcolumns : s.get? "columns" = none) (tag : String) :
    Clause.rows tag (.seq (rows.map .map)) s =
      Layout.parens (Layout.commas ((rowKeys rows).map .entity)) ++ " " ++
        ("VALUES " ++ Layout.commas (rows.map (mapRow (rowKeys rows)))) := by
  obtain ⟨row, others, rfl⟩ := List.exists_cons_of_ne_nil hrows
  have hmaps := rowMaps?_map (row :: others)
  rw [List.map_cons] at hmaps
  simp only [Clause.rows, List.map_cons, Value.rows?, hmaps, mapRows, hcolumns]
  rfl

section Cells
variable {c : Context} {sub : Evaluators} {m : Marker} {outcome : Value → Except Fault Settled}

/-- What becomes of a cell, if what becomes of its value is known. -/
def cellOutcome (c : Context) (outcome : Value → Except Fault Settled) (row : Statement)
    (column : String) : Except Fault Settled :=
  match row.get? column with
  | some v => outcome v
  | none => .ok [.text (if c.defaultColumns.contains column then "DEFAULT" else "NULL")]

theorem yields_mapRow (cols : List String) {row : Statement}
    (h : ∀ k v, row.get? k = some v → (sub.expr false v).Yields m (outcome v)) :
    ((mapRow cols row).eval c sub).Yields m
      ((cols.mapM (cellOutcome c outcome row)).map fun line => (Settled.commas line).parens) := by
  have hout : (cols.mapM (cellOutcome c outcome row)).map
      (fun line => (Settled.commas line).parens) =
      ((cols.mapM (cellOutcome c outcome row)).map fun line =>
        Settled.commas (line.map id)).map Settled.parens := by
    cases cols.mapM (cellOutcome c outcome row) <;> simp [Except.map]
  rw [mapRow, hout]
  refine Layout.yields_parens (Layout.yields_commas fun k _ => ?_)
  rw [Except.map_id, id, cellOutcome]
  cases hk : row.get? k with
  | none => exact Run.yields_text m _
  | some v => exact h k v hk

theorem yields_names (c : Context) (sub : Evaluators) (m : Marker) (names : List String) :
    ((Layout.commas (names.map .entity)).eval c sub).Yields m
      (.ok (Settled.commas ((names.map c.style.entity).map fun name => [.text name]))) := by
  have hyields : ((Layout.commas (names.map .entity)).eval c sub).Yields m
      ((names.mapM fun k => (Except.ok (c.style.entity k) : Except Fault String)).map fun texts =>
        Settled.commas (texts.map fun name => [.text name])) :=
    Layout.yields_commas fun k _ => Run.yields_text m (c.style.entity k)
  have hok : names.mapM (fun k => (Except.ok (c.style.entity k) : Except Fault String)) =
      .ok (names.map c.style.entity) :=
    mapM_eq_ok_iff.mpr (List.forall₂_map_right_iff.mpr (List.forall₂_same.mpr fun _ _ => rfl))
  rwa [hok] at hyields

open Run in
/-- The rows settle cell by cell, and the names of the columns stand before them. -/
theorem yields_rows {rows : List Statement} {s : Statement} (hrows : rows ≠ [])
    (hcolumns : s.get? "columns" = none) (tag : String)
    (h : ∀ row ∈ rows, ∀ k v, row.get? k = some v → (sub.expr false v).Yields m (outcome v)) :
    ((Clause.rows tag (.seq (rows.map .map)) s).eval c sub).Yields m
      ((rows.mapM fun row => (rowKeys rows).mapM (cellOutcome c outcome row)).map
        (Settled.rowsUnder ((rowKeys rows).map c.style.entity))) := by
  have hnames := Layout.yields_parens (yields_names c sub m (rowKeys rows))
  have hlines := Layout.yields_commas fun row hrow =>
    yields_mapRow (c := c) (rowKeys rows) (h row hrow)
  have hhead := hnames.both (yields_text m " ") Settled.slots_append Settled.sql_append
  have hbody := (yields_text m "VALUES ").both hlines Settled.slots_append Settled.sql_append
  have hall := hhead.both hbody Settled.slots_append Settled.sql_append
  rw [rows_of_maps hrows hcolumns]
  cases hcells : rows.mapM fun row => (rowKeys rows).mapM (cellOutcome c outcome row) with
  | error e =>
    rw [hcells] at hall
    exact hall
  | ok lines =>
    rw [hcells] at hall
    exact hall

end Cells

/-- Entries settle as on their own, wherever they stand and at every depth that covers them. -/
theorem exists_outcome (c : Context) :
    ∃ outcome : Value → Except Fault Settled, ∀ v m, m.aliasPosition = false →
      ∀ depth, v.weight ≤ depth →
        ((Grammar.standard.evaluators c depth).expr false v).Yields m (outcome v) := by
  have hsettles : ∀ v, ∃ p, ∀ m, m.aliasPosition = false →
      (Grammar.standard.evalExpr c v).Yields m p := fun v =>
    (Grammar.standard_plain.local Grammar.standard_bounded c _).expr false v false
  choose outcome houtcome using hsettles
  refine ⟨outcome, fun v m hm depth hdepth => ?_⟩
  rw [Grammar.standard_bounded.expr_eq c false hdepth (Nat.le_add_right _ Grammar.spareDepth)]
  exact houtcome v m hm

theorem weight_le_of_row {rows : List Statement} {row : Statement} (hrow : row ∈ rows)
    {k : String} {v : Value} (hk : row.get? k = some v) :
    v.weight ≤ (Value.seq (rows.map .map)).weight := by
  have hmap := Value.weight_le_of_mem_seq (List.mem_map_of_mem (f := Value.map) hrow)
  exact Nat.le_trans (Value.weight_le_of_get? hk) (Nat.le_of_lt (Value.weightEntries_lt hmap))

/-- The cell of a row under a column is what the row holds there, written as on its own; where it
holds nothing, the cell is `DEFAULT` or `NULL`. -/
structure CellOf (c : Context) (row : Statement) (column : String) (cell : Settled) : Prop where
  held : ∀ v, Table.get? column row = some v →
    Grammar.standard.evalExpr c v {} = (.ok (cell.sql 0), { slots := cell.slots })
  missing : column ∉ row.tags →
    cell = [.text (if c.defaultColumns.contains column then "DEFAULT" else "NULL")]

section Entries
variable {c : Context} {outcome : Value → Except Fault Settled} {row : Statement} {k : String}

theorem exists_cellOutcome_iff (hk : ¬ Text.HasColon k) :
    (∃ cell, cellOutcome c outcome row k = .ok cell) ↔
      ∀ v, Table.get? k row = some v → ∃ r, outcome v = .ok r := by
  rw [cellOutcome, Statement.get?, Statement.tagOf_of_not_hasColon hk]
  cases Table.get? k row with
  | none => simp
  | some v => simp

/-- All cells can be written if all entries can. -/
theorem exists_lines_iff {rows : List Statement} {cols : List String}
    (hcols : ∀ k ∈ cols, ¬ Text.HasColon k) :
    (∃ lines, (rows.mapM fun row => cols.mapM (cellOutcome c outcome row)) = .ok lines) ↔
      ∀ row ∈ rows, ∀ k ∈ cols, ∀ v, Table.get? k row = some v → ∃ r, outcome v = .ok r := by
  rw [exists_mapM_eq_ok_iff]
  refine forall₂_congr fun row _ => ?_
  rw [exists_mapM_eq_ok_iff]
  exact forall₂_congr fun k hk => exists_cellOutcome_iff (hcols k hk)

theorem cellOf_of_outcome (hk : ¬ Text.HasColon k)
    (h : ∀ v, (Grammar.standard.evalExpr c v).Yields {} (outcome v)) {cell : Settled}
    (hcell : cellOutcome c outcome row k = .ok cell) : CellOf c row k cell := by
  rw [cellOutcome, Statement.get?, Statement.tagOf_of_not_hasColon hk] at hcell
  constructor
  · intro v hv
    rw [hv] at hcell
    have hyields := h v
    rw [show outcome v = .ok cell from hcell] at hyields
    exact hyields []
  · intro hmissing
    have hnone : Table.get? k row = none := by
      rw [Statement.tags, Table.mem_keys_iff_has] at hmissing
      simpa [Table.has] using hmissing
    rw [hnone] at hcell
    exact (Except.ok.inj hcell).symm

end Entries

open Grammar in
/-- **Rows given as maps lose and misplace nothing.**  Without a `columns` clause, and if no key
starts with a colon, the clause can be written exactly when every entry of every row can be written
on its own.  Then it lists the keys that occur, each once and in the order of their first
occurrence; every row has one cell for each of them, which is the row's entry there, or `DEFAULT` or
`NULL`; and the parameters of the cells are bound row by row and column by column. -/
theorem rows_under_columns (c : Context) {rows : List Statement} {s : Statement} {l : Layout}
    (hrows : rows ≠ []) (hkeys : ∀ row ∈ rows, ∀ k ∈ row.tags, ¬ Text.HasColon k)
    (hcolumns : s.get? "columns" = none)
    (hl : standard.clauseLayout? s "values" (.seq (rows.map .map)) = some l)
    (extra : Nat) (before : Session) :
    let run := l.eval c (standard.evaluators c ((Value.seq (rows.map .map)).weight + extra)) before
    ((∃ sql after, run = (.ok sql, after)) ↔
      ∀ row ∈ rows, ∀ k v, Table.get? k row = some v →
        ∃ sql after, standard.evalExpr c v {} = (.ok sql, after)) ∧
    ∀ sql after, run = (.ok sql, after) →
      ∃ cols lines, FirstOccurrences (rows.flatMap Statement.tags) cols ∧
        List.Forall₂ (fun row line => List.Forall₂ (CellOf c row) cols line) rows lines ∧
        sql = (Settled.rowsUnder (cols.map c.style.entity) lines).sql before.slots.length ∧
        after = { before with slots := before.slots ++ lines.flatten.flatMap Settled.slots } := by
  obtain ⟨outcome, houtcome⟩ := exists_outcome c
  have hentry : ∀ v, (standard.evalExpr c v).Yields {} (outcome v) := fun v =>
    houtcome v {} rfl _ (Nat.le_add_right _ _)
  have hcols := firstOccurrences_rowKeys rows
  have hcolon : ∀ k ∈ rowKeys rows, ¬ Text.HasColon k := by
    intro k hk
    obtain ⟨row, hrow, htag⟩ := List.mem_flatMap.mp ((hcols.mem_iff k).mp hk)
    exact hkeys row hrow k htag
  obtain rfl : .within "values" (Clause.rows "values" (.seq (rows.map .map)) s) = l :=
    Option.some.inj hl
  have hyields : Run.Yields (Layout.eval c
      (standard.evaluators c ((Value.seq (rows.map .map)).weight + extra))
      (.within "values" (Clause.rows "values" (.seq (rows.map .map)) s))) before.marker _ :=
    Run.yields_under (yields_rows hrows hcolumns "values" fun row hrow k v hk => houtcome v _ rfl _
      (Nat.le_trans (weight_le_of_row hrow hk) (Nat.le_add_right _ extra)))
  refine ⟨(hyields.succeeds_iff before.slots).trans ?_, ?_⟩
  · rw [exists_map_eq_ok, exists_lines_iff hcolon]
    refine forall₂_congr fun row hrow => ⟨fun h k v hv => ?_, fun h k _ v hv => ?_⟩
    · have htag : k ∈ row.tags := List.mem_map_of_mem (Table.mem_of_get? hv)
      have hk : k ∈ rowKeys rows :=
        (hcols.mem_iff k).mpr (List.mem_flatMap.mpr ⟨row, hrow, htag⟩)
      exact ((hentry v).succeeds_iff []).mpr (h k hk v hv)
    · exact ((hentry v).succeeds_iff []).mp (h k v hv)
  · intro sql after hrun
    cases hlines : rows.mapM fun row => (rowKeys rows).mapM (cellOutcome c outcome row) with
    | error e =>
      rw [hlines] at hyields
      obtain ⟨_, hfault⟩ := hyields before.slots
      cases hfault.symm.trans hrun
    | ok lines =>
      rw [hlines] at hyields
      have hdone := (hyields before.slots).symm.trans hrun
      rw [Settled.slots_rowsUnder] at hdone
      cases hdone
      refine ⟨rowKeys rows, lines, hcols, ?_, rfl, rfl⟩
      refine (mapM_eq_ok_iff.mp hlines).imp fun row line hline => ?_
      have hcells := (List.forall₂_and_left _ _).mpr ⟨hcolon, mapM_eq_ok_iff.mp hline⟩
      exact hcells.imp fun k cell hcell => cellOf_of_outcome hcell.1 hentry hcell.2

open Grammar in
/-- Two rows that share one key, in a session that has bound a parameter before. -/
theorem rows_under_columns_ragged :
    let c : Context := { style := ⟨Dialect.ansi, false, false⟩, defaultColumns := ["c"] }
    let rows : List Statement :=
      [[("b", .int 1), ("a", .int 2)], [("c", .int 3), ("a", .int 4)]]
    let l := Layout.within "values" (Clause.rows "values" (.seq (rows.map .map)) [])
    let run := l.eval c (standard.evaluators c ((Value.seq (rows.map .map)).weight + 0))
      { slots := [.literal .null] }
    ∃ sql after, run = (.ok sql, after) ∧
      sql.render .numbered = "(b, a, c) VALUES ($2, $3, DEFAULT), (NULL, $4, $5)" ∧
      ∃ cols lines, FirstOccurrences ["b", "a", "c", "a"] cols ∧
        List.Forall₂ (fun row line => List.Forall₂ (CellOf c row) cols line) rows lines ∧
        sql = (Settled.rowsUnder (cols.map c.style.entity) lines).sql 1 ∧
        after = { slots := [.literal .null] ++ lines.flatten.flatMap Settled.slots } := by
  intro c rows l run
  obtain ⟨-, hall⟩ := @rows_under_columns c rows [] l (by decide) (by decide) rfl rfl 0
    { slots := [.literal .null] }
  obtain ⟨sql, after, hrun, htext⟩ : ∃ sql after, run = (.ok sql, after) ∧
      sql.render .numbered = "(b, a, c) VALUES ($2, $3, DEFAULT), (NULL, $4, $5)" :=
    ⟨_, _, rfl, by decide +kernel⟩
  exact ⟨sql, after, hrun, htext, hall sql after hrun⟩

end Clause
end Clausal
