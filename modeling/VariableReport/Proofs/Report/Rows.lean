import VariableReport.Proofs.Formula.Kept
import VariableReport.Proofs.Formula.Normal
import VariableReport.Proofs.Outcome
import VariableReport.Proofs.Text.Lines
import VariableReport.Report.Table
import VariableReport.Standard

/-!
# Rows of a table

A table has a row for each label, in their order, and each row has four cells between five bars,
exactly when its labels and its items print as texts without bars and line feeds
(`table_isTable_iff`). Formatting keeps these two characters. A line feed in a cell is one more row
for the table than it has labels, and a bar is one more cell for a row.
-/

namespace VariableReport.Report
open Text Outcome

variable {s : Settings} {r : Record} {t line : Text} {lines : List Text} {cells : List Text}
  {c : Columns} {items : List Value} {label : Option Text} {places : List (Option Text × Nat)}
  {i n : Nat}

/-- A text that ends neither a cell nor a row. -/
def FitsCell (t : Text) : Prop := '|' ∉ t ∧ '\n' ∉ t

instance (t : Text) : Decidable (FitsCell t) := inferInstanceAs (Decidable (_ ∧ _))

/-- The value prints as a text that fits. -/
def Printable (v : Value) : Prop := ∃ t ∈ v.text?, FitsCell t

instance (v : Value) : Decidable (Printable v) :=
  inferInstanceAs (Decidable (∃ t ∈ v.text?, FitsCell t))

/-- The labels of the rows. -/
def labels (r : Record) : List (Option Text) := r.tableItems.getD []

def titleRow : Text := "| Item | Expression | Replaced | Value |\n".toList

def ruleRow : Text := "|---|---|---|---|\n".toList

theorem titleRow_append_ruleRow : titleRow ++ ruleRow = tableHead := by decide

/-- The rows above the first label. -/
def headRows (s : Settings) (r : Record) : List Text :=
  ['*' :: (Formula.format s.symbols r.name ++ "*\n".toList), ['\n'], titleRow, ruleRow]

/-- The cell of a label between its bars. -/
def labelCell (s : Settings) (label : Option Text) : Text :=
  "| ".toList ++ Formula.format s.symbols (label.getD []) ++ " |".toList

/-- The row starts with the cell of the label and holds four cells. -/
structure ShowsLabel (s : Settings) (label : Option Text) (line : Text) : Prop where
  label : labelCell s label <+: line
  cells : line.count '|' = 5

/-- Between its head and an empty row the table has a row for each label. -/
def IsTable (s : Settings) (r : Record) (t : Text) : Prop :=
  ∃ lines, rows t = headRows s r ++ lines ++ [['\n']] ∧
    List.Forall₂ (ShowsLabel s) (labels r) lines

/-! ### The rows that a table is put together from -/

def tableText (s : Settings) (r : Record) (lines : List Text) : Text :=
  (headRows s r ++ lines ++ [['\n']]).flatten

/-- The lists of a record. -/
def columnsOf [Host] (r : Record) : Except Failure Columns := do
  let values ← Listing.read r.value .column
  let expressions ← Listing.readOptional r.expression .column
  let replaced ← Listing.readOptional r.replaced .column
  .ok { expressions, replaced, values }

/-- The lines are the rows of the labels. -/
def AreLines (s : Settings) (c : Columns) : List (Option Text × Nat) → List Text → Prop :=
  List.Forall₂ fun place line => c.row s place.2 place.1 = .ok line

theorem rowsFrom_eq_ok_iff {xs : List (Option Text)} :
    c.rowsFrom s n xs = .ok lines ↔ AreLines s c (xs.zipIdx n) lines := by
  unfold AreLines
  induction xs generalizing n lines with
  | nil =>
    rw [Columns.rowsFrom, List.zipIdx_nil, List.forall₂_nil_left_iff]
    exact ⟨fun h => (Except.ok.inj h).symm, fun h => h ▸ rfl⟩
  | cons label xs ih =>
    rw [Columns.rowsFrom, List.zipIdx_cons, List.forall₂_cons_left_iff, bind_eq_ok]
    refine exists_congr fun first => ?_
    rw [exists_and_left, bind_eq_ok]
    refine and_congr_right fun _ => ?_
    simp only [ih, Except.ok.injEq, eq_comm]

theorem tableText_eq (s : Settings) (r : Record) (lines : List Text) : tableText s r lines =
    '*' :: (Formula.format s.symbols r.name ++ "*\n\n".toList ++ tableHead ++
      lines.flatten ++ ['\n']) := by
  have hname : "*\n\n".toList = "*\n".toList ++ ['\n'] := by decide
  rw [tableText, headRows, hname, ← titleRow_append_ruleRow]
  simp only [List.flatten_append, List.flatten_cons, List.flatten_nil, List.append_assoc,
    List.cons_append, List.nil_append]

theorem table_eq_ok_iff [Host] : table s r = .ok t ↔ ∃ c, columnsOf r = .ok c ∧
    ∃ lines, AreLines s c (labels r).zipIdx lines ∧ t = tableText s r lines := by
  unfold table columnsOf
  simp only [bind_eq_ok, rowsFrom_eq_ok_iff, Except.ok.injEq, tableText_eq]
  constructor
  · rintro ⟨values, hvalues, expressions, hexpressions, replaced, hreplaced, lines, hlines, rfl⟩
    exact ⟨_, ⟨values, hvalues, expressions, hexpressions, replaced, hreplaced, rfl⟩, lines, hlines,
      rfl⟩
  · rintro ⟨_, ⟨values, hvalues, expressions, hexpressions, replaced, hreplaced, rfl⟩, lines,
      hlines, rfl⟩
    exact ⟨values, hvalues, expressions, hexpressions, replaced, hreplaced, lines, hlines, rfl⟩

/-! ### One row -/

/-- The row ends with its only line feed and holds four cells. -/
structure OneRow (line : Text) : Prop where
  single : ∃ u, '\n' ∉ u ∧ line = u ++ ['\n']
  cells : line.count '|' = 5

theorem rowText_eq (cells : List Text) :
    rowText cells = "| ".toList ++ join " | ".toList cells ++ " |".toList ++ ['\n'] := by
  have hend : " |\n".toList = " |".toList ++ ['\n'] := by decide
  rw [rowText, hend, List.append_assoc _ _ ['\n']]

theorem count_rowText (hcells : cells.length = 4) :
    (rowText cells).count '|' = 5 + cells.flatten.count '|' := by
  have hne : cells ≠ [] := by
    rintro rfl
    cases hcells
  have hjoin := count_join " | ".toList '|' hne
  have h1 : "| ".toList.count '|' = 1 := by decide
  have h2 : " | ".toList.count '|' = 1 := by decide
  have h3 : " |\n".toList.count '|' = 1 := by decide
  rw [h2, hcells] at hjoin
  rw [rowText, List.count_append, List.count_append, h1, h3]
  omega

/-- A row of four cells is one row exactly when its cells hold neither bars nor line feeds. -/
theorem oneRow_rowText_iff (hcells : cells.length = 4) :
    OneRow (rowText cells) ↔ ∀ t ∈ cells, FitsCell t := by
  have hbars : cells.flatten.count '|' = 0 ↔ ∀ t ∈ cells, '|' ∉ t := by
    simp only [List.count_eq_zero, List.mem_flatten, not_exists, not_and]
  constructor
  · rintro ⟨⟨u, hu, hrow⟩, hcount⟩
    rw [count_rowText hcells, Nat.add_eq_left, hbars] at hcount
    rw [rowText_eq] at hrow
    rw [← List.append_cancel_right hrow] at hu
    refine fun t ht => ⟨hcount t ht, fun hfeed => hu ?_⟩
    simp [mem_join ht hfeed]
  · intro h
    refine ⟨⟨_, fun hfeed => ?_, rowText_eq cells⟩, ?_⟩
    · rw [List.mem_append, List.mem_append] at hfeed
      rcases hfeed with (hfeed | hfeed) | hfeed
      · exact absurd hfeed (by decide)
      · rcases mem_of_mem_join hfeed with hfeed | ⟨t, ht, hfeed⟩
        · exact absurd hfeed (by decide)
        · exact (h t ht).2 hfeed
      · exact absurd hfeed (by decide)
    · rw [count_rowText hcells, hbars.2 fun t ht => (h t ht).1]

theorem fitsCell_format_iff {symbols : List Text} (hne : [] ∉ symbols) :
    FitsCell (Formula.format symbols t) ↔ FitsCell t :=
  and_congr (not_congr (Formula.bar_mem_format_iff hne))
    (not_congr (Formula.lineFeed_mem_format_iff hne))

/-- A cell that fits can be written of an item that is absent or printable. -/
theorem exists_cellText_iff (hne : [] ∉ s.symbols) :
    (∃ t, cellText s items i = .ok t ∧ FitsCell t) ↔ ∀ v ∈ items[i]?, Printable v := by
  have hempty : FitsCell [] := by decide
  have hnone : Printable .none := ⟨"None".toList, rfl, by decide⟩
  unfold cellText
  split
  next h => exact iff_of_true ⟨[], rfl, hempty⟩ (by simp [h])
  next h => exact iff_of_true ⟨[], rfl, hempty⟩ (by simp [h, hnone])
  next v _ h =>
    simp only [h, Option.mem_some_iff, forall_eq', Printable]
    cases v.text? with
    | none => simp
    | some t => simp [fitsCell_format_iff hne]

theorem row_eq_ok_iff : c.row s i label = .ok line ↔ ∃ expression replaced value,
    cellText s c.expressions i = .ok expression ∧ cellText s c.replaced i = .ok replaced ∧
    cellText s c.values i = .ok value ∧
    line = rowText [Formula.format s.symbols (label.getD []), expression, replaced, value] := by
  unfold Columns.row
  simp only [bind_eq_ok, Except.ok.injEq]
  constructor
  · rintro ⟨expression, he, replaced, hr, value, hv, rfl⟩
    exact ⟨expression, replaced, value, he, hr, hv, rfl⟩
  · rintro ⟨expression, replaced, value, he, hr, hv, rfl⟩
    exact ⟨expression, he, replaced, hr, value, hv, rfl⟩

/-- A label has its row when it fits and the items for the row are absent or printable. -/
theorem exists_row_iff (hne : [] ∉ s.symbols) :
    (∃ line, c.row s i label = .ok line ∧ OneRow line) ↔
      FitsCell (label.getD []) ∧ ∀ items ∈ [c.expressions, c.replaced, c.values],
        ∀ v ∈ items[i]?, Printable v := by
  have hcells : (∀ items ∈ [c.expressions, c.replaced, c.values], ∀ v ∈ items[i]?, Printable v) ↔
      ∀ items ∈ [c.expressions, c.replaced, c.values],
        ∃ t, cellText s items i = .ok t ∧ FitsCell t :=
    forall₂_congr fun items _ => (exists_cellText_iff hne).symm
  rw [hcells, ← fitsCell_format_iff (t := label.getD []) hne]
  simp only [List.forall_mem_cons]
  constructor
  · rintro ⟨line, hrow, hone⟩
    obtain ⟨expression, replaced, value, he, hr, hv, rfl⟩ := row_eq_ok_iff.1 hrow
    have hfits := (oneRow_rowText_iff rfl).1 hone
    simp only [List.forall_mem_cons] at hfits
    obtain ⟨hlabel, hfe, hfr, hfv, -⟩ := hfits
    exact ⟨hlabel, ⟨expression, he, hfe⟩, ⟨replaced, hr, hfr⟩, ⟨value, hv, hfv⟩, by simp⟩
  · rintro ⟨hlabel, ⟨expression, he, hfe⟩, ⟨replaced, hr, hfr⟩, ⟨value, hv, hfv⟩, -⟩
    refine ⟨_, row_eq_ok_iff.2 ⟨expression, replaced, value, he, hr, hv, rfl⟩,
      (oneRow_rowText_iff rfl).2 ?_⟩
    simp only [List.forall_mem_cons]
    exact ⟨hlabel, hfe, hfr, hfv, by simp⟩

/-! ### All rows -/

theorem AreLines.ends (h : AreLines s c places lines) : ∀ line ∈ lines, ∃ u, line = u ++ ['\n'] := by
  intro line hline
  obtain ⟨place, -, hrow⟩ := exists_of_mem_forall₂ h.flip hline
  obtain ⟨expression, replaced, value, -, -, -, rfl⟩ := row_eq_ok_iff.1 hrow
  exact ⟨_, rowText_eq _⟩

/-- Each row starts with the cell of its label. -/
theorem AreLines.starts (h : AreLines s c places lines) :
    List.Forall₂ (fun place line => labelCell s place.1 <+: line) places lines := by
  refine h.imp fun place line hrow => ?_
  obtain ⟨expression, replaced, value, -, -, -, rfl⟩ := row_eq_ok_iff.1 hrow
  have hbar : " | ".toList = " |".toList ++ " ".toList := by decide
  rw [labelCell, rowText, join_cons_cons, hbar]
  simp only [List.append_assoc]
  exact (List.prefix_append_right_inj _).2
    ((List.prefix_append_right_inj _).2 (List.prefix_append _ _))

theorem exists_of_mem_headRows {row : Text} (h : row ∈ headRows s r) :
    ∃ u, row = u ++ ['\n'] ∧ ('\n' ∉ Formula.format s.symbols r.name → '\n' ∉ u) := by
  have htitle : titleRow = titleRow.dropLast ++ ['\n'] ∧ '\n' ∉ titleRow.dropLast := by decide
  have hrule : ruleRow = ruleRow.dropLast ++ ['\n'] ∧ '\n' ∉ ruleRow.dropLast := by decide
  have hstar : "*\n".toList = ['*', '\n'] := by decide
  rw [headRows, hstar] at h
  simp only [List.mem_cons, List.not_mem_nil, or_false] at h
  rcases h with rfl | rfl | rfl | rfl
  · exact ⟨'*' :: (Formula.format s.symbols r.name ++ ['*']), by simp, fun hname => by simp [hname]⟩
  · exact ⟨[], rfl, by simp⟩
  · exact ⟨_, htitle.1, fun _ => htitle.2⟩
  · exact ⟨_, hrule.1, fun _ => hrule.2⟩

theorem rows_tableText (hname : '\n' ∉ Formula.format s.symbols r.name)
    (h : ∀ line ∈ lines, ∃ u, '\n' ∉ u ∧ line = u ++ ['\n']) :
    rows (tableText s r lines) = headRows s r ++ lines ++ [['\n']] := by
  refine rows_flatten (List.forall_mem_append.2 ⟨List.forall_mem_append.2 ⟨fun row hrow => ?_, h⟩,
    List.forall_mem_singleton.2 ⟨[], by simp, rfl⟩⟩)
  obtain ⟨u, rfl, hu⟩ := exists_of_mem_headRows hrow
  exact ⟨u, hu hname, rfl⟩

/-- With as many rows as there are labels the rows are those that the table was put together
from. -/
theorem rows_tableText_of_length (h : ∀ line ∈ lines, ∃ u, line = u ++ ['\n'])
    (hlength : (rows (tableText s r lines)).length ≤ (headRows s r ++ lines ++ [['\n']]).length) :
    rows (tableText s r lines) = headRows s r ++ lines ++ [['\n']] := by
  refine rows_flatten_of_length (List.forall_mem_append.2 ⟨List.forall_mem_append.2
    ⟨fun row hrow => ?_, h⟩, List.forall_mem_singleton.2 ⟨[], rfl⟩⟩) hlength
  obtain ⟨u, rfl, -⟩ := exists_of_mem_headRows hrow
  exact ⟨u, rfl⟩

theorem isTable_tableText_iff (hname : '\n' ∉ Formula.format s.symbols r.name)
    (h : AreLines s c (labels r).zipIdx lines) :
    IsTable s r (tableText s r lines) ↔ ∀ line ∈ lines, OneRow line := by
  have hlabels : (labels r).zipIdx.map Prod.fst = labels r := List.zipIdx_map_fst 0 _
  have hstarts : List.Forall₂ (fun label line => labelCell s label <+: line) (labels r) lines := by
    rw [← hlabels, List.forall₂_map_left_iff]
    exact h.starts
  constructor
  · rintro ⟨rest, hrows, hshows⟩
    have hsame : rest.length = lines.length := hshows.length_eq.symm.trans hstarts.length_eq
    have hown := rows_tableText_of_length (s := s) (r := r) h.ends (by
      rw [hrows]
      simp [hsame])
    obtain rfl : rest = lines := by
      rw [hown] at hrows
      exact (List.append_cancel_left (List.append_cancel_right hrows)).symm
    intro line hline
    obtain ⟨label, -, hshow⟩ := exists_of_mem_forall₂ hshows.flip hline
    have hmem : line ∈ rows (tableText s r rest) := by
      rw [hrows]
      simp [hline]
    rcases (areRows_rows _).cases_of_mem hmem with hno | hsingle
    · obtain ⟨u, rfl⟩ := h.ends line hline
      simp at hno
    · exact ⟨hsingle, hshow.cells⟩
  · intro hone
    refine ⟨lines, rows_tableText hname fun line hline => (hone line hline).single, ?_⟩
    exact (forall₂_and_right hstarts fun line hline => (hone line hline).cells).imp
      fun _ _ hline => ⟨hline.1, hline.2⟩

/-- What is asked of the labels and of the items in their places, place by place. -/
theorem forall_zipIdx_iff {α β : Type} {P : α → Prop} {Q : β → Prop} {xs : List α}
    {columns : List (List β)} :
    (∀ place ∈ xs.zipIdx, P place.1 ∧ ∀ column ∈ columns, ∀ v ∈ column[place.2]?, Q v) ↔
      (∀ x ∈ xs, P x) ∧ ∀ column ∈ columns, ∀ v ∈ column.take xs.length, Q v := by
  constructor
  · refine fun h => ⟨fun x hx => ?_, fun column hcolumn v hv => ?_⟩
    · obtain ⟨i, hi⟩ := List.mem_iff_getElem?.1 hx
      exact (h (x, i) (List.mem_zipIdx_iff_getElem?.2 hi)).1
    · obtain ⟨i, hi⟩ := List.mem_iff_getElem?.1 hv
      rw [List.getElem?_take] at hi
      split at hi
      next hlt =>
        have hplace : (xs[i], i) ∈ xs.zipIdx :=
          List.mem_zipIdx_iff_getElem?.2 (List.getElem?_eq_getElem hlt)
        exact (h _ hplace).2 column hcolumn v hi
      next => cases hi
  · rintro ⟨hxs, hcolumns⟩ ⟨x, i⟩ hplace
    have hx : xs[i]? = some x := List.mem_zipIdx_iff_getElem?.1 hplace
    have hlt : i < xs.length := (List.getElem?_eq_some_iff.1 hx).1
    refine ⟨hxs x (List.mem_of_getElem? hx), fun column hcolumn v hv => ?_⟩
    have htake : (column.take xs.length)[i]? = some v := by
      rw [List.getElem?_take, if_pos hlt]
      exact hv
    exact hcolumns column hcolumn v (List.mem_of_getElem? htake)

/-- The lists of a record fit below its labels. -/
theorem exists_areLines_iff (hne : [] ∉ s.symbols) {xs : List (Option Text)} :
    (∃ lines, AreLines s c xs.zipIdx lines ∧ ∀ line ∈ lines, OneRow line) ↔
      (∀ label ∈ xs, FitsCell (label.getD [])) ∧
        ∀ items ∈ [c.expressions, c.replaced, c.values],
          ∀ v ∈ items.take xs.length, Printable v := by
  have hpairs : (∃ lines, AreLines s c xs.zipIdx lines ∧ ∀ line ∈ lines, OneRow line) ↔
      ∃ lines, List.Forall₂ (fun place line => c.row s place.2 place.1 = .ok line ∧ OneRow line)
        xs.zipIdx lines := by
    refine exists_congr fun lines => ⟨fun h => forall₂_and_right h.1 h.2, fun h => ?_⟩
    refine ⟨h.imp fun _ _ hline => hline.1, fun line hline => ?_⟩
    obtain ⟨place, -, hrow⟩ := exists_of_mem_forall₂ h.flip hline
    exact hrow.2
  rw [hpairs, exists_forall₂_iff, ← forall_zipIdx_iff]
  exact forall₂_congr fun place _ => exists_row_iff hne

/-- A table has one row of four cells for each label exactly when its lists can be read, its labels
fit, and the items in the places of the labels print as texts that fit. -/
theorem table_isTable_iff [Host] (h : s.misuse? = none) (hname : '\n' ∉ r.name) :
    (∃ t, table s r = .ok t ∧ IsTable s r t) ↔
      ∃ c, columnsOf r = .ok c ∧ (∀ label ∈ labels r, FitsCell (label.getD [])) ∧
        ∀ items ∈ [c.expressions, c.replaced, c.values],
          ∀ v ∈ items.take (labels r).length, Printable v := by
  have hne : [] ∉ s.symbols :=
    (Formula.solid_of_isIdentifier (Settings.Usable.of_misuse?_eq_none h).symbols).nil_not_mem
  have hformat : '\n' ∉ Formula.format s.symbols r.name := by
    rwa [Formula.lineFeed_mem_format_iff hne]
  constructor
  · rintro ⟨t, ht, htable⟩
    obtain ⟨c, hc, lines, hlines, rfl⟩ := table_eq_ok_iff.1 ht
    have hone := (isTable_tableText_iff hformat hlines).1 htable
    exact ⟨c, hc, (exists_areLines_iff hne).1 ⟨lines, hlines, hone⟩⟩
  · rintro ⟨c, hc, hfits⟩
    obtain ⟨lines, hlines, hone⟩ := (exists_areLines_iff hne).2 hfits
    exact ⟨_, table_eq_ok_iff.2 ⟨c, hc, lines, hlines, rfl⟩,
      (isTable_tableText_iff hformat hlines).2 hone⟩

/-- A table with a label more than items, with nothing among the items and with quotes and brackets
in them. -/
def loads : Record where
  name := "q_alpha".toList
  value := "[10, null]".toList
  type := "list".toList
  expression := some "(g[0] * 'a,b', f(x, y))".toList
  tableItems := some [some "Dead".toList, some "Live".toList, none]

theorem table_isTable_loads : ({} : Settings).misuse? = none ∧ '\n' ∉ loads.name ∧
    ∃ t, table {} loads = .ok t ∧ IsTable {} loads t := by
  have h : ({} : Settings).misuse? = none := by decide +kernel
  have hname : '\n' ∉ loads.name := by decide
  have hfits : ∃ c ∈ (columnsOf loads).toOption,
      (∀ label ∈ labels loads, FitsCell (label.getD [])) ∧
        ∀ items ∈ [c.expressions, c.replaced, c.values],
          ∀ v ∈ items.take (labels loads).length, Printable v := by
    decide +kernel
  obtain ⟨c, hc, hfits⟩ := hfits
  exact ⟨h, hname, (table_isTable_iff h hname).2 ⟨c, eq_ok_of_toOption hc, hfits⟩⟩

/-- A table with an item on two rows. -/
def brokenLoads : Record where
  name := "loads".toList
  value := "[10]".toList
  type := "list".toList
  expression := some "[g *\n2]".toList
  tableItems := some [some "Dead".toList]

def brokenTable : Text :=
  "*loads*\n\n".toList ++ tableHead ++ "| Dead | g *\n2 |  | 10 |\n\n".toList

theorem table_breaks_row : table {} brokenLoads = .ok brokenTable ∧
    ¬IsTable {} brokenLoads brokenTable := by
  refine ⟨eq_ok_of_toOption (by decide +kernel), ?_⟩
  rintro ⟨lines, hrows, hlines⟩
  have hseven : (rows brokenTable).length = 7 := by decide +kernel
  have hone : (labels brokenLoads).length = 1 := rfl
  have hlength := hlines.length_eq
  rw [hrows, List.length_append, List.length_append, headRows] at hseven
  simp only [List.length_cons, List.length_nil] at hseven
  omega

end VariableReport.Report
