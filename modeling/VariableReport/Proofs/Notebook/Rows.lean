import VariableReport.Proofs.Notebook.Expression
import VariableReport.Proofs.Records.Bounds
import VariableReport.Proofs.Source.Partition

/-!
# Definitions in their rows

The tokens of a text come row by row, and so do the statements that they are divided into
(`pairwise_line_statements`). A text that is read line by line gives statements whose tokens all lie
in the first row of their line, and the lines above are counted. Either way the first token of a
statement stands in the masked source at the row of the statement and at its own column
(`standsAt_head`). A name stands in the source where it stands in the masked source, for it is on
one row, so the definitions of a notebook come in the order of the cells and rows, and every one is
found where it says (`definitions_in_order`).
-/

namespace VariableReport

namespace Source
open Text

variable {t u m source line : Text} {ts : List Token} {tok : Token} {p : Position} {n k : Nat}
  {s : Statement} {ss : List Statement} {ls : List Text}

/-- Tokens that are laid out come row by row. -/
theorem Laid.rows (h : Laid p t ts) : (∀ tok ∈ ts, p.row ≤ tok.start.row) ∧
    ts.Pairwise fun a b => a.start.row ≤ b.start.row := by
  induction h with
  | done => simp
  | @token p gap t tok ts hstart _ _ ih =>
    have hrow : p.row ≤ tok.start.row := hstart ▸ (p.advance_le gap).1
    have hbehind : ∀ b ∈ ts, tok.start.row ≤ b.start.row := fun b hb =>
      Nat.le_trans (tok.start.advance_le tok.text).1 (ih.1 b hb)
    exact ⟨List.forall_mem_cons.2 ⟨hrow, fun b hb => Nat.le_trans hrow (hbehind b hb)⟩,
      List.pairwise_cons.2 ⟨hbehind, ih.2⟩⟩

theorem filter_isPart_visible (ts : List Token) : (visible ts).filter isPart = ts.filter isPart := by
  rw [visible, List.filter_filter]
  refine List.filter_congr fun tok _ => ?_
  cases h : isPart tok with
  | false => rfl
  | true => rw [(isPart_iff.1 h).1]; rfl

/-- The row of a statement is that of its first token, which is a part of it. -/
theorem Divided.head {before : List Token} (h : Divided source n before ts ss) :
    ∀ s ∈ ss, ∃ first rest, s.tokens = first :: rest ∧ first ∈ ts ∧ isPart first = true ∧
      s.line = first.start.row + n := by
  induction h with
  | rest => simp
  | statement _ hfirst _ _ _ ih =>
    refine List.forall_mem_cons.2 ⟨⟨_, _, rfl, by simp, hfirst, rfl⟩, fun s hs => ?_⟩
    obtain ⟨first, rest, htokens, hmem, hfirst⟩ := ih s hs
    exact ⟨first, rest, htokens, by simp [hmem], hfirst⟩

theorem pairwise_line_statementsOf (h : tokens? t = some ts) (source : Text) (n : Nat) :
    (statementsOf source n ts).Pairwise fun a b => a.line ≤ b.line := by
  have hdivided := divided_statementsOf h source n
  have hrows := (laid_of_tokens? h).rows.2.filter isPart
  rw [filter_isPart_visible, ← hdivided.flatMap_tokens, List.pairwise_flatMap] at hrows
  refine hrows.2.imp_of_mem fun {a b} ha hb hab => ?_
  obtain ⟨first, rest, htokens, -, -, hline⟩ := hdivided.head a ha
  obtain ⟨first', rest', htokens', -, -, hline'⟩ := hdivided.head b hb
  have := hab first (by simp [htokens]) first' (by simp [htokens'])
  omega

theorem not_mem_bareLine (line : Text) : '\n' ∉ bareLine line := by
  intro h
  have := (List.mem_filter.1 h).2
  contradiction

/-- All tokens of a text without line feeds are in its first row. -/
theorem row_eq_one (h : tokens? t = some ts) (ht : '\n' ∉ t) (hm : tok ∈ ts)
    (hpart : isPart tok = true) : tok.start.row = 1 := by
  have hvisible : tok ∈ visible ts := List.mem_filter.2 ⟨hm, by simp [(isPart_iff.1 hpart).1]⟩
  obtain ⟨pre, ⟨post, rfl⟩, hstart, -⟩ := (laid_of_tokens? h).exists_before hvisible
  rw [hstart, Position.advance_of_not_mem fun hpre => ht (by simp [hpre])]

theorem line_of_mem_statementsOf_bareLine (h : tokens? (bareLine line) = some ts)
    (hs : s ∈ statementsOf (bareLine line) n ts) : s.line = n + 1 := by
  obtain ⟨first, -, -, hm, hpart, hline⟩ := (divided_statementsOf h _ n).head s hs
  rw [hline, row_eq_one h (not_mem_bareLine line) hm hpart, Nat.add_comm]

/-- A statement of a text that is read line by line is one of the line that its row counts. -/
theorem line_of_mem_statementsByLine (hs : s ∈ statementsByLine n ls) : ∃ k line ts,
    ls[k]? = some line ∧ tokens? (bareLine line) = some ts ∧
      s ∈ statementsOf (bareLine line) (n + k) ts := by
  induction ls generalizing n with
  | nil => contradiction
  | cons line ls ih =>
    rw [statementsByLine] at hs
    rcases List.mem_append.1 hs with hs | hs
    · split at hs
      next ts hts => exact ⟨0, line, ts, rfl, hts, hs⟩
      next => contradiction
    · obtain ⟨k, line', ts, hline, hts, hs⟩ := ih hs
      exact ⟨k + 1, line', ts, hline, hts, by rwa [Nat.add_right_comm, Nat.add_assoc] at hs⟩

theorem pairwise_line_statementsByLine (n : Nat) (ls : List Text) :
    (statementsByLine n ls).Pairwise fun a b => a.line ≤ b.line := by
  induction ls generalizing n with
  | nil => exact .nil
  | cons line ls ih =>
    rw [statementsByLine]
    cases hts : tokens? (bareLine line) with
    | none => exact ih (n + 1)
    | some ts =>
      refine List.pairwise_append.2 ⟨pairwise_line_statementsOf hts _ n, ih (n + 1), ?_⟩
      intro a ha b hb
      obtain ⟨k, line', ts', -, hts', hb⟩ := line_of_mem_statementsByLine hb
      rw [line_of_mem_statementsOf_bareLine hts ha, line_of_mem_statementsOf_bareLine hts' hb]
      omega

/-- The statements of a cell come row by row. -/
theorem pairwise_line_statements (t : Text) :
    (statements t).Pairwise fun a b => a.line ≤ b.line := by
  unfold statements
  split
  · exact .nil
  next m _ =>
    split
    next ts hts => exact pairwise_line_statementsOf hts m 0
    next => exact pairwise_line_statementsByLine 0 _

/-! ### Where the first token stands -/

theorem Passes.row_of_name {b : Int} (h : Passes b t n (some .name)) : '\n' ∉ t.take n := by
  cases h with
  | token hs hkind =>
    have hspan := hs.spans hkind
    rw [← take_firstRow hspan.le]
    exact hspan.row

/-- A name lies within one row. -/
theorem not_mem_of_name (h : tokens? t = some ts) (hm : tok ∈ ts) (hk : tok.kind = .name) :
    tok.text ≠ [] ∧ '\n' ∉ tok.text := by
  obtain ⟨before, after, rfl⟩ := List.append_of_mem hm
  have hcode : isCode tok = true := by simp [isCode, Token.isLayout, hk]
  obtain ⟨x, u, -, -, -, hpass, hprefix⟩ :=
    (lexes_of_tokens? h).exists_at rfl hcode (by simp [hk])
  rw [hk] at hpass
  refine ⟨fun hnil => ?_, ?_⟩
  · have := hpass.bounds.1
    simp [hnil] at this
  · rw [List.prefix_iff_eq_take.1 hprefix]
    exact hpass.row_of_name

/-- What stands in the first row of a line stands in the row of the line. -/
theorem standsAt_of_row {column : Nat} (hb : ∀ c ∈ m, isLineBreak c = true → c = '\n')
    (hline : (lines m)[k]? = some line) (hu : u ≠ []) (h : StandsAt (bareLine line) ⟨1, column⟩ u) :
    StandsAt m ⟨k + 1, column⟩ u := by
  have hbare := isPrefix_bareLine hb (List.mem_of_getElem? hline)
  rw [lines_eq_rows hb] at hline
  obtain ⟨hk, hget⟩ := List.getElem?_eq_some_iff.1 hline
  obtain ⟨w, hw, hlen, hprefix⟩ := standsAt_first_row.1 h
  have hrows := (@standsAt_flatten _ k column _ (areRows_rows m) hu).2
  rw [flatten_rows] at hrows
  refine hrows ⟨w, hw, hlen, ?_⟩
  rw [List.drop_eq_getElem_cons hk, hget, List.flatten_cons]
  exact (List.IsPrefix.trans hprefix hbare).trans (List.prefix_append ..)

theorem standsAt_of_name (h : tokens? t = some ts) (hm : tok ∈ ts) (hk : tok.kind = .name) :
    StandsAt t tok.start tok.text := by
  have hl : tok.isLayout = false := by simp [Token.isLayout, hk]
  obtain ⟨pre, hstands⟩ := exists_standsAfter h hm hl (by simp [hk])
  obtain ⟨post, ht⟩ := hstands.text
  exact ⟨pre, post, ht, hstands.start.symm⟩

/-- A statement that begins with a name has the name in its row, at the column of the first token,
whether the text is lexed as a whole or line by line. -/
theorem standsAt_head (hb : ∀ c ∈ t, isLineBreak c = true → c = '\n') (hs : s ∈ statements t)
    (hfirst : s.tokens.head? = some tok) (hk : tok.kind = .name) :
    tok.text ≠ [] ∧ '\n' ∉ tok.text ∧ StandsAt t ⟨s.line, tok.start.column⟩ tok.text := by
  unfold statements at hs
  split at hs
  · contradiction
  next m hm =>
    have hmasked := isLineBreak_of_mem_masked hb hm
    split at hs
    next ts hts =>
      obtain ⟨first, rest, htokens, hmem, -, hline⟩ := (divided_statementsOf hts m 0).head s hs
      obtain rfl : first = tok := by simpa [htokens] using hfirst
      obtain ⟨hne, hrow⟩ := not_mem_of_name hts hmem hk
      refine ⟨hne, hrow, standsAt_of_not_mem hb hm hne hrow ?_⟩
      rw [hline]
      exact standsAt_of_name hts hmem hk
    next =>
      obtain ⟨k, line, ts, hk', hts, hs⟩ := line_of_mem_statementsByLine hs
      obtain ⟨first, rest, htokens, hmem, hpart, -⟩ := (divided_statementsOf hts _ _).head s hs
      obtain rfl : first = tok := by simpa [htokens] using hfirst
      obtain ⟨hne, hrow⟩ := not_mem_of_name hts hmem hk
      refine ⟨hne, hrow, standsAt_of_not_mem hb hm hne hrow ?_⟩
      rw [line_of_mem_statementsOf_bareLine hts hs, Nat.zero_add]
      refine standsAt_of_row hmasked hk' hne ?_
      rw [← row_eq_one hts (not_mem_bareLine line) hmem hpart]
      exact standsAt_of_name hts hmem hk

/-- What stands at a position within a row is a piece of the row. -/
theorem StandsAt.row {column : Nat} (h : StandsAt t ⟨k + 1, column⟩ u) (hu : u ≠ [])
    (hrow : '\n' ∉ u) : ∃ row, (rows t)[k]? = some row ∧ u <+: row.drop column := by
  have hrows := (@standsAt_flatten _ k column _ (areRows_rows t) hu).1
  rw [flatten_rows] at hrows
  obtain ⟨w, hw, rfl, hprefix⟩ := hrows h
  have hdrop := (areRows_rows t).drop k
  cases hbelow : (rows t).drop k with
  | nil =>
    rw [hbelow] at hprefix
    simp [hu] at hprefix
  | cons row below =>
    rw [hbelow] at hdrop hprefix
    obtain ⟨post, hpost⟩ := prefix_head hdrop (by simp [hw, hrow]) hprefix
    refine ⟨row, ?_, post, ?_⟩
    · rw [← Nat.add_zero k, ← List.getElem?_drop, hbelow]
      rfl
    · rw [← hpost, List.append_assoc, List.drop_left]

theorem name_of_assignment? {name rhs : Text} (h : assignment? s = some (name, rhs)) :
    ∃ target, s.tokens.head? = some target ∧ target.kind = .name ∧ target.text = name := by
  unfold assignment? at h
  split at h
  · contradiction
  simp only [Option.bind_eq_bind, Option.bind_eq_some_iff] at h
  obtain ⟨target, htarget, i, hi, first, -, last, -, h⟩ := h
  split at h
  · contradiction
  refine ⟨target, htarget, ?_, (Prod.mk.inj (Option.some.inj h)).1⟩
  unfold valueFrom? at hi
  split at hi
  next first second third rest htokens =>
    rw [htokens] at htarget
    obtain rfl := Option.some.inj htarget
    split at hi
    · contradiction
    next hname =>
      by_contra hk
      simp [hk] at hname
  next => contradiction

end Source

namespace Notebook
open Source Text Outcome

variable {cells : List Cell} {ds : List Definition}

/-- Of two definitions the second is in a later cell, or in the same one and in no higher row. -/
def Definition.Precedes (a b : Definition) : Prop :=
  a.cellIndex < b.cellIndex ∨ a.cellIndex = b.cellIndex ∧ a.line ≤ b.line

theorem line_of_definition? {i : Nat} {s : Statement} {d : Definition}
    (h : definition? i s = some d) : d.line = s.line := by
  obtain ⟨x, -, rfl⟩ := Option.map_eq_some_iff.1 h
  rfl

theorem precedes_of_cellDefinitions {i : Nat} {c : Cell} (h : cellDefinitions i c = .ok ds) :
    ds.Pairwise Definition.Precedes ∧ ∀ d ∈ ds, d.cellIndex = i := by
  refine ⟨?_, fun d hd => ?_⟩
  · unfold cellDefinitions at h
    split at h
    next =>
      obtain ⟨t, -, rfl⟩ := map_eq_ok.1 h
      refine (pairwise_line_statements t).filterMap _ fun a a' hline d hd d' hd' => .inr ?_
      rw [cellIndex_of_definition? hd, cellIndex_of_definition? hd', line_of_definition? hd,
        line_of_definition? hd']
      exact ⟨rfl, hline⟩
    next =>
      obtain rfl := Except.ok.inj h
      exact .nil
  · obtain ⟨-, t, -, s, -, hdef⟩ := statement_of_mem_cellDefinitions h hd
    exact cellIndex_of_definition? hdef

theorem precedes_of_definitionsFrom {i : Nat} (h : definitionsFrom i cells = .ok ds) :
    ds.Pairwise Definition.Precedes := by
  induction cells generalizing i ds with
  | nil =>
    obtain rfl := Except.ok.inj h
    exact .nil
  | cons c cells ih =>
    rw [definitionsFrom] at h
    obtain ⟨first, h1, h⟩ := bind_eq_ok.1 h
    obtain ⟨rest, h2, h⟩ := bind_eq_ok.1 h
    obtain rfl := Except.ok.inj h
    obtain ⟨hfirst, hindex⟩ := precedes_of_cellDefinitions h1
    refine List.pairwise_append.2 ⟨hfirst, ih h2, fun a ha b hb => .inl ?_⟩
    rw [hindex a ha]
    exact (statement_of_mem_definitionsFrom h2 hb).1

/-- The definitions of cells with no line boundary but the line feed come in the order of the cells
and of their rows. Each one is of a code cell, and its name stands in the source of the cell, in the
row of the definition and at the column of the first token of its statement. -/
theorem definitions_in_order (h : ∀ c ∈ cells, ∃ t, c.source = .str t ∧
      ∀ d ∈ t, isLineBreak d = true → d = '\n') :
    ∃ ds, definitions cells = .ok ds ∧ ds.Pairwise Definition.Precedes ∧
      ∀ d ∈ ds, ∃ c t s target row, cells[d.cellIndex]? = some c ∧ c.kind = .code ∧
        c.source = .str t ∧ s ∈ statements t ∧ definition? d.cellIndex s = some d ∧
        s.tokens.head? = some target ∧ 0 < d.line ∧ (rows t)[d.line - 1]? = some row ∧
        d.name <+: row.drop target.start.column := by
  obtain ⟨ds, hds⟩ := Records.exists_definitions fun c hc => (h c hc).imp fun t ht => ht.1
  refine ⟨ds, hds, precedes_of_definitionsFrom hds, fun d hd => ?_⟩
  obtain ⟨c, hc, hk, t, ht, s, hs, hdef⟩ := statement_of_mem_definitions hds hd
  obtain ⟨t', hsource, hbreaks⟩ := h c (List.mem_of_getElem? hc)
  obtain rfl : t' = t := by
    rw [Cell.code, Cell.text, hsource] at ht
    exact Except.ok.inj ht
  obtain ⟨⟨name, rhs⟩, hassign, hd'⟩ := Option.map_eq_some_iff.1 hdef
  obtain rfl : name = d.name := congrArg Definition.name hd'
  obtain ⟨target, htarget, hkind, hname⟩ := name_of_assignment? hassign
  obtain ⟨hne, hrow, hstands⟩ := standsAt_head hbreaks hs htarget hkind
  rw [← line_of_definition? hdef, hname] at hstands
  rw [hname] at hne hrow
  obtain ⟨k, column, hp⟩ := hstands.exists_row
  obtain ⟨hline, -⟩ := Position.mk.inj hp
  rw [hline] at hstands
  obtain ⟨row, hget, hprefix⟩ := hstands.row hne hrow
  rw [hline]
  exact ⟨c, t', s, target, row, hc, hk, hsource, hs, hdef, htarget, k.succ_pos, hget, hprefix⟩

/-- A cell with a line for the shell and with values over two rows, prose, and a cell that cannot be
lexed as a whole. -/
def rowedSources : List (CellKind × Text) :=
  [(.code, "%time\ns = \x27\x27\x27a\nb\x27\x27\x27; x = 1\nif x:\n  y = 1\ny = (2,\n3)".toList),
    (.markdown, "z = 4".toList), (.code, "(\n!ls\nx = 5; y = 6".toList)]

def rowedCells : List Cell := rowedSources.map fun (kind, source) => .ofText kind source

theorem definitions_in_order_rowed : ∃ ds, definitions rowedCells = .ok ds ∧
    ds.map (fun d => (d.name, d.cellIndex, d.line)) =
      [("s".toList, 0, 2), ("x".toList, 0, 3), ("y".toList, 0, 6), ("x".toList, 2, 3),
        ("y".toList, 2, 3)] ∧
    ds.Pairwise Definition.Precedes ∧ ∀ d ∈ ds, ∃ c t row, rowedCells[d.cellIndex]? = some c ∧
      c.source = .str t ∧ (rows t)[d.line - 1]? = some row ∧ d.name <:+: row := by
  have hcells : ∀ c ∈ rowedCells, ∃ t, c.source = .str t ∧
      ∀ d ∈ t, isLineBreak d = true → d = '\n' := by
    have hall : (rowedSources.all fun p => p.2.all fun d => !isLineBreak d || d = '\n') = true := by
      decide +kernel
    intro c hc
    obtain ⟨⟨kind, t⟩, hp, rfl⟩ := List.mem_map.1 hc
    refine ⟨t, rfl, ?_⟩
    simpa [imp_iff_not_or] using List.all_eq_true.1 hall (kind, t) hp
  obtain ⟨ds, hds, horder, hplaces⟩ := definitions_in_order hcells
  refine ⟨ds, hds, ?_, horder, fun d hd => ?_⟩
  · have hlist : (definitions rowedCells).toOption.map
        (List.map fun d => (d.name, d.cellIndex, d.line)) =
          some [("s".toList, 0, 2), ("x".toList, 0, 3), ("y".toList, 0, 6), ("x".toList, 2, 3),
            ("y".toList, 2, 3)] := by decide +kernel
    rw [hds] at hlist
    exact Option.some.inj hlist
  · obtain ⟨c, t, s, target, row, hc, -, ht, -, -, -, -, hrow, hname⟩ := hplaces d hd
    exact ⟨c, t, row, hc, ht, hrow, hname.isInfix.trans (List.drop_suffix _ _).isInfix⟩

end Notebook

end VariableReport
