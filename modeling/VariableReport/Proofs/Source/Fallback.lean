import VariableReport.Proofs.Source.Line
import VariableReport.Proofs.Source.Reading

/-!
# Cells of lines that stand alone

The statements of lines that stand alone are the same whether the cell is lexed as a whole or
line by line (`reads_statements_join`), but for the comments in front of them: a comment on a line
of its own leads the next statement only where the lines are lexed together. One more line that
cannot be lexed makes the cell one that is lexed line by line (`statements_join_broken`).
-/

namespace VariableReport.Source
open Text

variable {line t : Text} {k n : Nat} {ls : List Text} {row alone : List Token}

theorem map_lower_zero (ts : List Token) : ts.map (Token.lower 0) = ts :=
  (List.map_congr_left fun _ _ => rfl).trans (List.map_id ts)

theorem Token.Within.lower {tok : Token} {r width : Nat} (h : tok.Within r width) :
    (tok.lower k).Within (r + k) width :=
  ⟨congrArg (· + k) h.start_row, h.start_column, congrArg (· + k) h.stop_row, h.stop_column⟩

namespace Assembly

variable {a : Assembly} {ts : List Token} {e : Token} {cs : List Text}

theorem run_concat : run t n a (ts ++ [e]) =
    ((run t n a ts).1 ++ ((run t n a ts).2.step t n e).1, ((run t n a ts).2.step t n e).2) := by
  rw [run_append]
  simp [run]

/-- Where nothing is open, the end of a row or of the text changes nothing. -/
theorem step_idle (h : e.kind = .rowEnd ∨ e.kind = .lineEnd ∨ e.kind = .endMarker) :
    step t n { leading := cs } e = ([], { leading := cs }) := by
  rcases h with h | h
  · exact (Stepped.rowEnd h).eq
  · exact (Stepped.ends h).eq

theorem step_idle_comment (h : e.kind = .comment) :
    step t n { leading := cs } e = ([], { leading := cs ++ [e.text] }) :=
  (Stepped.leads h rfl rfl).eq

end Assembly

namespace LineTokens
open Assembly

/-- The end marker behind a line on its own adds nothing to what the end of its row does. -/
theorem assemble_eq (h : LineTokens line row alone) (cs : List Text) :
    assemble t n { leading := cs } (alone.map (Token.lower k)) =
      (run t n { leading := cs } (row.map (Token.lower k))).1 := by
  cases h with
  | @blank e m _ he hm =>
    have hrow := @step_idle t n (e.lower k) cs (.inl he)
    have hmark := @step_idle t n (m.lower k) cs (.inr (.inr hm))
    simp only [List.map_cons, List.map_nil, run, assemble, hrow, hmark]
    rfl
  | @comment c e e' m _ hc _ he he' hm =>
    have hcomment := @step_idle_comment t n (c.lower k) cs hc
    have hrow := fun cs => @step_idle t n (e.lower k) cs (.inl he)
    have hrow' := fun cs => @step_idle t n (e'.lower k) cs (.inl he')
    have hmark := fun cs => @step_idle t n (m.lower k) cs (.inr (.inr hm))
    simp only [List.map_cons, List.map_nil, run, assemble, hcomment, hrow, hrow', hmark]
    rfl
  | @code body e e' m _ _ _ _ he he' hm =>
    have hend := fun a => (@Stepped.ends t n a (e.lower k) (.inl he)).eq
    have hend' := fun a => (@Stepped.ends t n a (e'.lower k) (.inl he')).eq
    have hmark := fun a => (@Stepped.ends t n a (m.lower k) (.inr hm)).eq
    rw [List.map_append, List.map_append, assemble_append, List.map_singleton, run_concat]
    simp only [List.map_cons, List.map_nil, assemble, hend, hend', hmark]
    simp [statement?]

/-- The statements of a line, and what it leaves open: comments in front of the next statement. A
comment that fills the line becomes one of them. -/
theorem run_idle (h : LineTokens line row alone) (cs : List Text) :
    (∀ s ∈ (run t n { leading := cs } (row.map (Token.lower k))).1,
      s.Holds t n (Token.Within (1 + k) line.length) (· ∈ cs)) ∧
    ∃ cs', (run t n { leading := cs } (row.map (Token.lower k))).2 = { leading := cs' } ∧
      ∀ c ∈ cs', c ∈ cs ∨ (c = line ∧ line.head? = some '#') := by
  cases h with
  | @blank e m _ he hm =>
    have hrow := @step_idle t n (e.lower k) cs (.inl he)
    simp only [List.map_cons, List.map_nil, run, hrow]
    exact ⟨by simp, cs, rfl, fun c hc => .inl hc⟩
  | @comment c e e' m hline hc htext he he' hm =>
    have hcomment := @step_idle_comment t n (c.lower k) cs hc
    have hrow := fun cs => @step_idle t n (e.lower k) cs (.inl he)
    simp only [List.map_cons, List.map_nil, run, hcomment, hrow]
    refine ⟨by simp, _, rfl, fun d hd => ?_⟩
    rcases List.mem_append.1 hd with hd | hd
    · exact .inl hd
    · exact .inr ⟨(List.mem_singleton.1 hd).trans htext, hline⟩
  | @code body e e' m _ _ hbody hfirst he he' hm =>
    have hnew : Assembly.Holds t n (Token.Within (1 + k) line.length) (· ∈ cs) { leading := cs } :=
      ⟨by simp, by simp, by simp⟩
    have hwithin : ∀ tok ∈ body.map (Token.lower k), tok.Within (1 + k) line.length := by
      intro tok htok
      obtain ⟨u, hu, rfl⟩ := List.mem_map.1 htok
      exact (hbody u hu).2.lower
    have hlayout : ∀ tok ∈ body.map (Token.lower k), tok.isLayout = false := by
      intro tok htok
      obtain ⟨u, hu, rfl⟩ := List.mem_map.1 htok
      exact (hbody u hu).1
    have hfirst : ∀ tok ∈ (body.map (Token.lower k)).head?, tok.kind ≠ .comment := by
      rw [List.head?_map]
      rintro tok htok
      obtain ⟨u, hu, rfl⟩ := Option.map_eq_some_iff.1 htok
      exact hfirst u hu
    have hend : (e.lower k).isLayout = true := by simp [Token.isLayout, he]
    obtain ⟨hout, hnext⟩ := hnew.run_row hwithin hlayout (.inr hfirst)
    obtain ⟨hlast, hidle⟩ := hnext.step (t := e.lower k) (by simp [hend]) (by simp [he])
    rw [List.map_append, List.map_singleton, run_concat]
    refine ⟨fun s hs => ?_, ?_⟩
    · rcases List.mem_append.1 hs with hs | hs
      · exact hout s hs
      · exact hlast s hs
    · refine ⟨_, ?_, fun c hc => .inl (hidle.leading c hc)⟩
      have hstep := fun a => @Stepped.ends t n a (e.lower k) (.inl he)
      dsimp only
      rw [(hstep _).eq, depth_run hlayout]

/-- On its own a line gives the statements of its row. -/
theorem statementsOf_eq (h : LineTokens line row alone) :
    statementsOf line n alone = (run line n {} row).1 := by
  have heq := h.assemble_eq (t := line) (n := n) (k := 0) []
  rwa [map_lower_zero, map_lower_zero] at heq

/-- In row `k + 1` of a cell a line gives the statements that it gives on its own. -/
theorem lowered (h : LineTokens line row alone) (cs : List Text) :
    List.Forall₂ (Statement.Lowered k) (run t 0 { leading := cs } (row.map (Token.lower k))).1
      (statementsOf line k alone) := by
  have hnew : Lowered k { leading := cs } {} := ⟨rfl, rfl, rfl, rfl, .none, rfl⟩
  have htokens : List.Forall₂ (Token.Lowered k) (row.map (Token.lower k)) row := by
    rw [List.forall₂_map_left_iff, List.forall₂_same]
    exact fun _ _ => ⟨rfl, fun _ => rfl⟩
  rw [h.statementsOf_eq]
  exact (hnew.run htokens (Nat.zero_add k)).1

theorem holds_statementsOf (h : LineTokens line row alone) :
    ∀ s ∈ statementsOf line k alone,
      s.Holds line k (Token.Within 1 line.length) fun _ => False := by
  obtain ⟨hout, -⟩ := h.run_idle (t := line) (n := k) (k := 0) []
  rw [map_lower_zero] at hout
  rw [h.statementsOf_eq]
  intro s hs
  obtain ⟨h1, h2, h3, h4, h5⟩ := hout s hs
  exact ⟨h1, h2, h3, h4, fun c hc => by simpa using h5 c hc⟩

end LineTokens

/-- Each line stands in its row of a text, the first of them below `k` rows. -/
def HasLines (t : Text) (k : Nat) (ls : List Text) : Prop :=
  ∀ i line, ls[i]? = some line → ∃ above below, lines t = above ++ below ∧
    above.length = k + i ∧ line <+: below.flatten

theorem HasLines.tail (h : HasLines t k (line :: ls)) : HasLines t (k + 1) ls := by
  intro i l hl
  obtain ⟨above, below, hlines, hlength, hprefix⟩ := h (i + 1) l (by simpa using hl)
  exact ⟨above, below, hlines, by omega, hprefix⟩

/-- A line of its own for a comment. -/
def IsCommentLine (ls : List Text) (c : Text) : Prop := c ∈ ls ∧ c.head? = some '#'

theorem IsCommentLine.cons {c : Text} (h : IsCommentLine ls c) : IsCommentLine (line :: ls) c :=
  ⟨List.mem_cons_of_mem _ h.1, h.2⟩

theorem statementsByLine_cons (h : StandsAlone line) (ht : tokens? line = some alone) :
    statementsByLine k (line :: ls) = statementsOf line k alone ++ statementsByLine (k + 1) ls := by
  rw [statementsByLine, bareLine_eq_self h.bare, ht]

open Assembly in
/-- Lines that are read below one another give the statements that they give one by one. The
comments in front of a statement fill lines of their own. -/
theorem run_rowTokens (h : ∀ l ∈ ls, StandsAlone l) (ht : HasLines t k ls) (cs : List Text) :
    List.Forall₂ Statement.Reads (run t 0 { leading := cs } (rowTokens k ls)).1
      (statementsByLine k ls) ∧
    (∀ s ∈ (run t 0 { leading := cs } (rowTokens k ls)).1, ∀ c ∈ s.leading,
      c ∈ cs ∨ IsCommentLine ls c) ∧
    ∃ cs', (run t 0 { leading := cs } (rowTokens k ls)).2 = { leading := cs' } := by
  induction ls generalizing k cs with
  | nil => exact ⟨.nil, by simp [rowTokens, run], cs, rfl⟩
  | cons line ls ih =>
    rw [List.forall_mem_cons] at h
    obtain ⟨row, alone, hline, hrow, halone⟩ := h.1.lineTokens
    obtain ⟨above, below, hlines, hlength, hprefix⟩ := ht 0 line rfl
    obtain rfl : above.length = k := hlength
    have hlowered := hline.lowered (t := t) (k := above.length) cs
    have hholds := hline.holds_statementsOf (k := above.length)
    obtain ⟨hout, cs', hnext, hcs'⟩ := hline.run_idle (t := t) (n := 0) (k := above.length) cs
    obtain ⟨hreads, hleading, hlast⟩ := ih h.2 ht.tail cs'
    have hfirst : List.Forall₂ Statement.Reads
        (run t 0 { leading := cs } (row.map (Token.lower above.length))).1
        (statementsOf line above.length alone) := by
      have hsource := fun s' hs' => (hout s' hs').source_eq
      refine (forall₂_of_mem hlowered hsource hholds).imp fun s' s hs => ?_
      obtain ⟨hsource, hs, hlow⟩ := hs
      rw [← hs.linesAbove_eq] at hs
      exact hlow.reads hsource hs hlines hprefix
    rw [statementsByLine_cons h.1 halone, rowTokens, lexRow_lower_empty hrow, Option.elim_some,
      run_append, hnext]
    refine ⟨List.rel_append hfirst hreads, fun s hs c hc => ?_, hlast⟩
    rcases List.mem_append.1 hs with hs | hs
    · exact .inl ((hout s hs).leading c hc)
    · rcases hleading s hs c hc with hc | hc
      · rcases hcs' c hc with hc | ⟨rfl, hc⟩
        · exact .inl hc
        · exact .inr ⟨by simp, hc⟩
      · exact .inr hc.cons

theorem leading_statementsByLine (h : ∀ l ∈ ls, StandsAlone l) :
    ∀ s ∈ statementsByLine k ls, s.leading = [] := by
  induction ls generalizing k with
  | nil => simp [statementsByLine]
  | cons line ls ih =>
    rw [List.forall_mem_cons] at h
    obtain ⟨row, alone, hline, -, halone⟩ := h.1.lineTokens
    rw [statementsByLine_cons h.1 halone]
    intro s hs
    rcases List.mem_append.1 hs with hs | hs
    · exact List.eq_nil_iff_forall_not_mem.2 (hline.holds_statementsOf s hs).leading
    · exact ih h.2 s hs

/-- Line ends make no difference to what lines give one by one. -/
theorem statementsByLine_rowEnd (h : ∀ l ∈ ls, StandsAlone l) (below : List Text) :
    statementsByLine k (ls.map (· ++ ['\n']) ++ below) =
      statementsByLine k ls ++ statementsByLine (k + ls.length) below := by
  induction ls generalizing k with
  | nil => rfl
  | cons line ls ih =>
    rw [List.forall_mem_cons] at h
    rw [List.map_cons, List.cons_append, statementsByLine, statementsByLine,
      bareLine_rowEnd h.1.bare, bareLine_eq_self h.1.bare, ih h.2, List.append_assoc, List.length_cons, Nat.add_right_comm,
      Nat.add_assoc]

theorem IsPlainLine.isShellLine_eq_false (h : IsPlainLine line) {e : Text}
    (he : ∀ c ∈ e, isBlank c = true) : isShellLine (line ++ e) = false := by
  rw [isShellLine_append_blanks he]
  cases line with
  | nil => rfl
  | cons c line =>
    obtain ⟨hblank, hpercent, hmark⟩ := h.first c rfl
    rw [isShellLine_cons hblank]
    simp [hpercent, hmark]

/-- The line feeds between plain lines are the only line boundaries. -/
theorem lines_join (h : ∀ l ∈ ls, IsPlainLine l) :
    lines (join ['\n'] ls) = rows (join ['\n'] ls) := by
  refine lines_eq_rows fun c hc hbreak => ?_
  rcases mem_of_mem_join hc with hc | ⟨l, hl, hc⟩
  · exact List.mem_singleton.1 hc
  · exact absurd hc ((h l hl).not_mem hbreak)

theorem rows_join_concat {u : Text} (h : ∀ l ∈ ls ++ [u], IsPlainLine l) :
    rows (join ['\n'] (ls ++ [u])) = ls.map (· ++ ['\n']) ++ rows u := by
  have hfeed : ∀ l ∈ ls, '\n' ∉ l := fun l hl => (h l (by simp [hl])).not_mem (by decide)
  rw [rows_join hfeed (by simp), join_singleton]

theorem eq_of_mem_rows {u : Text} (h : '\n' ∉ u) (hl : line ∈ rows u) : line = u := by
  cases u with
  | nil => contradiction
  | cons c u =>
    rw [rows_of_not_mem (by simp) h] at hl
    exact List.mem_singleton.1 hl

theorem maskMagics?_join {u : Text} (h : ∀ l ∈ ls ++ [u], IsPlainLine l) :
    maskMagics? (join ['\n'] (ls ++ [u])) = some (join ['\n'] (ls ++ [u])) := by
  refine maskMagics?_eq_self fun l hl => ?_
  rw [lines_join h, rows_join_concat h, List.mem_append] at hl
  rcases hl with hl | hl
  · obtain ⟨line, hline, rfl⟩ := List.mem_map.1 hl
    have hblank : isBlank '\n' = true := by decide
    exact (h line (by simp [hline])).isShellLine_eq_false (by simpa using hblank)
  · have hu := h u (by simp)
    rw [eq_of_mem_rows (hu.not_mem (by decide)) hl, ← List.append_nil u]
    exact hu.isShellLine_eq_false (by simp)

/-- Plain lines stand below one another where they are joined with line feeds. -/
theorem hasLines_join (h : ∀ l ∈ ls, IsPlainLine l) : HasLines (join ['\n'] ls) 0 ls := by
  intro i line hi
  obtain ⟨hlt, hget⟩ := List.getElem?_eq_some_iff.1 hi
  have hsplit : ls.take i ++ line :: ls.drop (i + 1) = ls := by
    rw [← hget, List.getElem_cons_drop, List.take_append_drop]
  have hfeed : ∀ l ∈ ls.take i, '\n' ∉ l :=
    fun l hl => (h l (List.mem_of_mem_take hl)).not_mem (by decide)
  have hrows := @rows_join (ls.take i) (line :: ls.drop (i + 1)) hfeed (by simp)
  rw [hsplit, ← lines_join h] at hrows
  refine ⟨_, _, hrows, ?_, ?_⟩
  · rw [List.length_map, List.length_take_of_le (Nat.le_of_lt hlt), Nat.zero_add]
  · rw [flatten_rows]
    cases ls.drop (i + 1) with
    | nil => simp [join_singleton]
    | cons next below =>
      rw [join_cons_cons]
      exact List.prefix_append line _

theorem HasLines.left {us : List Text} (h : HasLines t k (ls ++ us)) : HasLines t k ls := by
  intro i line hi
  refine h i line ?_
  rw [List.getElem?_append_left (List.getElem?_eq_some_iff.1 hi).choose, hi]

theorem rowTokens_concat {u : Text} (h : lexRow 1 {} (u ++ ['\n']) = some (row, {})) :
    rowTokens k (ls ++ [u]) = rowTokens k ls ++ row.map (Token.lower (k + ls.length)) := by
  induction ls generalizing k with
  | nil => simp [rowTokens, lexRow_lower_empty h]
  | cons line ls ih =>
    rw [List.cons_append, rowTokens, rowTokens, ih, List.append_assoc, List.length_cons,
      Nat.add_assoc k, Nat.add_comm 1 ls.length]

open Assembly in
/-- The statements of a cell of lines that stand alone are those of its rows. -/
theorem statements_join {u : Text} (h : ∀ l ∈ ls ++ [u], StandsAlone l) :
    (tokens? (join ['\n'] (ls ++ [u]))).isSome ∧
    statements (join ['\n'] (ls ++ [u])) =
      (run (join ['\n'] (ls ++ [u])) 0 {} (rowTokens 0 (ls ++ [u]))).1 := by
  have hplain : ∀ l ∈ ls ++ [u], IsPlainLine l := fun l hl => (h l hl).toIsPlainLine
  have habove : ∀ l ∈ ls, StandsAlone l := fun l hl => h l (by simp [hl])
  obtain ⟨row, alone, hline, hrow, halone⟩ := (h u (by simp)).lineTokens
  have htokens := tokens?_join habove (hplain u (by simp))
  rw [halone, Option.map_some] at htokens
  refine ⟨by rw [htokens]; rfl, ?_⟩
  obtain ⟨-, -, cs, hidle⟩ := run_rowTokens habove (hasLines_join hplain).left []
  simp only [statements, maskMagics?_join hplain, htokens]
  rw [statementsOf, assemble_append, rowTokens_concat hrow, run_append, Nat.zero_add, hidle,
    hline.assemble_eq]

/-- A cell of lines that stand alone is lexed as a whole, and its statements are those of the
lines. -/
theorem reads_statements_join (h : ∀ l ∈ ls, StandsAlone l) (hne : ls ≠ []) :
    (tokens? (join ['\n'] ls)).isSome ∧
    List.Forall₂ Statement.Reads (statements (join ['\n'] ls)) (statementsByLine 0 ls) ∧
    ∀ s ∈ statements (join ['\n'] ls), ∀ c ∈ s.leading, IsCommentLine ls c := by
  obtain ⟨above, u, rfl⟩ := (List.eq_nil_or_concat ls).resolve_left hne
  rw [List.concat_eq_append] at h ⊢
  have hplain : ∀ l ∈ above ++ [u], IsPlainLine l := fun l hl => (h l hl).toIsPlainLine
  obtain ⟨htokens, hstatements⟩ := statements_join h
  obtain ⟨hreads, hleading, -⟩ := run_rowTokens h (hasLines_join hplain) []
  rw [hstatements]
  exact ⟨htokens, hreads, fun s hs c hc => (hleading s hs c hc).resolve_left (by simp)⟩

/-- A cell of such lines and one that cannot be lexed is lexed line by line. -/
theorem statements_join_broken {u : Text} (h : ∀ l ∈ ls, StandsAlone l) (hu : IsPlainLine u)
    (hnone : tokens? u = none) : tokens? (join ['\n'] (ls ++ [u])) = none ∧
      statements (join ['\n'] (ls ++ [u])) = statementsByLine 0 ls := by
  have hplain : ∀ l ∈ ls ++ [u], IsPlainLine l := by
    intro l hl
    rcases List.mem_append.1 hl with hl | hl
    · exact (h l hl).toIsPlainLine
    · rwa [List.mem_singleton.1 hl]
  have htokens := tokens?_join h hu
  rw [hnone, Option.map_none] at htokens
  refine ⟨htokens, ?_⟩
  have hlast : statementsByLine (0 + ls.length) (rows u) = [] := by
    cases u with
    | nil => rfl
    | cons c u =>
      rw [rows_of_not_mem (by simp) (hu.not_mem (by decide)), statementsByLine,
        bareLine_eq_self hu.bare, hnone]
      rfl
  simp only [statements, maskMagics?_join hplain, htokens]
  rw [lines_join hplain, rows_join_concat hplain, statementsByLine_rowEnd h, hlast, List.append_nil]

/-- A line with nothing but a comment, or with nothing at all, gives no statement. -/
theorem LineTokens.statementsOf_eq_nil (h : LineTokens line row alone)
    (hline : line = [] ∨ line.head? = some '#') : statementsOf line n alone = [] := by
  rw [h.statementsOf_eq]
  cases h with
  | @blank e m _ he =>
    have hrow := @Assembly.step_idle line n e [] (.inl he)
    simp only [Assembly.run, hrow, List.append_nil]
  | @comment c e e' m _ hc _ he =>
    have hcomment := @Assembly.step_idle_comment line n c [] hc
    have hrow := @Assembly.step_idle line n e [c.text] (.inl he)
    simp only [Assembly.run, hcomment, List.nil_append, hrow]
  | code hne hcode => exact absurd hline (not_or.2 ⟨hne, hcode⟩)

/-- The lines with those for comments emptied. -/
def withoutCommentLines (ls : List Text) : List Text :=
  ls.map fun l => if l.head? = some '#' then [] else l

/-- A source with a line behind it that opens a bracket and does not close it. -/
def withOpenBracket (t : Text) : Text := t ++ ['\n', '(']

theorem standsAlone_nil : StandsAlone [] := ⟨⟨by simp, by simp⟩, by simp, rfl⟩

theorem standsAlone_withoutCommentLines (h : ∀ l ∈ ls, StandsAlone l) :
    ∀ l ∈ withoutCommentLines ls, StandsAlone l := by
  intro l hl
  obtain ⟨l', hl', rfl⟩ := List.mem_map.1 hl
  split
  · exact standsAlone_nil
  · exact h l' hl'

/-- Line by line, comments on lines of their own make no difference. -/
theorem statementsByLine_withoutCommentLines (h : ∀ l ∈ ls, StandsAlone l) :
    statementsByLine k (withoutCommentLines ls) = statementsByLine k ls := by
  induction ls generalizing k with
  | nil => rfl
  | cons line ls ih =>
    rw [List.forall_mem_cons] at h
    obtain ⟨row, alone, hline, -, halone⟩ := h.1.lineTokens
    have ih := @ih (k + 1) h.2
    unfold withoutCommentLines at ih ⊢
    rw [statementsByLine_cons h.1 halone, List.map_cons]
    split
    next hcomment =>
      rw [statementsByLine_cons standsAlone_nil rfl, ih, hline.statementsOf_eq_nil (.inr hcomment)]
      rfl
    next => rw [statementsByLine_cons h.1 halone, ih]

/-- No line is left for a comment. -/
theorem not_isCommentLine_withoutCommentLines (c : Text) :
    ¬IsCommentLine (withoutCommentLines ls) c := by
  rintro ⟨hc, hmark⟩
  obtain ⟨l, -, rfl⟩ := List.mem_map.1 hc
  split at hmark
  · contradiction
  next hl => exact hl hmark

theorem withOpenBracket_join (hne : ls ≠ []) :
    withOpenBracket (join ['\n'] ls) = join ['\n'] (ls ++ [['(']]) :=
  (join_concat ['\n'] ['('] hne).symm

/-- With an open bracket below them lines are lexed one by one. -/
theorem statements_withOpenBracket (h : ∀ l ∈ ls, StandsAlone l) :
    tokens? (withOpenBracket (join ['\n'] ls)) = none ∧
      statements (withOpenBracket (join ['\n'] ls)) = statementsByLine 0 ls := by
  have hplain : IsPlainLine ['('] := ⟨by simp [isLineBreak], by simp [isBlank]⟩
  have hopen : tokens? ['('] = none := by decide
  cases ls with
  | nil =>
    -- The empty source is that of one empty line.
    have hone : ∀ l ∈ [([] : Text)], StandsAlone l := by simpa using standsAlone_nil
    exact statements_join_broken hone hplain hopen
  | cons line ls =>
    rw [withOpenBracket_join (by simp)]
    exact statements_join_broken h hplain hopen

/-- Whether lines are lexed as a whole, or one by one because of an open bracket below them, their
statements are read alike. Only as a whole they have leading comments, which are lines of
their own. -/
theorem reads_statements (h : ∀ l ∈ ls, StandsAlone l) :
    (tokens? (join ['\n'] ls)).isSome ∧
    List.Forall₂ Statement.Reads (statements (join ['\n'] ls))
      (statements (withOpenBracket (join ['\n'] ls))) ∧
    (∀ s ∈ statements (join ['\n'] ls), ∀ c ∈ s.leading, IsCommentLine ls c) ∧
    ∀ s ∈ statements (withOpenBracket (join ['\n'] ls)), s.leading = [] := by
  rw [(statements_withOpenBracket h).2]
  cases ls with
  | nil =>
    have hnil : statements (join ['\n'] []) = [] := rfl
    exact ⟨rfl, .nil, by simp [hnil], by simp [statementsByLine]⟩
  | cons line ls =>
    obtain ⟨htokens, hreads, hleading⟩ := reads_statements_join h (by simp)
    exact ⟨htokens, hreads, hleading, leading_statementsByLine h⟩

end VariableReport.Source
