import VariableReport.Proofs.Notebook.Definition
import VariableReport.Proofs.Source.Assembly
import VariableReport.Proofs.Source.Magic
import VariableReport.Proofs.Text.Blank

/-!
# Expressions as written

The expression of a definition is cut from the masked source of its cell, or from one line of
it. It therefore stands in the masked source, and it stands in the same place of the cell
exactly when it reaches no line for the shell (`expression_standsAt`). An expression on one
row always does. A row of a string that begins with a percent sign is taken for such a line,
so the expression around it is not the one that was written.
-/

namespace VariableReport

namespace Source
open Text

variable {t m u : Text} {p : Position} {s : Statement}

theorem source_of_mem_statementsOf {n : Nat} {ts : List Token} (hs : s ∈ statementsOf t n ts) :
    s.source = t := by
  have hnew : ({} : Assembly).Holds t n (fun _ => True) (fun _ => True) :=
    ⟨by simp, by simp, by simp⟩
  exact (hnew.assemble (by simp) (by simp) s hs).source_eq

/-- A statement of a text that is read line by line is one of a line. -/
theorem mem_statementsByLine {n : Nat} {lines : List Text} (hs : s ∈ statementsByLine n lines) :
    ∃ line ∈ lines, ∃ ts k, tokens? (bareLine line) = some ts ∧
      s ∈ statementsOf (bareLine line) k ts := by
  induction lines generalizing n with
  | nil => contradiction
  | cons line lines ih =>
    rw [statementsByLine] at hs
    rcases List.mem_append.1 hs with hs | hs
    · split at hs
      next ts hts => exact ⟨line, by simp, ts, n, hts, hs⟩
      next => contradiction
    · obtain ⟨line', hm, hline⟩ := ih hs
      exact ⟨line', by simp [hm], hline⟩

theorem source_of_mem_statementsByLine {n : Nat} {lines : List Text}
    (hs : s ∈ statementsByLine n lines) : ∃ line ∈ lines, s.source = bareLine line := by
  obtain ⟨line, hline, ts, k, -, hs⟩ := mem_statementsByLine hs
  exact ⟨line, hline, source_of_mem_statementsOf hs⟩

/-- Masking adds no line boundary but the line feed. -/
theorem isLineBreak_of_mem_masked (hb : ∀ c ∈ t, isLineBreak c = true → c = '\n')
    (hm : maskMagics? t = some m) : ∀ c ∈ m, isLineBreak c = true → c = '\n' := by
  intro c hc hbreak
  rw [maskMagics?_eq_some hb hm, List.mem_flatten] at hc
  obtain ⟨masked, hmasked, hc⟩ := hc
  obtain ⟨row, hrow, rfl⟩ := List.mem_map.1 hmasked
  cases hs : isShellLine row with
  | false =>
    rw [maskLine_eq_self hs] at hc
    exact hb c (mem_of_mem_row hrow hc) hbreak
  | true =>
    rw [maskLine, if_pos hs] at hc
    split at hc
    · exact List.mem_singleton.1 hc
    · contradiction

/-- A bare line is what its line begins with. -/
theorem isPrefix_bareLine {line : Text} (hb : ∀ c ∈ m, isLineBreak c = true → c = '\n')
    (h : line ∈ lines m) : bareLine line <+: line := by
  rw [lines_eq_rows hb] at h
  have hbare {r : Text} (hr : '\n' ∉ r) (hsub : ∀ c ∈ r, c ∈ line) :
      ∀ c ∈ r, isLineBreak c = false := by
    intro c hc
    by_contra hbreak
    have := hb c (mem_of_mem_row h (hsub c hc)) (by simpa using hbreak)
    exact hr (this ▸ hc)
  rcases (areRows_rows m).cases_of_mem h with hr | ⟨r, hr, rfl⟩
  · have hself : bareLine line = line := bareLine_eq_self (hbare hr fun c hc => hc)
    exact ⟨[], by rw [List.append_nil, hself]⟩
  · rw [bareLine_rowEnd (hbare hr fun c hc => by simp [hc])]
    exact List.prefix_append r _

/-- A bare line is a piece of its text. -/
theorem infix_bareLine {line : Text} (hb : ∀ c ∈ m, isLineBreak c = true → c = '\n')
    (h : line ∈ lines m) : bareLine line <:+: m := by
  have hline := List.infix_of_mem_flatten h
  rw [flatten_lines] at hline
  exact (isPrefix_bareLine hb h).isInfix.trans hline

/-- The source of a statement is a piece of the masked source. -/
theorem infix_source (hb : ∀ c ∈ t, isLineBreak c = true → c = '\n') (hs : s ∈ statements t) :
    ∃ m, maskMagics? t = some m ∧ s.source <:+: m := by
  unfold statements at hs
  split at hs
  · contradiction
  next m hm =>
    refine ⟨m, hm, ?_⟩
    split at hs
    · have hsource := source_of_mem_statementsOf hs
      exact hsource ▸ List.infix_rfl
    · obtain ⟨line, hline, hsource⟩ := source_of_mem_statementsByLine hs
      rw [hsource]
      exact infix_bareLine (isLineBreak_of_mem_masked hb hm) hline

theorem infix_slice (t : Text) (start stop : Nat) : slice t start stop <:+: t :=
  (List.take_prefix _ _).isInfix.trans (List.drop_suffix _ _).isInfix

/-- The right-hand side is a piece of the statement's source with no white space at its ends. -/
theorem rhs_of_assignment? {name rhs : Text} (h : assignment? s = some (name, rhs)) :
    rhs <:+: s.source ∧ IsTrimmed rhs ∧ rhs ≠ [] := by
  unfold assignment? at h
  split at h
  · contradiction
  simp only [Option.bind_eq_bind, Option.bind_eq_some_iff] at h
  obtain ⟨target, -, i, -, first, -, last, -, h⟩ := h
  split at h
  · contradiction
  next hempty =>
    obtain ⟨-, rfl⟩ := Prod.mk.inj (Option.some.inj h)
    exact ⟨(infix_trim _).trans (infix_slice _ _ _), isTrimmed_trim _, by simpa using hempty⟩

theorem exists_standsAt (h : u <:+: t) : ∃ p, StandsAt t p u := by
  obtain ⟨pre, post, rfl⟩ := h
  exact ⟨_, pre, post, by simp, rfl⟩

theorem IsTrimmed.ne_rowEnd (h : IsTrimmed u) : u.head? ≠ some '\n' ∧ u.getLast? ≠ some '\n' := by
  have hblank : ¬isBlank '\n' = false := by decide
  exact ⟨fun hc => hblank (h.1 _ hc), fun hc => hblank (h.2 _ hc)⟩

end Source

namespace Notebook
open Source Text

variable {cells : List Cell} {ds : List Definition} {d : Definition}

/-- The expression of a definition stands in the masked source of a code cell. In the same place
of the cell it stands exactly when it reaches no line for the shell. -/
theorem expression_standsAt (h : definitions cells = .ok ds) (hd : d ∈ ds) :
    ∃ c t, cells[d.cellIndex]? = some c ∧ c.kind = .code ∧ c.code = .ok t ∧
      ((∀ c ∈ t, isLineBreak c = true → c = '\n') → ∃ m, maskMagics? t = some m ∧
        (∃ p, StandsAt m p d.expression) ∧
        (∀ p, StandsAt m p d.expression →
          (StandsAt t p d.expression ↔ ∀ row ∈ reachedRows t p d.expression, isShellLine row = false)) ∧
        ('\n' ∉ d.expression → d.expression <:+: t)) := by
  obtain ⟨c, hc, hk, t, ht, s, hs, hdef⟩ := statement_of_mem_definitions h hd
  obtain ⟨⟨name, rhs⟩, hassign, hd'⟩ := Option.map_eq_some_iff.1 hdef
  obtain rfl : rhs = d.expression := congrArg Definition.expression hd'
  refine ⟨c, t, hc, hk, ht, fun hb => ?_⟩
  obtain ⟨m, hm, hsource⟩ := infix_source hb hs
  obtain ⟨hrhs, htrim, hne⟩ := rhs_of_assignment? hassign
  obtain ⟨hfirst, hlast⟩ := IsTrimmed.ne_rowEnd htrim
  obtain ⟨p, hp⟩ := exists_standsAt (hrhs.trans hsource)
  refine ⟨m, hm, ⟨p, hp⟩, fun q hq => standsAt_iff_of_maskMagics? hb hm hne hfirst hlast hq, ?_⟩
  intro hrow
  obtain ⟨pre, post, ht, -⟩ := standsAt_of_not_mem hb hm hne hrow hp
  exact ⟨pre, post, by rw [ht, List.append_assoc]⟩

/-- A text on three rows, the middle one of which looks like a line for the shell. -/
def percentSource : Text := "x = \x27\x27\x27\n%d\n\x27\x27\x27\ny = (1,\n2)".toList

theorem definitions_percentSource : definitions [Cell.ofText .code percentSource] = .ok
    [⟨"x".toList, "\x27\x27\x27\n\n\x27\x27\x27".toList, 0, 1⟩,
      ⟨"y".toList, "(1,\n2)".toList, 0, 4⟩] := by
  have hcell : cellDefinitions 0 (Cell.ofText .code percentSource) =
      .ok ((statements percentSource).filterMap (definition? 0)) := rfl
  have hstatements : (statements percentSource).filterMap (definition? 0) =
      [⟨"x".toList, "\x27\x27\x27\n\n\x27\x27\x27".toList, 0, 1⟩,
        ⟨"y".toList, "(1,\n2)".toList, 0, 4⟩] := by decide +kernel
  rw [definitions, definitionsFrom, hcell, hstatements]
  rfl

/-- The tuple of the last two rows stands where it was written. -/
theorem expression_standsAt_tuple : ∃ ds, definitions [Cell.ofText .code percentSource] = .ok ds ∧
    ∃ d ∈ ds, d.name = "y".toList ∧ StandsAt percentSource ⟨4, 4⟩ d.expression := by
  have hd : (⟨"y".toList, "(1,\n2)".toList, 0, 4⟩ : Definition) ∈
      [⟨"x".toList, "\x27\x27\x27\n\n\x27\x27\x27".toList, 0, 1⟩,
        ⟨"y".toList, "(1,\n2)".toList, 0, 4⟩] := by simp
  obtain ⟨c, t, hc, -, ht, hplaces⟩ := expression_standsAt definitions_percentSource hd
  obtain rfl : Cell.ofText .code percentSource = c := Option.some.inj hc
  obtain rfl : percentSource = t := Except.ok.inj ht
  have hb : ∀ c ∈ percentSource, isLineBreak c = true → c = '\n' := by
    have hall : percentSource.all (fun c => !isLineBreak c || c = '\n') = true := by decide +kernel
    simpa [imp_iff_not_or] using hall
  obtain ⟨m, hm, -, hiff, -⟩ := hplaces hb
  have hmasked : maskMagics? percentSource =
      some "x = \x27\x27\x27\n\n\x27\x27\x27\ny = (1,\n2)".toList := by decide +kernel
  obtain rfl := Option.some.inj (hm.symm.trans hmasked)
  have hplace : StandsAt "x = \x27\x27\x27\n\n\x27\x27\x27\ny = (1,\n2)".toList ⟨4, 4⟩
      "(1,\n2)".toList :=
    ⟨"x = \x27\x27\x27\n\n\x27\x27\x27\ny = ".toList, [], by decide, by decide⟩
  exact ⟨_, definitions_percentSource, _, hd, rfl, (hiff _ hplace).2 (by decide +kernel)⟩

/-- The row with the percent sign is missing from the text that was written over it. -/
theorem expression_not_infix_over_percent :
    ∃ ds, definitions [Cell.ofText .code percentSource] = .ok ds ∧
      ∃ d ∈ ds, ¬d.expression <:+: percentSource :=
  ⟨_, definitions_percentSource, ⟨"x".toList, "\x27\x27\x27\n\n\x27\x27\x27".toList, 0, 1⟩,
    by simp, by decide +kernel⟩

end Notebook

end VariableReport
