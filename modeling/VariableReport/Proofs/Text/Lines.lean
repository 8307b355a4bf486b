import VariableReport.Text.Lines

/-!
# Rows and lines of a text

A row holds a line feed at its end or nowhere, and only the last row of a text may be without
one. Both facts are stated by what follows a line feed, so that they pass to every
end of a row. The lines of a text are told in the same way (`areLined_lines`): a boundary ends each
of them but perhaps the last, and no line holds another one.
-/

namespace VariableReport.Text

/-- Nothing follows a line feed. -/
def IsRow (t : Text) : Prop := ∀ a b, t = a ++ '\n' :: b → b = []

/-- The rows of a text: all but the last one end with a line feed. -/
inductive AreRows : List Text → Prop
  | nil : AreRows []
  | last {row : Text} : '\n' ∉ row → AreRows [row]
  | cons {row : Text} {rows : List Text} : '\n' ∉ row → AreRows rows →
      AreRows ((row ++ ['\n']) :: rows)

variable {t : Text} {c : Char}

theorem isRow_of_not_mem (h : '\n' ∉ t) : IsRow t := by
  intro a b heq
  subst heq
  simp at h

theorem isRow_append (h : '\n' ∉ t) : IsRow (t ++ ['\n']) := by
  intro a b hab
  rcases List.append_eq_append_iff.1 hab with ⟨u, rfl, hu⟩ | ⟨u, rfl, hu⟩
  · cases u with
    | nil => simpa using hu
    | cons x u => simp at hu
  · cases u with
    | nil => simpa using hu.symm
    | cons x u =>
      obtain ⟨rfl, -⟩ := List.cons.inj hu
      simp at h

theorem IsRow.drop (h : IsRow t) (n : Nat) : IsRow (t.drop n) := by
  intro a b hab
  refine h (t.take n ++ a) b ?_
  rw [List.append_assoc, ← hab, List.take_append_drop]

theorem IsRow.tail (h : IsRow (c :: t)) : IsRow t := h.drop 1

theorem IsRow.eq_nil (h : IsRow ('\n' :: t)) : t = [] := h [] t rfl

theorem areRows_attach (hc : c ≠ '\n') {rows : List Text} (h : AreRows rows) :
    AreRows (attach c rows) := by
  have hm {row : Text} (hr : '\n' ∉ row) : '\n' ∉ c :: row := by simp [hr, Ne.symm hc]
  cases h with
  | nil => exact .last (hm (by simp))
  | last hr => exact .last (hm hr)
  | cons hr h => exact .cons (hm hr) h

theorem areRows_rows (t : Text) : AreRows (rows t) := by
  induction t with
  | nil => exact .nil
  | cons c t ih =>
    rw [rows]
    split
    next hc =>
      subst hc
      exact @AreRows.cons [] _ (by simp) ih
    next hc => exact areRows_attach hc ih

/-- A row holds a line feed at its end or nowhere. -/
theorem AreRows.cases_of_mem {rows : List Text} {row : Text} (h : AreRows rows) (hm : row ∈ rows) :
    '\n' ∉ row ∨ ∃ r, '\n' ∉ r ∧ row = r ++ ['\n'] := by
  induction h with
  | nil => contradiction
  | last hr => exact .inl (by rwa [List.mem_singleton.1 hm])
  | cons hr _ ih =>
    rcases List.mem_cons.1 hm with rfl | hm
    · exact .inr ⟨_, hr, rfl⟩
    · exact ih hm

theorem attach_append (c : Char) {pieces : List Text} (h : pieces ≠ []) (others : List Text) :
    attach c (pieces ++ others) = attach c pieces ++ others := by
  cases pieces with
  | nil => contradiction
  | cons piece pieces => rfl

theorem mem_of_mem_row {row : Text} (h : row ∈ rows t) (hc : c ∈ row) : c ∈ t := by
  rw [← flatten_rows t]
  exact List.mem_flatten.2 ⟨row, h, hc⟩

/-- A line without boundaries is bare, with and without a line feed at its end. -/
theorem bareLine_eq_self (h : ∀ c ∈ t, isLineBreak c = false) : bareLine t = t := by
  rw [bareLine, List.filter_eq_self]
  exact fun c hc => by simp [h c hc]

theorem bareLine_rowEnd (h : ∀ c ∈ t, isLineBreak c = false) : bareLine (t ++ ['\n']) = t := by
  have hself := bareLine_eq_self h
  unfold bareLine at hself ⊢
  rw [List.filter_append, hself]
  simp [isLineBreak]

theorem rows_append {row : Text} (h : '\n' ∉ row) (t : Text) :
    rows (row ++ '\n' :: t) = (row ++ ['\n']) :: rows t := by
  induction row with
  | nil => simp [rows]
  | cons c row ih =>
    simp only [List.mem_cons, not_or] at h
    rw [List.cons_append, rows, if_neg (Ne.symm h.1), ih h.2, attach, List.cons_append]

theorem rows_of_not_mem (hne : t ≠ []) (h : '\n' ∉ t) : rows t = [t] := by
  have hrows := areRows_rows t
  have hflat := flatten_rows t
  cases hr : rows t with
  | nil => simp_all
  | cons row rest =>
    rw [hr] at hrows hflat
    cases hrows with
    | last => simpa using hflat
    | cons =>
      rw [← hflat] at h
      simp at h

/-- Without carriage returns there is no other line end to unify. -/
theorem unifyLineEnds_eq_self (h : '\r' ∉ t) : unifyLineEnds t = t := by
  induction t with
  | nil => rfl
  | cons c t ih =>
    simp only [List.mem_cons, not_or] at h
    rw [unifyLineEnds, if_neg (Ne.symm h.1), ih h.2]

/-- Without line feeds in it, what stands at the start of the unified text stood there before. -/
theorem prefix_of_prefix_unifyLineEnds {u : Text} (hu : '\n' ∉ u) (h : u <+: unifyLineEnds t) :
    u <+: t := by
  have hnil {u s : Text} (hu : '\n' ∉ u) (h : u <+: '\n' :: s) : u = [] := by
    cases u with
    | nil => rfl
    | cons c u =>
      obtain ⟨rfl, -⟩ := List.cons_prefix_cons.1 h
      simp at hu
  induction t generalizing u with
  | nil => exact h
  | cons c t ih =>
    rw [unifyLineEnds] at h
    split at h
    next =>
      split at h
      next hhead =>
        obtain ⟨s, rfl⟩ := List.head?_eq_some_iff.1 hhead
        rw [unifyLineEnds, if_neg (by decide)] at h
        rw [hnil hu h]
        exact List.nil_prefix
      next =>
        rw [hnil hu h]
        exact List.nil_prefix
    next =>
      rcases List.prefix_cons_iff.1 h with rfl | ⟨s, rfl, hs⟩
      · exact List.nil_prefix
      · simp only [List.mem_cons, not_or] at hu
        exact List.cons_prefix_cons.2 ⟨rfl, ih hu.2 hs⟩

theorem infix_of_infix_unifyLineEnds {u : Text} (hu : '\n' ∉ u) (h : u <:+: unifyLineEnds t) :
    u <:+: t := by
  induction t with
  | nil => exact h
  | cons c t ih =>
    by_cases hc : u <+: unifyLineEnds (c :: t)
    · exact (prefix_of_prefix_unifyLineEnds hu hc).isInfix
    · refine (ih ?_).trans (List.suffix_cons c t).isInfix
      rw [unifyLineEnds] at h hc
      split at h
      next =>
        split at h
        next => exact h
        next hhead =>
          rw [if_pos ‹_›, if_neg hhead] at hc
          exact (List.infix_cons_iff.1 h).resolve_left hc
      next hne =>
        rw [if_neg hne] at hc
        exact (List.infix_cons_iff.1 h).resolve_left hc

/-- A text has a row for each of its line feeds. -/
theorem count_le_length_rows (t : Text) : t.count '\n' ≤ (rows t).length := by
  induction t with
  | nil => simp
  | cons c t ih =>
    rw [rows]
    split
    next hc => simpa [hc] using ih
    next hc =>
      rw [List.count_cons_of_ne (by simpa using hc)]
      cases hr : rows t with
      | nil => rw [hr] at ih; simp_all
      | cons row rows => rw [hr] at ih; simpa [attach] using ih

/-- Pieces with a line feed at their ends and nowhere else are the rows of the joined text. -/
theorem rows_flatten {ls : List Text} (h : ∀ l ∈ ls, ∃ r, '\n' ∉ r ∧ l = r ++ ['\n']) :
    rows ls.flatten = ls := by
  induction ls with
  | nil => rfl
  | cons l ls ih =>
    rw [List.forall_mem_cons] at h
    obtain ⟨⟨r, hr, rfl⟩, h⟩ := h
    rw [List.flatten_cons, List.append_assoc, List.singleton_append, rows_append hr, ih h]

theorem length_le_count_flatten {ls : List Text} (h : ∀ l ∈ ls, c ∈ l) :
    ls.length ≤ ls.flatten.count c := by
  induction ls with
  | nil => exact Nat.le_refl _
  | cons l ls ih =>
    rw [List.forall_mem_cons] at h
    have hfirst : 0 < l.count c := List.count_pos_iff.2 h.1
    have hrest := ih h.2
    rw [List.flatten_cons, List.count_append, List.length_cons]
    omega

/-- With no more line feeds than pieces, each of which has one, each of them has just one. -/
theorem count_eq_one_of_count_flatten {ls : List Text} (h : ∀ l ∈ ls, c ∈ l)
    (hcount : ls.flatten.count c ≤ ls.length) : ∀ l ∈ ls, l.count c = 1 := by
  induction ls with
  | nil => simp
  | cons l ls ih =>
    rw [List.forall_mem_cons] at h ⊢
    have hfirst : 0 < l.count c := List.count_pos_iff.2 h.1
    have hrest := length_le_count_flatten h.2
    rw [List.flatten_cons, List.count_append, List.length_cons] at hcount
    exact ⟨by omega, ih h.2 (by omega)⟩

/-- Pieces with line feeds at their ends are the rows of the joined text if it has no more rows. -/
theorem rows_flatten_of_length {ls : List Text} (h : ∀ l ∈ ls, ∃ r, l = r ++ ['\n'])
    (hlength : (rows ls.flatten).length ≤ ls.length) : rows ls.flatten = ls := by
  refine rows_flatten fun l hl => ?_
  obtain ⟨r, rfl⟩ := h l hl
  have hfeed : ∀ l ∈ ls, '\n' ∈ l := by
    intro l hl
    obtain ⟨r, rfl⟩ := h l hl
    simp
  have hcount : ls.flatten.count '\n' ≤ ls.length := Nat.le_trans (count_le_length_rows _) hlength
  have hone := count_eq_one_of_count_flatten hfeed hcount _ hl
  rw [List.count_append, List.count_singleton_self, Nat.add_eq_right] at hone
  exact ⟨r, List.count_eq_zero.1 hone, rfl⟩

theorem lineFeed_not_mem (h : ∀ c ∈ t, isLineBreak c = false) : '\n' ∉ t :=
  fun hm => absurd (h '\n' hm) (by decide)

/-- What ends a line. -/
inductive IsLineEnd : Text → Prop
  | single {c : Char} : isLineBreak c = true → IsLineEnd [c]
  | double : IsLineEnd ['\r', '\n']

/-- The lines of a text: all but the last one end with a boundary. -/
inductive AreLined : List Text → Prop
  | nil : AreLined []
  | last {line : Text} : (∀ c ∈ line, isLineBreak c = false) → AreLined [line]
  | cons {line stop : Text} {lines : List Text} : (∀ c ∈ line, isLineBreak c = false) →
      IsLineEnd stop → AreLined lines → AreLined ((line ++ stop) :: lines)

theorem areLined_attach (hc : isLineBreak c = false) {lines : List Text} (h : AreLined lines) :
    AreLined (attach c lines) := by
  have hbare {line : Text} (hl : ∀ d ∈ line, isLineBreak d = false) :
      ∀ d ∈ c :: line, isLineBreak d = false := List.forall_mem_cons.2 ⟨hc, hl⟩
  cases h with
  | nil => exact .last (hbare (by simp))
  | last hl => exact .last (hbare hl)
  | cons hl hstop h => exact .cons (hbare hl) hstop h

theorem AreLined.tail {lines : List Text} (h : AreLined lines) : AreLined lines.tail := by
  cases h with
  | nil => exact .nil
  | last _ => exact .nil
  | cons _ _ h => exact h

theorem areLined_lines (t : Text) : AreLined (lines t) := by
  induction t with
  | nil => exact .nil
  | cons c t ih =>
    rw [lines]
    split
    next hpair =>
      -- The line feed would end a line of its own and ends the line of the carriage return.
      rw [Bool.and_eq_true, decide_eq_true_eq, decide_eq_true_eq] at hpair
      obtain ⟨rfl, hhead⟩ := hpair
      obtain ⟨u, rfl⟩ := List.head?_eq_some_iff.1 hhead
      have hfeed : lines ('\n' :: u) = ['\n'] :: lines u := by simp [lines, isLineBreak]
      rw [hfeed] at ih ⊢
      exact @AreLined.cons [] _ _ (by simp) .double ih.tail
    next hpair =>
      by_cases hc : isLineBreak c = true
      · rw [if_pos hc]
        exact @AreLined.cons [] _ _ (by simp) (.single hc) ih
      · rw [if_neg hc]
        exact areLined_attach (Bool.eq_false_iff.2 hc) ih

/-- A line feed ends a line wherever it stands. -/
theorem IsLineEnd.isRow {line stop : Text} (h : IsLineEnd stop)
    (hline : ∀ c ∈ line, isLineBreak c = false) : IsRow (line ++ stop) := by
  have hfeed := lineFeed_not_mem hline
  cases h with
  | @single c _ =>
    by_cases hc : c = '\n'
    · subst hc
      exact isRow_append hfeed
    · exact isRow_of_not_mem (by simp [hfeed, Ne.symm hc])
  | double =>
    rw [List.append_cons line '\r']
    exact isRow_append (by simp [hfeed])

theorem AreLined.isRow {ls : List Text} (h : AreLined ls) : ∀ l ∈ ls, IsRow l := by
  induction h with
  | nil => simp
  | last hline => simpa using isRow_of_not_mem (lineFeed_not_mem hline)
  | cons hline hstop _ ih => exact List.forall_mem_cons.2 ⟨hstop.isRow hline, ih⟩

/-- The first row of a text, with its line feed. -/
def firstRow : Text → Text
  | [] => []
  | c :: cs => if c = '\n' then [c] else c :: firstRow cs

/-- What stands below the first row. -/
def below (t : Text) : Text := t.drop (firstRow t).length

variable {u : Text}

theorem firstRow_append_of_not_mem (h : '\n' ∉ t) (u : Text) :
    firstRow (t ++ u) = t ++ firstRow u := by
  induction t with
  | nil => rfl
  | cons c t ih =>
    simp only [List.mem_cons, not_or] at h
    rw [List.cons_append, firstRow, if_neg (Ne.symm h.1), ih h.2, List.cons_append]

theorem below_append_of_not_mem (h : '\n' ∉ t) (u : Text) : below (t ++ u) = below u := by
  rw [below, firstRow_append_of_not_mem h, List.length_append, ← List.drop_drop, List.drop_left]
  rfl

theorem firstRow_eq_self (h : '\n' ∉ t) : firstRow t = t := by
  have := firstRow_append_of_not_mem h []
  rwa [List.append_nil, firstRow, List.append_nil] at this

theorem firstRow_rowEnd (h : '\n' ∉ t) (u : Text) : firstRow (t ++ '\n' :: u) = t ++ ['\n'] := by
  rw [firstRow_append_of_not_mem h]
  rfl

theorem below_rowEnd (h : '\n' ∉ t) (u : Text) : below (t ++ '\n' :: u) = u := by
  rw [below_append_of_not_mem h]
  rfl

theorem below_eq_nil (h : '\n' ∉ t) : below t = [] := by
  rw [below, firstRow_eq_self h, List.drop_length]

/-- The first row of a text ends with its first line feed, or it is the whole text. -/
theorem firstRow_cases (t : Text) : '\n' ∉ t ∨ ∃ r u, '\n' ∉ r ∧ t = r ++ '\n' :: u := by
  by_cases h : '\n' ∈ t
  · obtain ⟨r, u, rfl, hr⟩ := List.eq_append_cons_of_mem h
    exact .inr ⟨r, u, hr, rfl⟩
  · exact .inl h

theorem firstRow_append_below (t : Text) : firstRow t ++ below t = t := by
  rcases firstRow_cases t with h | ⟨r, u, hr, rfl⟩
  · rw [firstRow_eq_self h, below_eq_nil h, List.append_nil]
  · rw [firstRow_rowEnd hr, below_rowEnd hr, List.append_assoc, List.singleton_append]

theorem isRow_firstRow (t : Text) : IsRow (firstRow t) := by
  rcases firstRow_cases t with h | ⟨r, u, hr, rfl⟩
  · rw [firstRow_eq_self h]
    exact isRow_of_not_mem h
  · rw [firstRow_rowEnd hr]
    exact isRow_append hr

theorem rows_eq_cons (h : t ≠ []) : rows t = firstRow t :: rows (below t) := by
  rcases firstRow_cases t with hm | ⟨r, u, hr, rfl⟩
  · rw [rows_of_not_mem h hm, firstRow_eq_self hm, below_eq_nil hm]
    rfl
  · rw [firstRow_rowEnd hr, below_rowEnd hr, rows_append hr]

theorem firstRow_ne_nil (h : t ≠ []) : firstRow t ≠ [] := by
  obtain ⟨c, t, rfl⟩ := List.exists_cons_of_ne_nil h
  rw [firstRow]
  split <;> simp

theorem head?_firstRow (t : Text) : (firstRow t).head? = t.head? := by
  cases t with
  | nil => rfl
  | cons c t =>
    rw [firstRow]
    split <;> rfl

end VariableReport.Text
