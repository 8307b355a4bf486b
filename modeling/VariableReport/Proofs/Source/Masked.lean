import VariableReport.Proofs.Source.Magic

/-!
# The rows of a masked source

Of a line for the shell nothing is left but its line feed (`maskLine_eq_replicate`), so that masking
keeps the number of rows. A line that ends otherwise goes together with its boundary, and the
boundary above it may then meet a line feed below, with which it is one. This makes no new line for
the shell. Such a line is told by what follows a boundary and blanks (`ShellFree`), and all
boundaries are blanks themselves, so it makes no difference where between blanks the lines are cut.
A masked source therefore stays as it is when it is masked again (`maskMagics?_maskMagics?`).
-/

namespace VariableReport

namespace Text

variable {stop : Text} {c : Char}

theorem isBlank_of_isLineBreak (h : isLineBreak c = true) : isBlank c = true := by
  simp only [isLineBreak, isBlank, Bool.or_eq_true, Bool.and_eq_true, decide_eq_true_eq] at h ⊢
  omega

theorem IsLineEnd.isBlank (h : IsLineEnd stop) : ∀ c ∈ stop, isBlank c = true := by
  cases h with
  | single hc => simpa using isBlank_of_isLineBreak hc
  | double => exact List.all_eq_true.1 (by decide)

end Text

namespace Source
open Text

variable {t u m line stop : Text} {c : Char} {fresh : Bool} {ls : List Text}

/-! ### Line feeds -/

/-- Nothing but its line feed is left of a line for the shell. -/
theorem maskLine_eq_replicate (hrow : IsRow t) (h : isShellLine t = true) :
    maskLine t = List.replicate (t.count '\n') '\n' := by
  rcases firstRow_cases t with hfeed | ⟨r, u, hr, rfl⟩
  · rw [maskLine_of_not_mem hfeed h, List.count_eq_zero.2 hfeed]
    rfl
  · obtain rfl : u = [] := hrow r u rfl
    rw [maskLine_rowEnd h, List.count_append, List.count_eq_zero.2 hr]
    rfl

theorem count_maskLine (hrow : IsRow t) : (maskLine t).count '\n' = t.count '\n' := by
  cases h : isShellLine t with
  | false => rw [maskLine_eq_self h]
  | true => rw [maskLine_eq_replicate hrow h, List.count_replicate_self]

theorem count_mask (t : Text) : ((lines t).map maskLine).flatten.count '\n' = t.count '\n' := by
  have hrows := (areLined_lines t).isRow
  calc ((lines t).map maskLine).flatten.count '\n'
      = ((lines t).map fun line => (maskLine line).count '\n').sum := by
        rw [List.count_flatten, List.map_map]
        rfl
    _ = ((lines t).map fun line => line.count '\n').sum := by
        rw [List.map_congr_left fun line hline => count_maskLine (hrows line hline)]
    _ = t.count '\n' := by rw [← List.count_flatten, flatten_lines]

/-! ### Lines for the shell -/

/-- Whether nothing but blanks stands behind the last boundary, one character on. -/
def freshBehind (fresh : Bool) (c : Char) : Bool := isLineBreak c || fresh && isBlank c

def freshAfter (fresh : Bool) (t : Text) : Bool := t.foldl freshBehind fresh

/-- No mark of the shell is the first character of its line that is no blank. What stands in front
of the text on its first line is blank if `fresh` is true. -/
def ShellFree : Bool → Text → Prop
  | _, [] => True
  | fresh, c :: t => (fresh = true → c ≠ '%' ∧ c ≠ '!') ∧ ShellFree (freshBehind fresh c) t

theorem shellFree_append :
    ShellFree fresh (t ++ u) ↔ ShellFree fresh t ∧ ShellFree (freshAfter fresh t) u := by
  induction t generalizing fresh with
  | nil => exact (and_iff_right trivial).symm
  | cons c t ih => exact (and_congr_right fun _ => ih).trans and_assoc.symm

theorem not_isShellMark_of_isBlank (h : isBlank c = true) : c ≠ '%' ∧ c ≠ '!' := by
  constructor <;> rintro rfl <;> exact absurd h (by decide)

theorem shellFree_blanks (h : ∀ c ∈ t, isBlank c = true) : ShellFree fresh t := by
  induction t generalizing fresh with
  | nil => trivial
  | cons c t ih =>
    rw [List.forall_mem_cons] at h
    exact ⟨fun _ => not_isShellMark_of_isBlank h.1, ih h.2⟩

theorem freshAfter_blanks (h : ∀ c ∈ t, isBlank c = true) : freshAfter true t = true := by
  induction t with
  | nil => rfl
  | cons c t ih =>
    rw [List.forall_mem_cons] at h
    have hc : freshBehind true c = true := by simp [freshBehind, h.1]
    exact (congrArg (freshAfter · t) hc).trans (ih h.2)

/-- Behind the end of a line a new one begins. -/
theorem freshAfter_lineEnd (h : IsLineEnd stop) : freshAfter fresh (line ++ stop) = true := by
  rw [freshAfter, List.foldl_append]
  cases h with
  | single hc => simp [freshBehind, hc]
  | double => simp [freshBehind, isLineBreak]

/-- Behind a character that is no blank a line holds no mark of the shell. -/
theorem shellFree_false (h : ∀ c ∈ line, isLineBreak c = false) : ShellFree false line := by
  induction line with
  | nil => trivial
  | cons c line ih =>
    rw [List.forall_mem_cons] at h
    have hc : freshBehind false c = false := by simp [freshBehind, h.1]
    refine ⟨by simp, ?_⟩
    rw [hc]
    exact ih h.2

theorem shellFree_bare_iff (h : ∀ c ∈ line, isLineBreak c = false) :
    ShellFree true line ↔ isShellLine line = false := by
  induction line with
  | nil => exact iff_of_true trivial rfl
  | cons c line ih =>
    rw [List.forall_mem_cons] at h
    cases hc : isBlank c with
    | true =>
      have hfresh : freshBehind true c = true := by simp [freshBehind, hc]
      rw [isShellLine_blank_cons hc, ← ih h.2, ShellFree, hfresh]
      exact and_iff_right fun _ => not_isShellMark_of_isBlank hc
    | false =>
      have hfresh : freshBehind true c = false := by simp [freshBehind, h.1, hc]
      rw [isShellLine_cons hc, ShellFree, hfresh, and_iff_left (shellFree_false h.2)]
      simp

theorem shellFree_line_iff (h : ∀ c ∈ line, isLineBreak c = false) (hstop : IsLineEnd stop) :
    ShellFree true (line ++ stop) ↔ isShellLine (line ++ stop) = false := by
  rw [shellFree_append, and_iff_left (shellFree_blanks hstop.isBlank), shellFree_bare_iff h,
    isShellLine_append_blanks hstop.isBlank]

theorem shellFree_flatten_iff (h : AreLined ls) :
    ShellFree true ls.flatten ↔ ∀ l ∈ ls, isShellLine l = false := by
  induction h with
  | nil => exact iff_of_true trivial (by simp)
  | last hline => simpa using shellFree_bare_iff hline
  | cons hline hstop _ ih =>
    rw [List.flatten_cons, shellFree_append, freshAfter_lineEnd hstop, ih,
      shellFree_line_iff hline hstop, List.forall_mem_cons]

/-- Whether a line is for the shell can be told without cutting the text into lines. -/
theorem shellFree_iff : ShellFree true t ↔ ∀ l ∈ lines t, isShellLine l = false := by
  have hiff := shellFree_flatten_iff (areLined_lines t)
  rwa [flatten_lines] at hiff

/-- Of an emptied line at most a line feed is left, and behind it a new line begins. -/
theorem shellFree_mask (h : AreLined ls) : ShellFree true (ls.map maskLine).flatten := by
  induction h with
  | nil => trivial
  | @last line hline =>
    rw [List.map_singleton, List.flatten_singleton]
    cases hs : isShellLine line with
    | false =>
      rw [maskLine_eq_self hs]
      exact (shellFree_bare_iff hline).2 hs
    | true =>
      rw [maskLine_of_not_mem (lineFeed_not_mem hline) hs]
      trivial
  | @cons line stop ls hline hstop _ ih =>
    rw [List.map_cons, List.flatten_cons, shellFree_append]
    cases hs : isShellLine (line ++ stop) with
    | false =>
      rw [maskLine_eq_self hs, freshAfter_lineEnd hstop]
      exact ⟨(shellFree_line_iff hline hstop).2 hs, ih⟩
    | true =>
      have hblank : ∀ c ∈ List.replicate ((line ++ stop).count '\n') '\n', isBlank c = true := by
        intro c hc
        rw [List.eq_of_mem_replicate hc]
        rfl
      rw [maskLine_eq_replicate (hstop.isRow hline) hs, freshAfter_blanks hblank]
      exact ⟨shellFree_blanks hblank, ih⟩

theorem maskMagics?_maskMagics? (h : maskMagics? t = some m) : maskMagics? m = some m := by
  refine maskMagics?_eq_self (shellFree_iff.1 ?_)
  rw [maskMagics?_eq_flatten h]
  exact shellFree_mask (areLined_lines t)

/-! ### Rows -/

/-- Row by row masking empties those for the shell and keeps the others. -/
theorem splitOn_mask {rs : List Text} (h : AreRows rs) :
    splitOn '\n' (rs.map maskLine).flatten =
      (splitOn '\n' rs.flatten).map fun row => if isShellLine row then [] else row := by
  induction h with
  | nil => rfl
  | @last row hrow =>
    rw [List.map_singleton, List.flatten_singleton, List.flatten_singleton,
      splitOn_of_not_mem hrow, List.map_singleton]
    cases hs : isShellLine row with
    | false => rw [maskLine_eq_self hs, splitOn_of_not_mem hrow]; rfl
    | true => rw [maskLine_of_not_mem hrow hs]; rfl
  | @cons row rs hrow _ ih =>
    have hsame : isShellLine (row ++ ['\n']) = isShellLine row :=
      isShellLine_append_blanks (by simp [isBlank])
    rw [List.map_cons, List.flatten_cons, List.flatten_cons, List.append_assoc,
      List.singleton_append, splitOn_append, List.map_append, ← ih, splitOn_of_not_mem hrow,
      List.map_singleton]
    cases hs : isShellLine row with
    | false =>
      rw [maskLine_eq_self (hsame.trans hs), List.append_assoc, List.singleton_append,
        splitOn_append, splitOn_of_not_mem hrow]
      rfl
    | true => rw [maskLine_rowEnd (hsame.trans hs), List.singleton_append]; rfl

/-- A masked source has as many line feeds as the source and is masked to itself. Where the line
feed is the only line boundary, its rows are those of the source, but for the rows for the shell,
which are empty. -/
theorem maskMagics?_rows (t m : Text) (h : maskMagics? t = some m) :
    m.count '\n' = t.count '\n' ∧ maskMagics? m = some m ∧
      ((∀ c ∈ t, isLineBreak c = true → c = '\n') →
        splitOn '\n' m = (splitOn '\n' t).map fun row => if isShellLine row then [] else row) := by
  refine ⟨?_, maskMagics?_maskMagics? h, fun hb => ?_⟩
  · rw [maskMagics?_eq_flatten h]
    exact count_mask t
  · have hsplit := splitOn_mask (areRows_rows t)
    rwa [flatten_rows, ← maskMagics?_eq_some hb h] at hsplit

/-- A row for the shell that is indented, and one at the end without a line feed. -/
def shellSource : Text := "a\n %b\n!c".toList

theorem maskMagics?_rows_shell :
    maskMagics? shellSource = some "a\n\n".toList ∧
      List.count '\n' "a\n\n".toList = shellSource.count '\n' ∧
      maskMagics? "a\n\n".toList = some "a\n\n".toList ∧
      splitOn '\n' "a\n\n".toList =
        (splitOn '\n' shellSource).map fun row => if isShellLine row then [] else row := by
  have hmask : maskMagics? shellSource = some "a\n\n".toList := rfl
  have hall : shellSource.all (fun c => !isLineBreak c || c = '\n') = true := by decide +kernel
  have hb : ∀ c ∈ shellSource, isLineBreak c = true → c = '\n' := by
    simpa [imp_iff_not_or] using hall
  obtain ⟨hcount, hagain, hrows⟩ := maskMagics?_rows shellSource "a\n\n".toList hmask
  exact ⟨hmask, hcount, hagain, hrows hb⟩

end Source

end VariableReport
