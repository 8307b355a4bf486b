import VariableReport.Text

/-!
# Rows and lines

Two divisions of a text are kept apart. A *row* ends at a line feed and nowhere
else. A *line* ends at any of eleven boundaries, and a carriage return with the
line feed after it is one boundary. Both divisions keep the boundary at the end of
its piece, so the pieces joined give the text back (`flatten_rows`, `flatten_lines`).
-/

namespace VariableReport.Text

/-- The single characters that end a line. -/
def isLineBreak (c : Char) : Bool :=
  let n := c.toNat
  (10 ≤ n && n ≤ 13) || (28 ≤ n && n ≤ 30) || n = 0x85 || n = 0x2028 || n = 0x2029

/-- Put a character in front of the first piece. -/
def attach (c : Char) : List Text → List Text
  | [] => [[c]]
  | piece :: pieces => (c :: piece) :: pieces

/-- The rows, each with its line feed. -/
def rows : Text → List Text
  | [] => []
  | c :: cs => if c = '\n' then [c] :: rows cs else attach c (rows cs)

/-- The lines, each with its boundary. -/
def lines : Text → List Text
  | [] => []
  | c :: cs =>
    if c = '\r' && cs.head? = some '\n' then attach c (lines cs)
    else if isLineBreak c then [c] :: lines cs
    else attach c (lines cs)

/-- A line without the boundary at its end. -/
def bareLine (line : Text) : Text := line.filter fun c => !isLineBreak c

/-- Line feeds for the two other common line ends. -/
def unifyLineEnds : Text → Text
  | [] => []
  | c :: cs =>
    if c = '\r' then
      if cs.head? = some '\n' then unifyLineEnds cs else '\n' :: unifyLineEnds cs
    else c :: unifyLineEnds cs

theorem flatten_attach (c : Char) (pieces : List Text) :
    (attach c pieces).flatten = c :: pieces.flatten := by
  cases pieces <;> simp [attach]

theorem flatten_rows (t : Text) : (rows t).flatten = t := by
  induction t with
  | nil => rfl
  | cons c cs ih =>
    rw [rows]
    split
    · simp [ih]
    · rw [flatten_attach, ih]

theorem flatten_lines (t : Text) : (lines t).flatten = t := by
  induction t with
  | nil => rfl
  | cons c cs ih =>
    rw [lines]
    split
    · rw [flatten_attach, ih]
    · split
      · simp [ih]
      · rw [flatten_attach, ih]

/-- A text whose only boundary is the line feed has its rows for lines. -/
theorem lines_eq_rows {t : Text} (h : ∀ c ∈ t, isLineBreak c = true → c = '\n') :
    lines t = rows t := by
  induction t with
  | nil => rfl
  | cons c cs ih =>
    have hc := h c (by simp)
    have ih := ih fun d hd => h d (by simp [hd])
    rw [lines, rows, ih]
    by_cases hb : isLineBreak c = true
    · have := hc hb
      subst this
      simp [hb]
    · have hn : c ≠ '\n' := by rintro rfl; exact hb (by decide)
      have hr : c ≠ '\r' := by rintro rfl; exact hb (by decide)
      simp [hb, hn, hr]

end VariableReport.Text
