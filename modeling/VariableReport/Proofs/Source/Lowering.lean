import VariableReport.Proofs.Source.Layout

/-!
# Lexing further down

What the lexer reads does not depend on the row it starts in: rows that are read `k` rows
further down give the same tokens `k` rows further down (`lexRows_lower`). An open string
carries the position of its start, so the state moves with the rows.
-/

namespace VariableReport.Source

/-- The position `k` rows further down. -/
def Position.lower (k : Nat) (p : Position) : Position := { p with row := p.row + k }

namespace Position

variable {k : Nat} {p : Position}

@[simp] theorem lower_row : (p.lower k).row = p.row + k := rfl

@[simp] theorem lower_column : (p.lower k).column = p.column := rfl

@[simp] theorem lower_mk (row column : Nat) :
    (⟨row, column⟩ : Position).lower k = ⟨row + k, column⟩ := rfl

theorem lower_inj {q : Position} : p.lower k = q.lower k ↔ p = q := by
  cases p
  cases q
  simp [lower]

theorem advance_lower (t : Text) : (p.lower k).advance t = (p.advance t).lower k := by
  induction t generalizing p with
  | nil => rfl
  | cons c t ih =>
    rw [advance, advance, ← ih]
    congr 1
    split
    · simp [lower, Nat.add_right_comm]
    · rfl

end Position

def Token.lower (k : Nat) (t : Token) : Token :=
  { t with start := t.start.lower k, stop := t.stop.lower k }

namespace Token

variable {k : Nat} {t : Token}

@[simp] theorem lower_kind : (t.lower k).kind = t.kind := rfl

@[simp] theorem lower_text : (t.lower k).text = t.text := rfl

@[simp] theorem lower_start : (t.lower k).start = t.start.lower k := rfl

@[simp] theorem lower_stop : (t.lower k).stop = t.stop.lower k := rfl

@[simp] theorem lower_mk (kind : TokenKind) (text : Text) (start stop : Position) :
    (⟨kind, text, start, stop⟩ : Token).lower k = ⟨kind, text, start.lower k, stop.lower k⟩ := rfl

end Token

def OpenString.lower (k : Nat) (o : OpenString) : OpenString :=
  { o with start := o.start.lower k }

def LexState.lower (k : Nat) (s : LexState) : LexState :=
  { s with string := s.string.map (OpenString.lower k) }

theorem LexState.lower_of_none {k : Nat} {s : LexState} (h : s.string = none) : s.lower k = s := by
  cases s
  simp_all [lower]

theorem LexState.atLineStart_lower {k : Nat} {s : LexState} :
    (s.lower k).atLineStart = s.atLineStart := by
  cases h : s.string <;> simp only [atLineStart, lower, h] <;> rfl

def Step.lower (k : Nat) (s : Step) : Step :=
  { s with token := s.token.map (Token.lower k), state := s.state.lower k }

variable {k row column : Nat} {s : LexState} {t : Text}

theorem stepOf_lower (l : Lexeme) (n : Nat) :
    stepOf (row + k) column (s.lower k) t l n =
      ((stepOf row column s t l n).1.lower k, (stepOf row column s t l n).2) := by
  cases l with
  | tripleOpen quote =>
    simp only [stepOf]
    split <;> rfl
  | _ => rfl

theorem strayAt_lower (c : Char) :
    strayAt (row + k) column c = (strayAt row column c).lower k := rfl

theorem scanRow_lower (skip : Nat) : scanRow (row + k) (s.lower k) column skip t =
    ((scanRow row s column skip t).1.map (Token.lower k),
      (scanRow row s column skip t).2.lower k) := by
  induction t generalizing s column skip with
  | nil => cases skip <;> rfl
  | cons c t ih =>
    cases skip with
    | succ skip => exact ih skip
    | zero =>
      simp only [scanRow, strayAt_lower]
      split
      · split
        · exact ih 0
        · rw [ih]
          rfl
      · split
        · rw [ih]
          rfl
        next l n _ =>
          rw [stepOf_lower]
          dsimp only
          generalize stepOf row column s (c :: t) l n = r
          obtain ⟨⟨token, state, stops⟩, m⟩ := r
          cases stops with
          | true => cases token <;> rfl
          | false =>
            simp only [Step.lower, Bool.false_eq_true, if_false]
            rw [ih]
            cases token <;> rfl

theorem blankRow_lower :
    blankRow (row + k) column t = (blankRow row column t).map (Token.lower k) := by
  simp only [blankRow]
  split <;> split <;> rfl

theorem startRow_lower : startRow (row + k) (s.lower k) t =
    (startRow row s t).map fun r => (r.1.map (Token.lower k), r.2.lower k) := by
  have hscan {blocks : List Nat} {n : Nat} {u : Text} :
      scanRow (row + k) { s.lower k with blocks } n 0 u =
        ((scanRow row { s with blocks } n 0 u).1.map (Token.lower k),
          (scanRow row { s with blocks } n 0 u).2.lower k) :=
    scanRow_lower (s := { s with blocks }) 0
  have hblocks : (s.lower k).blocks = s.blocks := rfl
  simp only [startRow, blankRow_lower, hblocks, hscan]
  split
  · rfl
  · split
    · rfl
    · split
      · simp
      · cases closeBlocks (indentation 0 (t.takeWhile isGap)) s.blocks <;> simp

theorem stringRow_lower {o : OpenString} : stringRow (row + k) (s.lower k) (o.lower k) t =
    ((stringRow row s o t).1.map (Token.lower k), (stringRow row s o t).2.lower k) := by
  have hscan {n : Nat} {u : Text} :
      scanRow (row + k) { s.lower k with string := none } n 0 u =
        ((scanRow row { s with string := none } n 0 u).1.map (Token.lower k),
          (scanRow row { s with string := none } n 0 u).2.lower k) :=
    scanRow_lower (s := { s with string := none }) 0
  have htriple : (o.lower k).triple = o.triple := rfl
  have hquote : (o.lower k).quote = o.quote := rfl
  simp only [stringRow, htriple, hquote, hscan]
  split
  · rfl
  · split <;> rfl

theorem lexRow_lower : lexRow (row + k) (s.lower k) t =
    (lexRow row s t).map fun r => (r.1.map (Token.lower k), r.2.lower k) := by
  cases ho : s.string with
  | none =>
    have hlower : s.lower k = s := LexState.lower_of_none ho
    have hstart := @startRow_lower k row s t
    have hscan := @scanRow_lower k row 0 { s with continued := false } t 0
    rw [LexState.lower_of_none (s := { s with continued := false }) ho] at hscan
    rw [hlower] at hstart ⊢
    simp only [lexRow, ho] at hscan ⊢
    split
    · exact hstart
    · exact congrArg some hscan
  | some o =>
    have hsome : (s.lower k).string = some (o.lower k) := by simp [LexState.lower, ho]
    simp only [lexRow, ho, hsome, stringRow_lower, Option.map_some]

theorem finish_lower {last : Text} (h : 0 < row) :
    finish (row + k) (s.lower k) last = (finish row s last).map (Token.lower k) := by
  have hrow : row + k - 1 = row - 1 + k := by omega
  simp only [finish, hrow, List.map_append, List.map_replicate]
  congr 2
  split
  · rfl
  · split <;> rfl

/-- Rows that are lexed `k` rows further down give their tokens `k` rows further down. -/
theorem lexRows_lower {rows : List Text} {last : Text} (h : 0 < row) :
    lexRows (row + k) (s.lower k) last rows =
      (lexRows row s last rows).map (List.map (Token.lower k)) := by
  induction rows generalizing row s last with
  | nil =>
    simp only [lexRows, LexState.atLineStart_lower, finish_lower h]
    split <;> rfl
  | cons line rows ih =>
    simp only [lexRows, LexState.atLineStart_lower, finish_lower h, lexRow_lower]
    split
    · rfl
    · cases lexRow row s line with
      | none => rfl
      | some r =>
        have hrest := @ih (row + 1) r.2 line (Nat.succ_pos _)
        rw [Nat.add_right_comm] at hrest
        simp only [Option.map_some, Option.bind_eq_bind, Option.bind_some, hrest]
        cases lexRows (row + 1) r.2 line rows <;> simp

end VariableReport.Source
