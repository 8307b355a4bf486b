import VariableReport.Proofs.Source.Lexeme

/-!
# The passage over one row

Reading the rest of a row is stated as a relation (`Scans`), one constructor for what can happen
at a character: it is one of a lexeme that has been dealt with, a gap, a stray character, the
beginning of a lexeme, or the beginning of a string that takes the rest. What is said of the
tokens of a row and of the state behind it goes by induction on the relation.
-/

namespace VariableReport.Source
open Text

/-- Behind gaps there is a lexeme or nothing. -/
def goesOn (t : Text) : Bool := (t.dropWhile isGap).isEmpty || (lexeme? (t.dropWhile isGap)).isSome

/-- Nothing is read at a character with a text behind it. -/
def IsStray (c : Char) (t : Text) : Prop :=
  if isGap c then goesOn t = false else lexeme? (c :: t) = none

/-- The tokens of a text in a row and the state behind it, when the text is read from a state at a
column and `skip` characters have been dealt with. -/
inductive Scans (row : Nat) :
    LexState → Nat → Nat → Text → List Token → LexState → Prop
  | done (s : LexState) (column skip : Nat) : Scans row s column skip [] [] s
  | skip {s s' : LexState} {column skip : Nat} {c : Char} {t : Text} {ts : List Token} :
      Scans row s (column + 1) skip t ts s' → Scans row s column (skip + 1) (c :: t) ts s'
  | gap {s s' : LexState} {column : Nat} {c : Char} {t : Text} {ts : List Token} :
      isGap c = true → goesOn t = true → Scans row s (column + 1) 0 t ts s' →
      Scans row s column 0 (c :: t) ts s'
  | stray {s s' : LexState} {column : Nat} {c : Char} {t : Text} {ts : List Token} :
      IsStray c t → Scans row s (column + 1) 0 t ts s' →
      Scans row s column 0 (c :: t) (strayAt row column c :: ts) s'
  | stop {s : LexState} {column n : Nat} {c : Char} {t : Text} {l : Lexeme} :
      isGap c = false → lexeme? (c :: t) = some (l, n) →
      (stepOf row column s (c :: t) l n).1.stops = true →
      Scans row s column 0 (c :: t) (stepOf row column s (c :: t) l n).1.token.toList
        (stepOf row column s (c :: t) l n).1.state
  | lexeme {s s' : LexState} {column n : Nat} {c : Char} {t : Text} {l : Lexeme}
      {ts : List Token} :
      isGap c = false → lexeme? (c :: t) = some (l, n) →
      (stepOf row column s (c :: t) l n).1.stops = false →
      Scans row (stepOf row column s (c :: t) l n).1.state (column + 1)
        ((stepOf row column s (c :: t) l n).2 - 1) t ts s' →
      Scans row s column 0 (c :: t)
        ((stepOf row column s (c :: t) l n).1.token.toList ++ ts) s'

variable {row column skip n : Nat} {s s' : LexState} {t : Text} {c : Char} {ts : List Token}
  {l : Lexeme}

theorem scans_scanRow : Scans row s column skip t (scanRow row s column skip t).1
    (scanRow row s column skip t).2 := by
  induction t generalizing s column skip with
  | nil =>
    cases skip with
    | zero => exact .done s column 0
    | succ skip => exact .done s column (skip + 1)
  | cons c t ih =>
    cases skip with
    | succ skip => exact .skip ih
    | zero =>
      simp only [scanRow]
      split
      next hgap =>
        split
        next hon => exact .gap hgap hon ih
        next hon =>
          exact .stray (by rw [IsStray, if_pos hgap]; exact eq_false_of_ne_true hon) ih
      next hgap =>
        have hgap : isGap c = false := eq_false_of_ne_true hgap
        split
        next hnone => exact .stray (by simpa [IsStray, hgap] using hnone) ih
        next l n hl =>
          split
          next hstops => exact .stop hgap hl hstops
          next hstops => exact .lexeme hgap hl (eq_false_of_ne_true hstops) ih

theorem Scans.scanRow_eq (h : Scans row s column skip t ts s') :
    scanRow row s column skip t = (ts, s') := by
  induction h with
  | done s column skip => cases skip <;> rfl
  | skip _ ih => exact ih
  | gap hgap hon _ ih =>
    rw [goesOn] at hon
    simp only [scanRow, if_pos hgap, if_pos hon, ih]
  | @stray s s' column c t ts hstray _ ih =>
    rw [IsStray, goesOn] at hstray
    cases hgap : isGap c with
    | true =>
      rw [if_pos hgap] at hstray
      simp only [scanRow, hgap, hstray, ih, if_true, Bool.false_eq_true, if_false]
    | false =>
      simp only [hgap, Bool.false_eq_true, if_false] at hstray
      simp only [scanRow, hgap, Bool.false_eq_true, if_false, hstray, ih]
  | stop hgap hl hstops =>
    simp only [scanRow, hgap, Bool.false_eq_true, if_false, hl, if_pos hstops]
  | lexeme hgap hl hstops _ ih =>
    simp only [scanRow, hgap, Bool.false_eq_true, if_false, hl, hstops, ih]

/-- A text without a line feed begins with no row end, and with a comment only at its mark. -/
theorem lexeme?_of_not_mem (ht : '\n' ∉ c :: t) (h : lexeme? (c :: t) = some (l, n)) :
    l ≠ .rowEnd ∧ l ≠ .escapedRowEnd ∧ (l = .comment → c = '#') := by
  unfold lexeme? lexeme?.word? at h
  grind

/-- What a lexeme within a row does: it keeps the open blocks, and it either opens a string or makes
a token of some of the next characters. -/
inductive StepOutcome (row column : Nat) (s : LexState) (t : Text) (l : Lexeme) : Step × Nat → Prop
  | opens {s' : LexState} {n : Nat} : s'.blocks = s.blocks → s'.string ≠ none →
      StepOutcome row column s t l (⟨none, s', true⟩, n)
  | token {s' : LexState} {kind : TokenKind} {n : Nat} : s'.blocks = s.blocks →
      (stepOf.make row column t kind n).isLayout = false → (kind = .comment → l = .comment) →
      0 < n → n ≤ t.length →
      StepOutcome row column s t l (⟨some (stepOf.make row column t kind n), s', false⟩, n)

theorem stepOutcome (ht : '\n' ∉ t) (hl : l.Takes t n) (hend : l ≠ .rowEnd ∧ l ≠ .escapedRowEnd) :
    StepOutcome row column s t l (stepOf row column s t l n) := by
  cases l with
  | escapedRowEnd => exact absurd rfl hend.2
  | comment => exact .token rfl rfl (fun _ => rfl) hl.1 hl.2.le
  | tripleOpen q =>
    obtain ⟨hq, hn, hspan⟩ := hl
    simp only [stepOf]
    split
    next m hm =>
      have hrow : IsRow (t.drop n) := isRow_of_not_mem fun h => ht (List.mem_of_mem_drop h)
      have hle := (hspan.add (spans_tripleRest hq hrow hm)).le
      exact .token rfl rfl (by simp) (by omega) hle
    next => exact .opens rfl (by simp)
  | number => exact .token rfl rfl (by simp) hl.1 hl.2.le
  | rowEnd => exact absurd rfl hend.1
  | operator => exact .token rfl rfl (by simp) hl.1 hl.2.le
  | quoted => exact .token rfl rfl (by simp) hl.1 hl.2.le
  | quotedOpen q => exact .opens rfl (by simp)
  | word =>
    refine .token rfl ?_ ?_ hl.1 hl.2.le <;> rcases wordKind_eq t with h | h <;>
      simp [stepOf.make, Token.isLayout, h]

theorem stepOutcome_of_lexeme? (ht : '\n' ∉ c :: t) (hl : lexeme? (c :: t) = some (l, n)) :
    StepOutcome row column s (c :: t) l (stepOf row column s (c :: t) l n) := by
  obtain ⟨hrow, hescaped, -⟩ := lexeme?_of_not_mem ht hl
  exact stepOutcome ht (takes_lexeme? hl) ⟨hrow, hescaped⟩

/-- A token that lies within a row, not behind a column. -/
structure Token.Within (row width : Nat) (t : Token) : Prop where
  start_row : t.start.row = row
  start_column : t.start.column ≤ width
  stop_row : t.stop.row = row
  stop_column : t.stop.column ≤ width

theorem within_make {width k : Nat} {kind : TokenKind} (h : column + k ≤ width) :
    (stepOf.make row column t kind k).Within row width :=
  ⟨rfl, Nat.le_trans (Nat.le_add_right _ _) h, rfl, h⟩

/-- The tokens of a row without its end are no layout and lie within the row. The open blocks are
kept. -/
theorem Scans.within (h : Scans row s column skip t ts s') (ht : '\n' ∉ t) :
    s'.blocks = s.blocks ∧
      ∀ tok ∈ ts, tok.isLayout = false ∧ tok.Within row (column + t.length) := by
  induction h with
  | done => exact ⟨rfl, by simp⟩
  | skip _ ih =>
    rw [List.length_cons, Nat.add_comm _ 1, ← Nat.add_assoc]
    exact ih (List.not_mem_of_not_mem_cons ht)
  | gap _ _ _ ih =>
    rw [List.length_cons, Nat.add_comm _ 1, ← Nat.add_assoc]
    exact ih (List.not_mem_of_not_mem_cons ht)
  | stray _ _ ih =>
    obtain ⟨hblocks, htokens⟩ := ih (List.not_mem_of_not_mem_cons ht)
    rw [List.length_cons, Nat.add_comm _ 1, ← Nat.add_assoc]
    refine ⟨hblocks, List.forall_mem_cons.2 ⟨⟨rfl, rfl, ?_, rfl, ?_⟩, htokens⟩⟩
    · dsimp only [strayAt]
      omega
    · dsimp only [strayAt]
      omega
  | @stop s column n c t l _ hl hstops =>
    have hout := @stepOutcome_of_lexeme? row column n s t c l ht hl
    cases hr : stepOf row column s (c :: t) l n with
    | mk step m =>
      rw [hr] at hout hstops
      cases hout with
      | opens hblocks _ => exact ⟨hblocks, by simp⟩
      | token => contradiction
  | @lexeme s s' column n c t l ts _ hl hstops _ ih =>
    obtain ⟨hblocks, htokens⟩ := ih (List.not_mem_of_not_mem_cons ht)
    have hout := @stepOutcome_of_lexeme? row column n s t c l ht hl
    rw [List.length_cons, Nat.add_comm _ 1, ← Nat.add_assoc]
    generalize stepOf row column s (c :: t) l n = r at hout hstops hblocks
    cases hout with
    | opens => contradiction
    | token hstep hlayout _ _ hle =>
      refine ⟨hblocks.trans hstep, List.forall_mem_cons.2 ⟨⟨hlayout, within_make ?_⟩, htokens⟩⟩
      rw [List.length_cons] at hle
      omega

/-- A row that begins with code begins with no comment. -/
theorem Scans.head (h : Scans row s column 0 (c :: t) ts s') (ht : '\n' ∉ c :: t)
    (hgap : isGap c = false) (hc : c ≠ '#') : ∀ tok ∈ ts.head?, tok.kind ≠ .comment := by
  cases h with
  | gap hgap' => simp [hgap] at hgap'
  | stray => simp [strayAt]
  | @stop _ _ n _ _ l _ hl hstops =>
    have hout := @stepOutcome_of_lexeme? row column n s t c l ht hl
    generalize stepOf row column s (c :: t) l n = r at hout hstops
    cases hout with
    | opens => simp
    | token => contradiction
  | @lexeme _ _ _ n _ _ l _ _ hl hstops _ =>
    have hout := @stepOutcome_of_lexeme? row column n s t c l ht hl
    generalize stepOf row column s (c :: t) l n = r at hout hstops
    cases hout with
    | opens => contradiction
    | token _ _ hkind =>
      intro tok htok hcomment
      obtain rfl := Option.some.inj htok
      exact hc ((lexeme?_of_not_mem ht hl).2.2 (hkind hcomment))

end VariableReport.Source
