import VariableReport.Proofs.Listing.Bounds
import VariableReport.Proofs.Matrix.Shape
import VariableReport.Proofs.Number.Range
import VariableReport.Proofs.Number.Written
import VariableReport.Proofs.Text.Pieces
import VariableReport.Standard
import VariableReport.Value.Printer

/-!
# Matrices in text

A text that is read as a matrix or as none has a formula exactly when it is a JSON array, or else a
literal, of rows of numbers (`latex?_exact`). The entries can be told from the formula: none of them
has a character that stands between entries or rows, so the body of the formula is cut at these into
the entries again (`cells_body`), and each is the text that its number prints as.
-/

namespace VariableReport
open Outcome

variable {t : Text} {items rows : List Value} {c : Char} {site : Site}

/-! ### Lists -/

namespace Listing

variable [Host]

/-- The text is a JSON array of these items, or it is none and is a literal of them. -/
inductive Holds (site : Site) (t : Text) (items : List Value) : Prop
  | json : json? t site = .ok (some items) → Holds site t items
  | literal : json? t site = .ok none → literal? t site = .ok (some items) → Holds site t items

theorem strict?_eq_some_iff : strict? t site = .ok (some items) ↔ Holds site t items := by
  rw [strict?, bind_eq_ok]
  constructor
  · rintro ⟨items?, hjson, h⟩
    cases items? with
    | none => exact .literal hjson h
    | some vs =>
      cases h
      exact .json hjson
  · rintro (h | ⟨hnone, h⟩)
    · exact ⟨_, h, rfl⟩
    · exact ⟨_, hnone, h⟩

end Listing

namespace Matrix

variable {m : Matrix} {e : Entry} {answer : Option Text} {width : Nat}

/-! ### Entries as text -/

theorem Entry.isNumberChar_of_mem_text (h : c ∈ e.text) : Text.isNumberChar c = true := by
  cases e with
  | int n => exact Decimal.isNumberChar_of_mem_intText h
  | float d => exact Double.isNumberChar_of_mem_text h

/-- A whole number in the range of double precision has few enough digits to be printed. -/
theorem Entry.text?_toValue (h : e.inRange = true) : e.toValue.text? = some e.text := by
  cases e with
  | int n =>
    have hlimit : Double.limit ≤ Decimal.pow 10 Value.maxDigits := by decide +kernel
    have hbelow : n.natAbs < Double.limit := by
      rw [← Nat.not_le, ← Double.ofInt?_eq_none_iff]
      exact Option.isSome_iff_ne_none.1 h
    change Value.intText? n = _
    rw [Value.intText?, if_pos (Nat.lt_of_lt_of_le hbelow hlimit)]
    rfl
  | float d => rfl

/-! ### The formula and its cells -/

/-- What stands around the rows of a formula. -/
def frame (body : Text) : Text :=
  "\\begin\x7bbmatrix\x7d ".toList ++ body ++ " \\end\x7bbmatrix\x7d".toList

/-- The rows of the formula. -/
def body (m : Matrix) : Text :=
  Text.join " \\\\ ".toList (m.rows.map fun row => Text.join " & ".toList (row.map Entry.text))

/-- The entries of each row of a formula. -/
def cells (body : Text) : List (List Text) :=
  (Text.splitAround " \\\\ ".toList body).map (Text.splitAround " & ".toList)

theorem latex_eq_frame (m : Matrix) : m.latex = frame m.body := rfl

theorem splitAround_row {row : List Entry} (h : row ≠ []) :
    Text.splitAround " & ".toList (Text.join " & ".toList (row.map Entry.text)) =
      row.map Entry.text := by
  refine Text.splitAround_join (by decide) (by simpa using h) fun p hp => ?_
  obtain ⟨e, -, rfl⟩ := List.mem_map.1 hp
  exact fun hmem => absurd (Entry.isNumberChar_of_mem_text hmem) (by decide)

theorem cells_body (h : m.rows ≠ []) (hrows : ∀ row ∈ m.rows, row ≠ []) :
    cells m.body = m.rows.map fun row => row.map Entry.text := by
  have hsplit : Text.splitAround " \\\\ ".toList m.body =
      m.rows.map fun row => Text.join " & ".toList (row.map Entry.text) := by
    refine Text.splitAround_join (by decide) (by simpa using h) fun p hp => ?_
    obtain ⟨row, -, rfl⟩ := List.mem_map.1 hp
    intro hmem
    rcases Text.mem_of_mem_join hmem with hmem | ⟨q, hq, hmem⟩
    · exact absurd hmem (by decide)
    · obtain ⟨e, -, rfl⟩ := List.mem_map.1 hq
      exact absurd (Entry.isNumberChar_of_mem_text hmem) (by decide)
  rw [cells, hsplit, List.map_map]
  exact List.map_congr_left fun row hrow => splitAround_row (hrows row hrow)

/-! ### What a text is read as -/

/-- The table has a line for each row, with what the items of the row print as, in their order. -/
def Prints (rows : List Value) (table : List (List Text)) : Prop :=
  List.Forall₂ (fun v line => ∃ items, Lists v items ∧
    List.Forall₂ (fun item entry => item.text? = some entry) items line) rows table

theorem Reads.prints_cells (h : Reads rows m width)
    (hrange : (m.rows.all fun row => row.all Entry.inRange) = true) :
    Prints rows (cells m.body) := by
  rw [Prints, cells_body h.rows_ne_nil fun row hrow => h.row_ne_nil hrow,
    List.forall₂_map_right_iff]
  refine (forall₂_and_right h.lists (List.all_eq_true.1 hrange)).imp ?_
  intro v row ⟨hlists, hrow⟩
  refine ⟨_, hlists, ?_⟩
  rw [List.forall₂_map_left_iff, List.forall₂_map_right_iff, List.forall₂_same]
  exact fun e he => Entry.text?_toValue (List.all_eq_true.1 hrow e he)

section
variable [Host] [Arrays]

theorem read?_eq_ok_none (h : read? t = .ok none) (hrows : Listing.Holds .matrix t rows) :
    ofRows? rows = none := by
  rw [read?_eq] at h
  obtain ⟨items?, hstrict, h⟩ := bind_eq_ok.1 h
  obtain rfl := Except.ok.inj (hstrict.symm.trans (Listing.strict?_eq_some_iff.2 hrows))
  dsimp only at h
  split at h
  next hnone => exact hnone
  next => split at h <;> cases h

theorem read?_eq_ok_some_iff : read? t = .ok (some m) ↔
    ∃ rows, Listing.Holds .matrix t rows ∧ ofRows? rows = some m ∧
      (m.rows.all fun row => row.all Entry.inRange) = true := by
  rw [read?_eq, bind_eq_ok]
  constructor
  · rintro ⟨items?, hstrict, h⟩
    split at h
    next => cases h
    next rows =>
      refine ⟨rows, Listing.strict?_eq_some_iff.1 hstrict, ?_⟩
      split at h
      next => cases h
      next hm =>
        split at h
        next hrange =>
          cases h
          exact ⟨hm, hrange⟩
        next => cases h
  · rintro ⟨rows, hrows, hm, hrange⟩
    refine ⟨_, Listing.strict?_eq_some_iff.2 hrows, ?_⟩
    simp only [hm, hrange, if_true]

/-- A text that can be read has a formula if and only if it is a list of rows of numbers, and then
the formula has as many rows with as many entries, and each entry is what its number prints as. -/
theorem latex?_exact (h : latex? t = .ok answer) :
    (answer.isSome = true ↔ ∃ rows width, Listing.Holds .matrix t rows ∧ Rectangular rows width) ∧
      ∀ latex, answer = some latex → ∃ rows body, Listing.Holds .matrix t rows ∧
        latex = frame body ∧ Prints rows (cells body) := by
  obtain ⟨m?, hread, hanswer⟩ := bind_eq_ok.1 h
  obtain rfl := Except.ok.inj hanswer
  cases m? with
  | none =>
    refine ⟨iff_of_false (by simp) ?_, by simp⟩
    rintro ⟨rows, width, hrows, hshape⟩
    obtain ⟨m, hm⟩ := exists_ofRows?_iff.2 ⟨width, hshape⟩
    rw [read?_eq_ok_none hread hrows] at hm
    cases hm
  | some m =>
    obtain ⟨rows, hrows, hm, hrange⟩ := read?_eq_ok_some_iff.1 hread
    obtain ⟨width, hreads⟩ := ofRows?_eq_some_iff.1 hm
    obtain ⟨width', hshape⟩ := exists_ofRows?_iff.1 ⟨m, hm⟩
    refine ⟨iff_of_true rfl ⟨rows, width', hrows, hshape⟩, ?_⟩
    rintro latex ⟨⟩
    exact ⟨rows, m.body, hrows, latex_eq_frame m, hreads.prints_cells hrange⟩

end

theorem latex?_exact_tuples :
    latex? "([1, -2], (3, 4.5))".toList =
        .ok (some (frame "1 & -2 \\\\ 3 & 4.5".toList)) ∧
      ∃ rows width, Listing.Holds .matrix "([1, -2], (3, 4.5))".toList rows ∧
        Rectangular rows width := by
  have hanswer : latex? "([1, -2], (3, 4.5))".toList =
      .ok (some (frame "1 & -2 \\\\ 3 & 4.5".toList)) := eq_ok_of_toOption (by decide +kernel)
  exact ⟨hanswer, (latex?_exact hanswer).1.1 rfl⟩

end Matrix

end VariableReport
