import VariableReport.Proofs.Listing.RoundTrip
import VariableReport.Proofs.Matrix.Classification

/-!
# Matrices of whole numbers

The text of a list of rows of whole numbers that are in the range of double precision is read as a
matrix, and the numbers are found again between the ampersands of its formula
(`latex?_gridValue`).
-/

namespace VariableReport.Matrix
open Value (Plain)

variable {rows : List (List Int)}

/-- Rows of one positive length, at least one, of whole numbers with at most 308 digits. -/
structure IsGrid (rows : List (List Int)) : Prop where
  rows_ne_nil : rows ≠ []
  row_ne_nil : ∀ row ∈ rows, row ≠ []
  length_eq : ∀ row ∈ rows, ∀ other ∈ rows, row.length = other.length
  bound : ∀ row ∈ rows, ∀ n ∈ row, n.natAbs < Decimal.pow 10 308

/-- The numbers as a list value. -/
def rowValue (row : List Int) : Value := .list (row.map .int)

/-- The rows as a list of lists. -/
def gridValue (rows : List (List Int)) : Value := .list (rows.map rowValue)

/-- The matrix with these entries. -/
def ofInts (rows : List (List Int)) : Matrix := ⟨rows.map fun row => row.map .int⟩

theorem reads_ofInts (h : IsGrid rows) :
    ∃ width, Reads (rows.map rowValue) (ofInts rows) width := by
  obtain ⟨first, hfirst⟩ := List.exists_mem_of_ne_nil rows h.rows_ne_nil
  refine ⟨first.length, ?_, List.length_pos_of_ne_nil (h.row_ne_nil first hfirst), ?_, ?_⟩
  · simpa [ofInts] using h.rows_ne_nil
  · rw [ofInts, List.forall₂_map_left_iff, List.forall₂_map_right_iff, List.forall₂_same]
    intro row _
    rw [List.map_map]
    exact .list _
  · intro entries hentries
    obtain ⟨row, hrow, rfl⟩ := List.mem_map.1 hentries
    rw [List.length_map]
    exact h.length_eq row hrow first hfirst

theorem inRange_ofInts (h : IsGrid rows) :
    ((ofInts rows).rows.all fun row => row.all Entry.inRange) = true := by
  have hlimit : Decimal.pow 10 308 ≤ Double.limit := by decide +kernel
  rw [inRange_iff]
  intro entries hentries n hn hnone
  obtain ⟨row, hrow, rfl⟩ := List.mem_map.1 hentries
  obtain ⟨_, hk, ⟨⟩⟩ := List.mem_map.1 hn
  have hbelow := Nat.lt_of_lt_of_le (h.bound row hrow n hk) hlimit
  exact Nat.not_le.2 hbelow (Double.ofInt?_eq_none_iff.1 hnone)

theorem plain_rowValue (h : IsGrid rows) : ∀ v ∈ rows.map rowValue, Plain 1 v := by
  have hdigits : Decimal.pow 10 308 ≤ Decimal.pow 10 Value.maxDigits := by decide +kernel
  intro v hv
  obtain ⟨row, hrow, rfl⟩ := List.mem_map.1 hv
  refine .list fun w hw => ?_
  obtain ⟨n, hn, rfl⟩ := List.mem_map.1 hw
  exact .int 0 (Nat.lt_of_lt_of_le (h.bound row hrow n hn) hdigits)

/-- The rows have a text, and the text has the formula of the rows. -/
theorem exists_text_gridValue [Host] [Arrays] (h : IsGrid rows) :
    ∃ t, (gridValue rows).text? = some t ∧ latex? t = .ok (some (frame (ofInts rows).body)) := by
  have hplain := plain_rowValue h
  have hroom : 1 < Host.jsonDepth .matrix := Nat.lt_of_lt_of_le (by decide) (Host.jsonDepth_ge _)
  have hstrict := Listing.strict?_spelling hplain hroom (by decide)
  have hread := read?_eq_ok_some_iff.2 ⟨_, Listing.strict?_eq_some_iff.1 hstrict,
    ofRows?_eq_some_iff.2 (reads_ofInts h), inRange_ofInts h⟩
  refine ⟨_, (Plain.list hplain).literal?_eq, ?_⟩
  rw [latex?, hread]
  rfl

/-- The entries of a formula, as far as they are whole numbers. -/
def numbers (body : Text) : List (List (Option Int)) :=
  (cells body).map fun line => line.map Decimal.readInt?

theorem numbers_ofInts (h : IsGrid rows) :
    numbers (ofInts rows).body = rows.map fun row => row.map some := by
  obtain ⟨width, hreads⟩ := reads_ofInts h
  have hread : Decimal.readInt? ∘ Entry.text ∘ Entry.int = some :=
    funext Decimal.readInt?_intText
  rw [numbers, cells_body hreads.rows_ne_nil fun row hrow => hreads.row_ne_nil hrow, ofInts]
  simp only [List.map_map, Function.comp_def] at hread ⊢
  rw [hread]

theorem frame_injective : Function.Injective frame := by
  intro a b h
  exact List.append_cancel_left (List.append_cancel_right h)

/-- A list of rows of whole numbers is recognised from its text as a matrix, its formula has the
numbers for entries, and no other rows have the same formula. -/
theorem latex?_gridValue [Host] [Arrays] (h : IsGrid rows) :
    ∃ t body, (gridValue rows).text? = some t ∧ latex? t = .ok (some (frame body)) ∧
      numbers body = (rows.map fun row => row.map some) ∧
      ∀ others u, IsGrid others → (gridValue others).text? = some u →
        latex? u = .ok (some (frame body)) → others = rows := by
  obtain ⟨t, htext, hlatex⟩ := exists_text_gridValue h
  refine ⟨t, _, htext, hlatex, numbers_ofInts h, ?_⟩
  intro others u hothers hu hsame
  obtain ⟨t', htext', hlatex'⟩ := exists_text_gridValue hothers
  obtain rfl := Option.some.inj (hu.symm.trans htext')
  have hbody := frame_injective (Option.some.inj (Except.ok.inj (hsame.symm.trans hlatex')))
  have hnumbers := numbers_ofInts hothers
  rw [← hbody, numbers_ofInts h] at hnumbers
  have hsome : Function.Injective fun row : List Int => row.map some :=
    List.map_injective_iff.2 fun _ _ => Option.some.inj
  exact List.map_injective_iff.2 hsome hnumbers.symm

theorem latex?_gridValue_signs :
    IsGrid [[-1, 20], [0, 300]] ∧ ∃ t body, (gridValue [[-1, 20], [0, 300]]).text? = some t ∧
      latex? t = .ok (some (frame body)) ∧
      numbers body = [[some (-1), some 20], [some 0, some 300]] := by
  have hgrid : IsGrid [[-1, 20], [0, 300]] :=
    ⟨by decide, by decide, by decide, by decide +kernel⟩
  obtain ⟨t, body, htext, hlatex, hnumbers, -⟩ := latex?_gridValue hgrid
  exact ⟨hgrid, t, body, htext, hlatex, hnumbers⟩

end VariableReport.Matrix
