import VariableReport.Notebook.Definition
import VariableReport.Proofs.Source.Fallback

/-!
# Definitions of a cell that is lexed line by line

A line that cannot be lexed makes its cell one that is lexed line by line. The definitions of
lines that stand alone are the same either way, and so are those of the notebook around them
(`definitions_withOpenBracket`).
-/

namespace VariableReport.Notebook
open Source Text

variable {ls : List Text}

theorem definition?_of_reads {s s' : Statement} (h : s'.Reads s) (i : Nat) :
    definition? i s' = definition? i s := by
  rw [definition?, definition?, h.assignment, h.line]

theorem filterMap_definition?_of_reads {ss ss' : List Statement}
    (h : List.Forall₂ Statement.Reads ss' ss) (i : Nat) :
    ss'.filterMap (definition? i) = ss.filterMap (definition? i) := by
  induction h with
  | nil => rfl
  | cons hs _ ih => rw [List.filterMap_cons, List.filterMap_cons, definition?_of_reads hs, ih]

theorem cellDefinitions_ofText (i : Nat) (t : Text) : cellDefinitions i (.ofText .code t) =
    .ok ((statements t).filterMap (definition? i)) := rfl

theorem cellDefinitions_withOpenBracket (h : ∀ l ∈ ls, StandsAlone l) (i : Nat) :
    cellDefinitions i (.ofText .code (join ['\n'] ls)) =
      cellDefinitions i (.ofText .code (withOpenBracket (join ['\n'] ls))) := by
  rw [cellDefinitions_ofText, cellDefinitions_ofText,
    filterMap_definition?_of_reads (reads_statements h).2.1]

/-- Cells with the same definitions can take each other's place in a notebook. -/
theorem definitionsFrom_congr {c c' : Cell} (h : ∀ i, cellDefinitions i c = cellDefinitions i c')
    (i : Nat) (above below : List Cell) :
    definitionsFrom i (above ++ c :: below) = definitionsFrom i (above ++ c' :: below) := by
  induction above generalizing i with
  | nil => rw [List.nil_append, List.nil_append, definitionsFrom, definitionsFrom, h]
  | cons d above ih => rw [List.cons_append, List.cons_append, definitionsFrom, definitionsFrom, ih]

/-- An open bracket below lines that stand alone, with which the cell can no longer be lexed as a
whole, leaves the definitions of the cell and of any notebook around it as they are. -/
theorem definitions_withOpenBracket (h : ∀ l ∈ ls, StandsAlone l) :
    (tokens? (join ['\n'] ls)).isSome ∧ tokens? (withOpenBracket (join ['\n'] ls)) = none ∧
    (∃ ds, definitions [.ofText .code (join ['\n'] ls)] = .ok ds ∧
      definitions [.ofText .code (withOpenBracket (join ['\n'] ls))] = .ok ds) ∧
    ∀ above below, definitions (above ++ .ofText .code (join ['\n'] ls) :: below) =
      definitions (above ++ .ofText .code (withOpenBracket (join ['\n'] ls)) :: below) := by
  have hcells := definitionsFrom_congr (cellDefinitions_withOpenBracket h) 0
  refine ⟨(reads_statements h).1, (statements_withOpenBracket h).1, ?_, hcells⟩
  have hone := hcells [] []
  rw [List.nil_append, List.nil_append] at hone
  exact ⟨_, rfl, hone.symm⟩

/-- Two assignments on one row, a comment, a block and an assignment below it. -/
def mixedLines : List Text :=
  ["x = 1; y = (x, 2)  # pair", "", "# note", "if x: z = 3", "z = x"].map String.toList

theorem definitions_withOpenBracket_mixedLines :
    definitions [.ofText .code (withOpenBracket (join ['\n'] mixedLines))] = .ok
      [⟨"x".toList, "1".toList, 0, 1⟩, ⟨"y".toList, "(x, 2)".toList, 0, 1⟩,
        ⟨"z".toList, "x".toList, 0, 5⟩] := by
  have hlines : ∀ l ∈ mixedLines, StandsAlone l := by decide +kernel
  have hwhole : (statements (join ['\n'] mixedLines)).filterMap (definition? 0) =
      [⟨"x".toList, "1".toList, 0, 1⟩, ⟨"y".toList, "(x, 2)".toList, 0, 1⟩,
        ⟨"z".toList, "x".toList, 0, 5⟩] := by decide +kernel
  obtain ⟨-, -, ⟨ds, hds, hbroken⟩, -⟩ := definitions_withOpenBracket hlines
  rw [definitions, definitionsFrom, cellDefinitions_ofText, hwhole] at hds
  rw [hbroken, ← hds]
  rfl

end VariableReport.Notebook
