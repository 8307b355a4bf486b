import VariableReport.Records.Tables
import VariableReport.Proofs.Outcome
import VariableReport.Proofs.Source.Fallback
import VariableReport.Standard

/-!
# Directives of a cell that is lexed line by line

A directive on a line of its own leads the next statement only where the two lines are lexed
together. In a cell that is lexed line by line it is lost, and the table labels are those of
the cell with its comment lines emptied (`attachTables_withOpenBracket`). Directives behind a
statement stay.
-/

namespace VariableReport.Records
open Source Text

variable {ls : List Text} {keyword : Text} {c c' : Cell}

section
variable [Host]

/-- Comments that are no directives make no difference in front of others. -/
theorem lastLabels?_append {cs : List Text}
    (h : ∀ c ∈ cs, Directive.labels? keyword c = .ok none) (ds : List Text) :
    lastLabels? keyword (cs ++ ds) = lastLabels? keyword ds := by
  induction cs with
  | nil => rfl
  | cons c cs ih =>
    rw [List.forall_mem_cons] at h
    rw [← ih h.2, lastLabels?, lastLabels?, List.cons_append, List.mapM_cons, h.1]
    cases (cs ++ ds).mapM (Directive.labels? keyword) <;> rfl

theorem statementTable?_of_reads {s s' : Statement}
    (hs' : ∀ c ∈ s'.leading, Directive.labels? keyword c = .ok none) (hs : s.leading = [])
    (h : s'.Reads s) : statementTable? keyword s' = statementTable? keyword s := by
  rw [statementTable?, statementTable?, lastLabels?_append hs', hs, List.nil_append, h.assignment,
    h.trailing]

theorem cellTables_ofText (t : Text) : cellTables keyword (.ofText .code t) =
    ((statements t).mapM (statementTable? keyword)).map (List.filterMap id) := by
  cases h : (statements t).mapM (statementTable? keyword) <;>
    simp [cellTables, Cell.ofText, Cell.code, Cell.text, h, bind, Except.bind, Except.map]

/-- Lines without a directive of their own have the same tables lexed one by one. -/
theorem cellTables_withOpenBracket (h : ∀ l ∈ ls, StandsAlone l)
    (hls : ∀ l, IsCommentLine ls l → Directive.labels? keyword l = .ok none) :
    cellTables keyword (.ofText .code (withOpenBracket (join ['\n'] ls))) =
      cellTables keyword (.ofText .code (join ['\n'] ls)) := by
  obtain ⟨-, hreads, hleading, hnone⟩ := reads_statements h
  have hlabels : ∀ s ∈ statements (join ['\n'] ls), ∀ c ∈ s.leading,
      Directive.labels? keyword c = .ok none := fun s hs c hc => hls c (hleading s hs c hc)
  rw [cellTables_ofText, cellTables_ofText]
  refine congrArg _ (Outcome.mapM_eq_of_forall₂ ?_).symm
  refine (forall₂_of_mem hreads hlabels hnone).imp fun s' s hs => ?_
  exact statementTable?_of_reads hs.1 hs.2.1 hs.2.2

/-- Cells with the same tables can take each other's place in a notebook. -/
theorem attachTables_congr (h : cellTables keyword c = cellTables keyword c') (rs : Records)
    (above below : List Cell) :
    attachTables rs keyword (above ++ c :: below) =
      attachTables rs keyword (above ++ c' :: below) := by
  rw [attachTables, attachTables, tables, tables, List.mapM_append, List.mapM_append,
    List.mapM_cons, List.mapM_cons, h]

/-- With an open bracket below lines that stand alone the table labels are those of the lines
without their comment lines. If none of these is a directive, the labels are those of the lines. -/
theorem attachTables_withOpenBracket (h : ∀ l ∈ ls, StandsAlone l) (rs : Records) (keyword : Text)
    (above below : List Cell) :
    attachTables rs keyword (above ++ .ofText .code (withOpenBracket (join ['\n'] ls)) :: below) =
      attachTables rs keyword
        (above ++ .ofText .code (join ['\n'] (withoutCommentLines ls)) :: below) ∧
    ((∀ l, IsCommentLine ls l → Directive.labels? keyword l = .ok none) →
      attachTables rs keyword (above ++ .ofText .code (withOpenBracket (join ['\n'] ls)) :: below) =
        attachTables rs keyword (above ++ .ofText .code (join ['\n'] ls) :: below)) := by
  constructor
  · have hempty := standsAlone_withoutCommentLines h
    have hlabels (l : Text) (hl : IsCommentLine (withoutCommentLines ls) l) :
        Directive.labels? keyword l = .ok none :=
      absurd hl (not_isCommentLine_withoutCommentLines l)
    refine attachTables_congr ?_ rs above below
    rw [← cellTables_withOpenBracket hempty hlabels, cellTables_ofText, cellTables_ofText,
      (statements_withOpenBracket h).2, (statements_withOpenBracket hempty).2,
      statementsByLine_withoutCommentLines h]
  · intro hls
    exact attachTables_congr (cellTables_withOpenBracket h hls) rs above below

end

/-- A directive above an assignment. -/
def directiveLines : List Text := ["# table: [\x22a\x22]", "x = [1]"].map String.toList

/-- A comment above an assignment with a directive behind it. -/
def trailingLines : List Text := ["# loads", "x = [1]  # table: [\x22a\x22]"].map String.toList

def listRecord : Record := { name := "x".toList, value := "[1]".toList, type := "list".toList }

theorem attachTables_withOpenBracket_trailingLines :
    ((attachTables (.ofList [listRecord]) "table".toList
      [.ofText .code (withOpenBracket (join ['\n'] trailingLines))]).toOption.map
        fun rs => rs.toList.map Record.tableItems) = some [some [some "a".toList]] := by
  have hlines : ∀ l ∈ trailingLines, StandsAlone l := by decide +kernel
  have hcomments : ∀ l, IsCommentLine trailingLines l →
      Directive.labels? "table".toList l = .ok none := by
    intro l hl
    obtain rfl | rfl : l = "# loads".toList ∨ l = "x = [1]  # table: [\x22a\x22]".toList := by
      simpa [trailingLines] using hl.1
    · have hbody : Directive.body? "table".toList "# loads".toList = none := by decide +kernel
      rw [Directive.labels?, hbody]
    · exact absurd hl.2 (by decide)
  have hwhole : ((attachTables (.ofList [listRecord]) "table".toList
      [.ofText .code (join ['\n'] trailingLines)]).toOption.map
        fun rs => rs.toList.map Record.tableItems) = some [some [some "a".toList]] := by
    decide +kernel
  have hequal :=
    (attachTables_withOpenBracket hlines (.ofList [listRecord]) "table".toList [] []).2 hcomments
  rw [List.nil_append, List.nil_append] at hequal
  rw [hequal, hwhole]

/-- The directive counts only while the lines below its assignment can be lexed. -/
theorem attachTables_ne_of_directiveLines : (∀ l ∈ directiveLines, StandsAlone l) ∧
    ((attachTables (.ofList [listRecord]) "table".toList
      [.ofText .code (join ['\n'] directiveLines)]).toOption.map
        fun rs => rs.toList.map Record.tableItems) = some [some [some "a".toList]] ∧
    ((attachTables (.ofList [listRecord]) "table".toList
      [.ofText .code (withOpenBracket (join ['\n'] directiveLines))]).toOption.map
        fun rs => rs.toList.map Record.tableItems) = some [none] := by
  refine ⟨?_, ?_, ?_⟩ <;> decide +kernel

end VariableReport.Records
