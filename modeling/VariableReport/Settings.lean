import VariableReport.Formula.Symbols
import VariableReport.Settings.Fault
import VariableReport.Text.Class
import VariableReport.Text.Identifier

/-!
# Settings

The conventions of one report: what is escaped as a symbol, which word starts a table
directive, which marks of the calculation are left out, and how the written files are
named. Settings are usable when the directive is one plain word, every symbol is an
identifier, and the two file names differ.
-/

namespace VariableReport

structure Settings where
  symbols : List Text := Formula.commonSymbols
  tableDirective : Text := "table".toList
  trueValueMarker : Text := ".true_value".toList
  autoScaleMarker : Text := ".auto_\x7bscale\x7d()".toList
  unitConstructors : List Text := ["Unit(".toList, "Unit (".toList]
  unitType : Text := "Unit".toList
  title : Text := []
  includeUnplaced : Bool := true
  varsSuffix : Text := "_vars.json".toList
  reportSuffix : Text := "_report.md".toList
  deriving DecidableEq, Repr

namespace Settings

/-- A word of letters and digits in which underscores and hyphens may stand as well. -/
def isPlainWord (t : Text) : Bool :=
  let letters := t.filter fun c => c ≠ '_' && c ≠ '-'
  !letters.isEmpty && letters.all Text.isAlphanumeric

structure Usable (s : Settings) : Prop where
  directive : isPlainWord s.tableDirective = true
  symbols : ∀ t ∈ s.symbols, Text.isIdentifier t = true
  suffixes : s.varsSuffix ≠ s.reportSuffix

/-- The first reason why settings are not usable. -/
def misuse? (s : Settings) : Option Misuse :=
  if (Text.trim s.tableDirective).isEmpty then some .emptyDirective
  else if !isPlainWord s.tableDirective then some (.directiveNotWord s.tableDirective)
  else
    match s.symbols.find? fun t => !Text.isIdentifier t with
    | some t => some (.symbolNotIdentifier t)
    | none => if s.varsSuffix = s.reportSuffix then some (.equalSuffixes s.varsSuffix) else none

def check (s : Settings) : Except Fault Settings :=
  match s.misuse? with
  | some m => .error (.misuse m)
  | none => .ok s

theorem Usable.of_misuse?_eq_none {s : Settings} (h : s.misuse? = none) : s.Usable := by
  unfold misuse? at h
  split at h
  · simp at h
  · split at h
    · simp at h
    next hw =>
      split at h
      · simp at h
      next hs =>
        split at h
        · simp at h
        next hx =>
          exact ⟨by simpa using hw, by simpa using hs, hx⟩

end Settings

end VariableReport
