import VariableReport.Text
import VariableReport.Text.Class

/-!
# Scripts

A script is what stands raised or lowered after a mark. Written with braces it is a
group; without them only one character is raised. Bracing puts the run of script
characters after a mark into braces, and leaves a mark without a run alone. A lowered
run may begin with one backslash, so that the name of a symbol is lowered as a whole.
-/

namespace VariableReport.Formula

structure Script where
  mark : Char
  /-- A character that may stand once in front of the run. -/
  lead : Option Char
  member : Char → Bool

/-- Letters and digits after an underscore. -/
def subscript : Script := ⟨'_', some '\\', Text.isAsciiWord⟩

/-- Letters, digits, points and minus signs after a caret. -/
def superscript : Script := ⟨'^', none, fun c => Text.isAsciiWord c || c = '.' || c = '-'⟩

namespace Script

/-- Whether a run starts here. -/
def opens (s : Script) : Text → Bool
  | [] => false
  | c :: cs => s.member c || (s.lead = some c && (cs.head?.map s.member).getD false)

/-- The state of bracing between two characters: outside runs, just after an opening brace,
or inside a run. -/
inductive Stage
  | outside
  | entering
  | inside
  deriving DecidableEq, Repr

def braceFrom (s : Script) : Stage → Text → Text
  | .outside, [] => []
  | _, [] => ['\x7d']
  | stage, c :: cs =>
    if stage = .entering || (stage = .inside && s.member c) then c :: braceFrom s .inside cs
    else
      (if stage = .inside then ['\x7d'] else []) ++
        if c = s.mark && s.opens cs then c :: '\x7b' :: braceFrom s .entering cs
        else c :: braceFrom s .outside cs

/-- The text with every run after the mark in braces. -/
def brace (s : Script) (t : Text) : Text := s.braceFrom .outside t

theorem brace_nil (s : Script) : s.brace [] = [] := rfl

/-- A text without the mark stays as it is. -/
theorem brace_eq_self {s : Script} {t : Text} (h : s.mark ∉ t) : s.brace t = t := by
  induction t with
  | nil => rfl
  | cons c cs ih =>
    simp only [List.mem_cons, not_or] at h
    have ih := ih h.2
    simp only [brace] at ih ⊢
    simp [braceFrom, Ne.symm h.1, ih]

end Script

end VariableReport.Formula
