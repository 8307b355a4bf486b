import VariableReport.Formula.Script
import VariableReport.Number.Decimal
import VariableReport.Text.Class

/-!
# Units

A unit stands in square brackets: factors with stars between them, and at most one
fraction, at the first slash. Simplifying collects equal factors into powers, in the
order in which the factors came first. A bracket span ends at the first closing bracket
and lies on one row; a bracket without such an end is no unit.
-/

namespace VariableReport.Formula

/-- The factors of a product, trimmed, without the empty ones. -/
def factors (t : Text) : List Text :=
  ((Text.splitOn '*' t).map Text.trim).filter fun f => !f.isEmpty

/-- One factor with its multiplicity. -/
def power (factor : Text) (count : Nat) : Text :=
  let base := subscript.brace factor
  if 1 < count then base ++ '^' :: '\x7b' :: (Decimal.natText count ++ ['\x7d']) else base

def dot : Text := " \\cdot ".toList

/-- A product with equal factors collected. -/
def simplifyProduct (t : Text) : Text :=
  let fs := factors t
  Text.join dot (fs.eraseDups.map fun f => power f (fs.count f))

/-- The content of a unit, simplified: a product or a fraction of two. An empty numerator
is one. -/
def simplifyUnit (content : Text) : Text :=
  match Text.cut '/' content with
  | none => simplifyProduct content
  | some (top, bottom) =>
    let top := simplifyProduct top
    (if top.isEmpty then ['1'] else top) ++ " / ".toList ++ simplifyProduct bottom

/-- What stands before the first closing bracket on this row. -/
def unitContent? : Text → Option Text
  | [] => none
  | c :: cs =>
    if c = ']' then some []
    else if c = '\n' then none
    else (unitContent? cs).map (c :: ·)

/-- One pass of `simplifyUnits`: `skip` characters of a unit have been dealt with. -/
def simplifyUnitsFrom : Nat → Text → Text
  | _, [] => []
  | skip + 1, _ :: cs => simplifyUnitsFrom skip cs
  | 0, c :: cs =>
    match if c = '[' then unitContent? cs else none with
    | some content =>
      '[' :: (simplifyUnit content ++ ']' :: simplifyUnitsFrom (content.length + 1) cs)
    | none => c :: simplifyUnitsFrom 0 cs

/-- The text with every unit in it simplified. -/
def simplifyUnits (t : Text) : Text := simplifyUnitsFrom 0 t

end VariableReport.Formula
