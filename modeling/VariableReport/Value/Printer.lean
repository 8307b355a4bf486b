import VariableReport.Number.Shortest
import VariableReport.Text.Quoted
import VariableReport.Value

/-!
# Values as text

A value prints as a literal, except that a text prints as itself where it is not part
of a larger value. Whole numbers of more than 4300 digits are refused, and with them
every value that holds one.
-/

namespace VariableReport.Value

/-- The greatest number of decimal digits that is read or printed. -/
def maxDigits : Nat := 4300

def intText? (n : Int) : Option Text :=
  if n.natAbs < Decimal.pow 10 maxDigits then some (Decimal.intText n) else Option.none

/-- The parts of a complex number have no fraction when they are whole. -/
def partLayout : Double.Layout := { wholeFraction := false }

/-- A real part of positive zero is left out; otherwise both parts stand in brackets. -/
def complexText (re im : Double) : Text :=
  if re.isZero && !re.isNegative then partLayout.text im ++ ['j']
  else '(' :: (partLayout.text re ++ partLayout.signed im ++ ['j', ')'])

def comma : Text := [',', ' ']

mutual

/-- The literal that denotes the value. -/
def literal? : Value → Option Text
  | .none => some "None".toList
  | .ellipsis => some "Ellipsis".toList
  | .bool b => some (if b then "True".toList else "False".toList)
  | .int n => intText? n
  | .float d => some d.text
  | .complex re im => some (complexText re im)
  | .str t => some (Quoted.text t)
  | .bytes b => some (Quoted.bytes b)
  | .list items => (literals? items).map fun ts => '[' :: (Text.join comma ts ++ [']'])
  | .tuple items => (literals? items).map fun ts =>
    match ts with
    | [t] => '(' :: (t ++ [',', ')'])
    | ts => '(' :: (Text.join comma ts ++ [')'])
  | .dict entries => (entryLiterals? entries).map fun ts =>
    '\x7b' :: (Text.join comma ts ++ ['\x7d'])
  | .set items => (literals? items).map fun ts =>
    match ts with
    | [] => "set()".toList
    | ts => '\x7b' :: (Text.join comma ts ++ ['\x7d'])

def literals? : List Value → Option (List Text)
  | [] => some []
  | v :: vs => do
    let t ← literal? v
    let ts ← literals? vs
    some (t :: ts)

def entryLiterals? : List (Value × Value) → Option (List Text)
  | [] => some []
  | (k, v) :: entries => do
    let a ← literal? k
    let b ← literal? v
    let ts ← entryLiterals? entries
    some ((a ++ ':' :: ' ' :: b) :: ts)

end

/-- The text that the value prints as. -/
def text? : Value → Option Text
  | .str t => some t
  | v => v.literal?

end VariableReport.Value
