import VariableReport.Listing
import VariableReport.Number.Shortest

/-!
# Matrices

A matrix is a list of rows of one positive length, with at least one row, whose entries
are whole numbers or doubles. A text holds a matrix when it is a JSON array or a literal
of such rows; truth values are no entries. Whole numbers must be in the range of double
precision.

Whether the rows are of one length and their numbers in range is left to a library that arranges
them as doubles in an array. What is assumed of it is written down in `Arrays`.
-/

namespace VariableReport

inductive Matrix.Entry
  | int (n : Int)
  | float (d : Double)

structure Matrix where
  rows : List (List Matrix.Entry)

namespace Matrix

def Entry.ofValue? : Value → Option Entry
  | .int n => some (.int n)
  | .float d => some (.float d)
  | _ => none

def Entry.toValue : Entry → Value
  | .int n => .int n
  | .float d => .float d

def Entry.text : Entry → Text
  | .int n => Decimal.intText n
  | .float d => d.text

/-- Whether the entry has a double next to it. -/
def Entry.inRange : Entry → Bool
  | .int n => (Double.ofInt? n).isSome
  | .float _ => true

/-- Whether all rows are as long as the first. -/
def isEven (rows : List (List Entry)) : Bool :=
  rows.all fun row => row.length = (rows.headD []).length

/-- What comes of arranging rows of numbers as doubles. -/
inductive Arrangement
  | array (dimensions : Nat)
  | ragged
  | outOfRange
  deriving DecidableEq, Repr

/-- A library that arranges rows of numbers as doubles. It finds rows of different lengths first
and then numbers that have no double; any other rows make an array of two dimensions. -/
class Arrays where
  arrange : List (List Entry) → Arrangement
  ragged {rows : List (List Entry)} : rows ≠ [] → (∀ row ∈ rows, row ≠ []) →
    (arrange rows = .ragged ↔ isEven rows = false)
  outOfRange {rows : List (List Entry)} : rows ≠ [] → (∀ row ∈ rows, row ≠ []) →
    isEven rows = true →
    (arrange rows = .outOfRange ↔ (rows.all fun row => row.all Entry.inRange) = false)
  dimensions {rows : List (List Entry)} {n : Nat} : rows ≠ [] → (∀ row ∈ rows, row ≠ []) →
    arrange rows = .array n → n = 2

/-- The items of a list or tuple that has any. -/
def items? : Value → Option (List Value)
  | .list items => if items.isEmpty then none else some items
  | .tuple items => if items.isEmpty then none else some items
  | _ => none

/-- All answers, if there is one for every item. -/
def all? {α β : Type} (f : α → Option β) : List α → Option (List β)
  | [] => some []
  | a :: as => do
    let b ← f a
    let bs ← all? f as
    some (b :: bs)

/-- The rows of numbers in a list that is made of such, if there is one. -/
def rows? (rows : List Value) : Option (List (List Entry)) := do
  let rows ← all? items? rows
  let rows ← all? (all? Entry.ofValue?) rows
  if rows.isEmpty then none else some rows

section
variable [Host] [Arrays]

/-- The matrix that a text holds. -/
def read? (t : Text) : Except Failure (Option Matrix) := do
  match ← Listing.strict? t .matrix with
  | none => .ok none
  | some values =>
    match rows? values with
    | none => .ok none
    | some rows =>
      match Arrays.arrange rows with
      | .ragged => .ok none
      | .outOfRange => .error .integerOutOfRange
      | .array dimensions => .ok (if dimensions = 2 then some ⟨rows⟩ else none)

end

def toValue (m : Matrix) : Value := .list (m.rows.map fun row => .list (row.map Entry.toValue))

/-- The matrix as a formula, with ampersands between entries. -/
def latex (m : Matrix) : Text :=
  let rows := m.rows.map fun row => Text.join " & ".toList (row.map Entry.text)
  "\\begin\x7bbmatrix\x7d ".toList ++ Text.join " \\\\ ".toList rows ++
    " \\end\x7bbmatrix\x7d".toList

def latex? [Host] [Arrays] (t : Text) : Except Failure (Option Text) := do
  .ok ((← read? t).map latex)

end Matrix

end VariableReport
