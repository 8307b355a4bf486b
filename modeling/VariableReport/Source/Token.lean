import VariableReport.Text.Lines

/-!
# Tokens of cell source

A token is a piece of one row or of several, with the positions of its two ends. Rows
count from one and columns from zero, in characters. A row ends at a line feed only,
while offsets into a text are counted along its lines, so the two agree on texts whose
only line boundary is the line feed.
-/

namespace VariableReport.Source

structure Position where
  row : Nat
  column : Nat
  deriving DecidableEq, Repr

inductive TokenKind
  | name
  | number
  | string
  | operator
  | comment
  /-- The end of a row that ends no logical line. -/
  | rowEnd
  /-- The end of a logical line. -/
  | lineEnd
  | indent
  | dedent
  | endMarker
  /-- A character, or a string without an end, that starts no token. -/
  | stray
  deriving DecidableEq, Repr

structure Token where
  kind : TokenKind
  text : Text
  start : Position
  stop : Position
  deriving DecidableEq, Repr

namespace Token

/-- Tokens that arrange rows and blocks and carry no code. -/
def isLayout (t : Token) : Bool :=
  match t.kind with
  | .rowEnd | .lineEnd | .indent | .dedent | .endMarker => true
  | _ => false

def isOperator (t : Token) (text : Text) : Bool := t.kind = .operator && t.text = text

end Token

/-- The offset of a position: the lengths of the lines above its row and its column. -/
def offset (t : Text) (p : Position) : Nat :=
  ((Text.lines t).take (p.row - 1)).flatten.length + p.column

/-- The text between two positions. -/
def segment (t : Text) (start stop : Position) : Text :=
  Text.slice t (offset t start) (offset t stop)

theorem offset_first_row (t : Text) (column : Nat) : offset t ⟨1, column⟩ = column := by
  simp [offset]

end VariableReport.Source
