import VariableReport.Source.Lexer
import VariableReport.Source.Magic

/-!
# Statements

A statement is one logical line, or a part of one between semicolons, with the comments
that belong to it. Comments on rows of their own lead the next statement. A comment on
the row of a statement trails it, also after the semicolon that ends it; where nothing
but semicolons stands on the row, the comment belongs to nothing.

A cell that cannot be lexed as a whole is lexed line by line, and lines that cannot be
lexed are left out.
-/

namespace VariableReport.Source

structure Statement where
  source : Text
  /-- The tokens of code, of which there is at least one. -/
  tokens : List Token
  /-- The number of blocks around the statement. -/
  depth : Int
  /-- The lines of the cell above `source`. -/
  linesAbove : Nat := 0
  leading : List Text := []
  trailing : List Text := []

namespace Statement

/-- The row of the first token in the cell. -/
def line (s : Statement) : Nat := ((s.tokens.head?.map (·.start.row)).getD 0) + s.linesAbove

/-- The source between two positions, as written. -/
def segment (s : Statement) (start stop : Position) : Text := Source.segment s.source start stop

end Statement

/-- What is open between two tokens: the statement that is being read, with the depth at its
first token and the comments before and after it, and a statement that a semicolon has
ended on this row and that later comments of the row still join. -/
structure Assembly where
  depth : Int := 0
  current : List Token := []
  startDepth : Int := 0
  leading : List Text := []
  trailing : List Text := []
  ended : Option Statement := none
  afterSemicolon : Bool := false

namespace Assembly

/-- Add a comment to the ended statement. -/
def extendEnded (a : Assembly) (comment : Text) : Assembly :=
  { a with ended := a.ended.map fun s => { s with trailing := s.trailing ++ [comment] } }

/-- The statement of the tokens read so far, if there are any. -/
def statement? (a : Assembly) (source : Text) (linesAbove : Nat) : Option Statement :=
  if a.current.isEmpty then none
  else some ⟨source, a.current, a.startDepth, linesAbove, a.leading, a.trailing⟩

end Assembly

def isSemicolon (t : Token) : Bool := t.isOperator [';']

/-- What a token does to an assembly: the statements that nothing can join any more are handed
out. -/
def Assembly.step (source : Text) (linesAbove : Nat) (a : Assembly) (t : Token) :
    List Statement × Assembly :=
  if t.kind = .indent then ([], { a with depth := a.depth + 1 })
  else if t.kind = .dedent then ([], { a with depth := a.depth - 1 })
  else if t.kind = .comment then
    if !a.current.isEmpty then ([], { a with trailing := a.trailing ++ [t.text] })
    else if a.afterSemicolon then ([], a.extendEnded t.text)
    else ([], { a with leading := a.leading ++ [t.text] })
  else if t.kind = .lineEnd || t.kind = .endMarker then
    (a.ended.toList ++ (a.statement? source linesAbove).toList,
      { depth := a.depth, leading := if a.current.isEmpty then a.leading else [] })
  else if isSemicolon t then
    match a.statement? source linesAbove with
    | some s => (a.ended.toList, { depth := a.depth, ended := some s, afterSemicolon := true })
    | none => ([], { a with afterSemicolon := true })
  else if t.kind = .rowEnd then ([], a)
  else if a.current.isEmpty then
    (a.ended.toList,
      { a with current := [t], startDepth := a.depth, trailing := [], ended := none,
               afterSemicolon := false })
  else ([], { a with current := a.current ++ [t] })

/-- The statements of a list of tokens. -/
def assemble (source : Text) (linesAbove : Nat) : Assembly → List Token → List Statement
  | a, [] => a.ended.toList
  | a, t :: ts =>
    let (statements, a) := a.step source linesAbove t
    statements ++ assemble source linesAbove a ts

/-- The statements of a text and its tokens. -/
def statementsOf (source : Text) (linesAbove : Nat) (tokens : List Token) : List Statement :=
  assemble source linesAbove {} tokens

/-- The statements of the lines that can be lexed on their own. -/
def statementsByLine : Nat → List Text → List Statement
  | _, [] => []
  | linesAbove, line :: lines =>
    let line := Text.bareLine line
    (match tokens? line with
      | some tokens => statementsOf line linesAbove tokens
      | none => []) ++ statementsByLine (linesAbove + 1) lines

/-- The statements of a cell. -/
def statements (source : Text) : List Statement :=
  match maskMagics? source with
  | none => []
  | some masked =>
    match tokens? masked with
    | some tokens => statementsOf masked 0 tokens
    | none => statementsByLine 0 (Text.lines masked)

end VariableReport.Source
