import VariableReport.Source.Statement

/-!
# Assignments

An assignment gives one plain name a value at the outermost level of a cell, with or
without an annotation. A statement with two equal signs outside brackets is none, but
the equal signs after the word `lambda` belong to the parameters of a function and do
not count.
-/

namespace VariableReport.Source

/-- The words that are no names. -/
def keywords : List Text :=
  ["False", "None", "True", "and", "as", "assert", "async", "await", "break", "class",
    "continue", "def", "del", "elif", "else", "except", "finally", "for", "from", "global",
    "if", "import", "in", "is", "lambda", "nonlocal", "not", "or", "pass", "raise", "return",
    "try", "while", "with", "yield"].map String.toList

def isOpening (t : Text) : Bool := t = ['('] || t = ['['] || t = ['\x7b']

def isClosing (t : Text) : Bool := t = [')'] || t = [']'] || t = ['\x7d']

/-- The numbers of the operators outside brackets that are equal signs, counted from `i`. A
bracket that was never opened closes nothing. -/
def equalSigns : Nat → Nat → List Token → List Nat
  | _, _, [] => []
  | depth, i, t :: ts =>
    if t.kind ≠ .operator then equalSigns depth (i + 1) ts
    else if isOpening t.text then equalSigns (depth + 1) (i + 1) ts
    else if isClosing t.text then equalSigns (depth - 1) (i + 1) ts
    else if depth = 0 && t.text = ['='] then i :: equalSigns depth (i + 1) ts
    else equalSigns depth (i + 1) ts

def isLambda (t : Token) : Bool := t.kind = .name && t.text = "lambda".toList

/-- The number of the token at which the value begins, if the tokens assign a name. -/
def valueFrom? (tokens : List Token) : Option Nat :=
  match tokens with
  | target :: second :: _ :: _ =>
    if target.kind ≠ .name || keywords.contains target.text then none
    else if !(second.isOperator ['='] || second.isOperator [':']) then none
    else
      match equalSigns 0 1 ((tokens.takeWhile fun t => !isLambda t).drop 1) with
      | [eq] => if second.isOperator ['='] && eq ≠ 1 then none else some (eq + 1)
      | _ => none
  | _ => none

/-- Name and right-hand side of a statement that is an assignment. The right-hand side is
the source between the equal sign and the last token, as written. -/
def assignment? (s : Statement) : Option (Text × Text) :=
  if s.depth ≠ 0 then none
  else do
    let target ← s.tokens.head?
    let i ← valueFrom? s.tokens
    let first ← s.tokens[i]?
    let last ← s.tokens.getLast?
    let rhs := Text.trim (s.segment first.start last.stop)
    if rhs.isEmpty then none else some (target.text, rhs)

end VariableReport.Source
