import VariableReport.Source.Lexeme
import VariableReport.Source.Token
import VariableReport.Text.Class

/-!
# Lexing cell source

The lexer reads a cell row by row. Between rows it keeps the open brackets, the
indentation of the open blocks, and a string that has begun and not ended. A row inside
brackets or after an escaped row end continues the logical line; any other row starts
one and is compared with the open blocks.

A character that starts no lexeme becomes a stray token; the lexer goes on after it.
Three texts have no tokens: one that ends inside a string, inside brackets or after an
escaped row end, one that closes more brackets than it opened, and one with a row that
goes back to an indentation of no open block.

A string in single quotes that its rows do not end becomes a stray token, and the rows that
follow are read as if it had not been there. What a lexer may remember of it, so that a later
text in triple quotes asks for escaped row ends too, is not modelled.
-/

namespace VariableReport.Source

/-- A string that goes on beyond its row. One in single quotes does so only after an
escaped row end. -/
structure OpenString where
  start : Position
  text : Text
  quote : Char
  triple : Bool
  deriving DecidableEq, Repr

structure LexState where
  /-- Opened less closed brackets. -/
  brackets : Int := 0
  /-- Whether the last row ended with an escaped row end. -/
  continued : Bool := false
  /-- The indentations of the open blocks, innermost first. -/
  blocks : List Nat := []
  string : Option OpenString := none
  deriving DecidableEq, Repr

def LexState.atLineStart (s : LexState) : Bool :=
  s.string.isNone && s.brackets = 0 && !s.continued

/-- The blanks that stand between tokens. -/
def isGap (c : Char) : Bool := c = ' ' || c = '\t' || c = '\x0c'

/-- The characters of a text in triple quotes up to its end, if that is on this row. -/
def tripleRest (quote : Char) : Text → Option Nat
  | [] => none
  | '\\' :: c :: cs => if c = '\n' then none else (tripleRest quote cs).map (· + 2)
  | c :: cs =>
    if [quote, quote, quote].isPrefixOf (c :: cs) then some 3
    else if c = '\\' then none
    else (tripleRest quote cs).map (· + 1)

/-- The characters of a continued text in single quotes up to its end. -/
def continuedRest (quote : Char) : Text → Option Nat
  | [] => none
  | '\\' :: c :: cs => if c = '\n' then none else (continuedRest quote cs).map (· + 2)
  | c :: cs =>
    if c = quote then some 1
    else if c = '\\' then none
    else (continuedRest quote cs).map (· + 1)

def bracketChange (t : Text) : Int :=
  if t = ['('] || t = ['['] || t = ['\x7b'] then 1
  else if t = [')'] || t = [']'] || t = ['\x7d'] then -1
  else 0

/-- The kind of a word: a name, or an operator if it cannot start a name. -/
def wordKind : Text → TokenKind
  | [] => .operator
  | c :: _ => if Text.isIdentifierStart c then .name else .operator

/-- What one lexeme of a row does: the token it makes, if any, the state after it, and
whether the rest of the row belongs to an open string. -/
structure Step where
  token : Option Token
  state : LexState
  stops : Bool := false

/-- A lexeme of `n` characters at the start of `t`, as a step. A text in triple quotes takes
more of the row than its opening, so the number of characters is part of the answer. -/
def stepOf (row column : Nat) (s : LexState) (t : Text) : Lexeme → Nat → Step × Nat
  | .escapedRowEnd, n => (⟨none, { s with continued := true }, false⟩, n)
  | .comment, n => (⟨some (make .comment n), s, false⟩, n)
  | .tripleOpen quote, n =>
    match tripleRest quote (t.drop n) with
    | some m => (⟨some (make .string (n + m)), s, false⟩, n + m)
    | none =>
      (⟨none, { s with string := some ⟨⟨row, column⟩, t, quote, true⟩ }, true⟩, n)
  | .number, n => (⟨some (make .number n), s, false⟩, n)
  | .rowEnd, n =>
    (⟨some (make (if 0 < s.brackets then .rowEnd else .lineEnd) n), s, false⟩, n)
  | .operator, n =>
    (⟨some (make .operator n),
      { s with brackets := s.brackets + bracketChange (t.take n) }, false⟩, n)
  | .quoted, n => (⟨some (make .string n), s, false⟩, n)
  | .quotedOpen quote, n =>
    (⟨none, { s with string := some ⟨⟨row, column⟩, t, quote, false⟩ }, true⟩, n)
  | .word, n => (⟨some (make (wordKind t) n), s, false⟩, n)
where
  /-- The token of the first `n` characters. -/
  make (kind : TokenKind) (n : Nat) : Token :=
    ⟨kind, t.take n, ⟨row, column⟩, ⟨row, column + n⟩⟩

def strayAt (row column : Nat) (c : Char) : Token :=
  ⟨.stray, [c], ⟨row, column⟩, ⟨row, column + 1⟩⟩

/-- The tokens of the rest of a row; `skip` characters of a lexeme have been dealt with. A
gap before a stray character is stray as well. -/
def scanRow (row : Nat) : LexState → Nat → Nat → Text → List Token × LexState
  | s, _, _, [] => ([], s)
  | s, column, skip + 1, _ :: cs => scanRow row s (column + 1) skip cs
  | s, column, 0, c :: cs =>
    if isGap c then
      let ahead := cs.dropWhile isGap
      if ahead.isEmpty || (lexeme? ahead).isSome then scanRow row s (column + 1) 0 cs
      else
        let (tokens, s) := scanRow row s (column + 1) 0 cs
        (strayAt row column c :: tokens, s)
    else
      match lexeme? (c :: cs) with
      | none =>
        let (tokens, s) := scanRow row s (column + 1) 0 cs
        (strayAt row column c :: tokens, s)
      | some (l, n) =>
        let (step, n) := stepOf row column s (c :: cs) l n
        if step.stops then (step.token.toList, step.state)
        else
          let (tokens, s) := scanRow row step.state (column + 1) (n - 1) cs
          (step.token.toList ++ tokens, s)

/-- The indentation that leading blanks make: tabs go on to the next multiple of eight, and
a form feed starts anew. -/
def indentation : Nat → Text → Nat
  | n, [] => n
  | n, c :: cs =>
    if c = ' ' then indentation (n + 1) cs
    else if c = '\t' then indentation ((n / 8 + 1) * 8) cs
    else if c = '\x0c' then indentation 0 cs
    else n

/-- Close the blocks that are indented deeper than `n`; there are `count` of them. No block
remains at `n` if the indentation is none of the open ones. -/
def closeBlocks (n : Nat) : List Nat → Option (Nat × List Nat)
  | [] => if n = 0 then some (0, []) else none
  | block :: blocks =>
    if n < block then (closeBlocks n blocks).map fun (count, bs) => (count + 1, bs)
    else if n = block then some (0, block :: blocks)
    else none

/-- The tokens of a row that holds no code: its comment and its end. -/
def blankRow (row column : Nat) (t : Text) : List Token :=
  let body := if t.head? = some '#' then (t.reverse.dropWhile isRowEndChar).reverse else []
  let comment : List Token :=
    if body.isEmpty then []
    else [⟨.comment, body, ⟨row, column⟩, ⟨row, column + body.length⟩⟩]
  comment ++
    [⟨.rowEnd, t.drop body.length, ⟨row, column + body.length⟩, ⟨row, column + t.length⟩⟩]
where
  /-- The characters that end a row with its line feed. -/
  isRowEndChar (c : Char) : Bool := c = '\r' || c = '\n'

/-- A row that starts a logical line, with the block tokens in front of it. -/
def startRow (row : Nat) (s : LexState) (line : Text) : Option (List Token × LexState) :=
  let gap := line.takeWhile isGap
  let body := line.dropWhile isGap
  let n := indentation 0 gap
  let column := gap.length
  match body with
  | [] => some ([], s)
  | c :: _ =>
    if c = '#' || c = '\r' || c = '\n' then some (blankRow row column body, s)
    else if s.blocks.headD 0 < n then
      let (tokens, s) := scanRow row { s with blocks := n :: s.blocks } column 0 body
      some (⟨.indent, gap, ⟨row, 0⟩, ⟨row, column⟩⟩ :: tokens, s)
    else do
      let (count, blocks) ← closeBlocks n s.blocks
      let (tokens, s) := scanRow row { s with blocks } column 0 body
      let dedent : Token := ⟨.dedent, [], ⟨row, column⟩, ⟨row, column⟩⟩
      some (List.replicate count dedent ++ tokens, s)

/-- A row inside an open string. -/
def stringRow (row : Nat) (s : LexState) (open_ : OpenString) (line : Text) :
    List Token × LexState :=
  let rest := if open_.triple then tripleRest open_.quote line else continuedRest open_.quote line
  match rest with
  | some n =>
    let token : Token := ⟨.string, open_.text ++ line.take n, open_.start, ⟨row, n⟩⟩
    let (tokens, s) := scanRow row { s with string := none } n 0 (line.drop n)
    (token :: tokens, s)
  | none =>
    let longer : LexState := { s with string := some { open_ with text := open_.text ++ line } }
    if open_.triple || Text.endsWith line ['\\', '\n'] || Text.endsWith line ['\\', '\r', '\n'] then
      ([], longer)
    else
      ([⟨.stray, open_.text ++ line, open_.start, ⟨row, line.length⟩⟩], { s with string := none })

def lexRow (row : Nat) (s : LexState) (line : Text) : Option (List Token × LexState) :=
  match s.string with
  | some open_ => some (stringRow row s open_ line)
  | none =>
    if s.atLineStart then startRow row s line
    else some (scanRow row { s with continued := false } 0 0 line)

/-- The tokens after the last row: a line end if the last row has none and is not a comment,
the ends of the open blocks, and the end marker. -/
def finish (row : Nat) (s : LexState) (last : Text) : List Token :=
  let unended :=
    match last.getLast? with
    | none => false
    | some c => c ≠ '\r' && c ≠ '\n' && (Text.trim last).head? ≠ some '#'
  let lineEnd : List Token :=
    if unended then
      [⟨.lineEnd, [], ⟨row - 1, last.length⟩, ⟨row - 1, last.length + 1⟩⟩]
    else []
  let dedent : Token := ⟨.dedent, [], ⟨row, 0⟩, ⟨row, 0⟩⟩
  lineEnd ++ List.replicate s.blocks.length dedent ++ [⟨.endMarker, [], ⟨row, 0⟩, ⟨row, 0⟩⟩]

/-- The tokens of rows from a state on. A row of blanks without a line feed is the end. -/
def lexRows : Nat → LexState → Text → List Text → Option (List Token)
  | row, s, last, [] => if s.atLineStart then some (finish row s last) else none
  | row, s, last, line :: lines =>
    if s.atLineStart && line.all isGap then some (finish row s last)
    else do
      let (tokens, s) ← lexRow row s line
      let rest ← lexRows (row + 1) s line lines
      some (tokens ++ rest)

/-- The tokens of a text. -/
def tokens? (t : Text) : Option (List Token) := lexRows 1 {} [] (Text.rows t)

end VariableReport.Source
