import VariableReport.Text
import VariableReport.Text.Identifier
import VariableReport.Text.Word

/-!
# Lexemes

A lexeme is what starts at one character of a row. The kinds are tried in a fixed
order and the first that fits is taken: the end of the row, an escaped row end, a
comment, the opening of a text in triple quotes, a number, a row end, an operator, a
text in single quotes, a word. The functions of this file give the number of characters
that a lexeme takes.
-/

namespace VariableReport.Source

inductive Lexeme
  | escapedRowEnd
  | comment
  /-- The opening of a text in triple quotes. -/
  | tripleOpen (quote : Char)
  | number
  | rowEnd
  | operator
  /-- A text in single quotes that ends on this row. -/
  | quoted
  /-- A text in single quotes whose row ends with a backslash. -/
  | quotedOpen (quote : Char)
  | word
  deriving DecidableEq, Repr

def isDigit (c : Char) : Bool := Text.isAsciiDigit c

/-- The characters of a run of digits, with single underscores between digits. -/
def digitRun (digit : Char → Bool) : Text → Nat
  | [] => 0
  | c :: cs =>
    if digit c then digitRun digit cs + 1
    else if c = '_' then
      match cs with
      | d :: ds => if digit d then digitRun digit ds + 2 else 0
      | [] => 0
    else 0

/-- A run that must start with a digit. -/
def digits (digit : Char → Bool) : Text → Nat
  | [] => 0
  | c :: cs => if digit c then digitRun digit (c :: cs) else 0

def isHexDigit (c : Char) : Bool :=
  isDigit c || ('a' ≤ c && c ≤ 'f') || ('A' ≤ c && c ≤ 'F')

/-- The digits that may follow a zero and a letter. -/
def digitOfBase? (letter : Char) : Option (Char → Bool) :=
  if letter = 'x' || letter = 'X' then some isHexDigit
  else if letter = 'b' || letter = 'B' then some fun c => c = '0' || c = '1'
  else if letter = 'o' || letter = 'O' then some fun c => '0' ≤ c && c ≤ '7'
  else none

/-- An exponent: its letter, a sign and digits; nothing without digits. -/
def exponent : Text → Nat
  | e :: cs =>
    if e = 'e' || e = 'E' then
      let sign :=
        match cs with
        | c :: _ => if c = '+' || c = '-' then 1 else 0
        | [] => 0
      let n := digits isDigit (cs.drop sign)
      if n = 0 then 0 else n + sign + 1
    else 0
  | [] => 0

/-- A number with a point or an exponent. -/
def floatNumber (t : Text) : Nat :=
  let n := digits isDigit t
  match t.drop n with
  | '.' :: cs =>
    let f := digits isDigit cs
    if n = 0 && f = 0 then 0 else n + 1 + f + exponent (cs.drop f)
  | cs =>
    let e := exponent cs
    if n = 0 || e = 0 then 0 else n + e

/-- The letter of a base and the digits after it; nothing without digits. -/
def basedRest : Text → Nat
  | letter :: cs =>
    match digitOfBase? letter with
    | some digit => if digitRun digit cs = 0 then 0 else digitRun digit cs + 1
    | none => 0
  | [] => 0

/-- A whole number: with the letter of a base, of zeros only, or without a leading zero. -/
def wholeNumber (t : Text) : Nat :=
  match t with
  | '0' :: cs =>
    if 0 < basedRest cs then basedRest cs + 1 else digitRun (fun c => c = '0') t
  | _ => digits isDigit t

def isImaginaryMark (t : Text) : Bool := (t.head?.map fun c => c = 'j' || c = 'J').getD false

def number (t : Text) : Nat :=
  let n := digits isDigit t
  let f := floatNumber t
  if 0 < n && isImaginaryMark (t.drop n) then n + 1
  else if 0 < f && isImaginaryMark (t.drop f) then f + 1
  else if 0 < f then f
  else wholeNumber t

/-- The operators and separators; of several that fit the longest is taken. -/
def operators : List Text :=
  ["**=", "...", "//=", "<<=", ">>=", "!=", "%=", "&=", "**", "*=", "+=", "-=", "->", "//",
    "/=", ":=", "<<", "<=", "==", ">=", ">>", "@=", "^=", "|=", "%", "&", "(", ")", "*", "+",
    ",", "-", ".", "/", ":", ";", "<", "=", ">", "@", "[", "]", "^", "\x7b", "|", "\x7d",
    "~"].map String.toList

def operator (t : Text) : Nat :=
  ((operators.find? (·.isPrefixOf t)).map List.length).getD 0

def isQuote (c : Char) : Bool := c = '\x27' || c = '\x22'

/-- Whether letters may stand before a quote. -/
def isStringLetters : Text → Bool
  | [] => true
  | [a] => "bBrRuUfF".toList.contains a
  | [a, b] =>
    ("bBfF".toList.contains a && "rR".toList.contains b) ||
      ("rR".toList.contains a && "bBfF".toList.contains b)
  | _ => false

/-- The number of letters before the quote at which a string starts, and the quote. -/
def stringStart? (t : Text) : Option (Nat × Char) :=
  let letters := (t.take 3).takeWhile fun c => !isQuote c
  match t.drop letters.length with
  | q :: _ => if isQuote q && isStringLetters letters then some (letters.length, q) else none
  | [] => none

/-- How a string in single quotes goes on to its end on this row. -/
inductive RowString
  | closed
  | escaped
  deriving DecidableEq, Repr

/-- The characters up to the closing quote, or up to an escaped row end. A backslash
protects the character after it. -/
def stringRest (quote : Char) : Text → Option (RowString × Nat)
  | [] => none
  | '\\' :: '\n' :: _ => some (.escaped, 2)
  | '\\' :: '\r' :: '\n' :: _ => some (.escaped, 3)
  | '\\' :: _ :: cs => (stringRest quote cs).map fun (e, n) => (e, n + 2)
  | c :: cs =>
    if c = quote then some (.closed, 1)
    else if c = '\\' || c = '\n' then none
    else (stringRest quote cs).map fun (e, n) => (e, n + 1)

/-- The lexeme at the start of a text and the characters it takes. The end of the row takes
none and has no lexeme. -/
def lexeme? (t : Text) : Option (Lexeme × Nat) :=
  match t with
  | [] => none
  | '\\' :: '\n' :: _ => some (.escapedRowEnd, 2)
  | '\\' :: '\r' :: '\n' :: _ => some (.escapedRowEnd, 3)
  | '#' :: cs => some (.comment, (cs.takeWhile fun c => c ≠ '\r' && c ≠ '\n').length + 1)
  | '\n' :: _ => some (.rowEnd, 1)
  | '\r' :: '\n' :: _ => some (.rowEnd, 2)
  | _ =>
    match stringStart? t with
    | some (n, q) =>
      if [q, q, q].isPrefixOf (t.drop n) then some (.tripleOpen q, n + 3)
      else
        match stringRest q (t.drop (n + 1)) with
        | some (.closed, m) => some (.quoted, n + 1 + m)
        | some (.escaped, m) => some (.quotedOpen q, n + 1 + m)
        | none => word? t
    | none =>
      if 0 < number t then some (.number, number t)
      else if 0 < operator t then some (.operator, operator t)
      else word? t
where
  /-- A run of word characters. -/
  word? (t : Text) : Option (Lexeme × Nat) :=
    let n := (t.takeWhile Text.isWord).length
    if n = 0 then none else some (.word, n)

end VariableReport.Source
