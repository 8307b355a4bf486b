import VariableReport.Literal.Formatted
import VariableReport.Number.Double
import VariableReport.Text.Identifier
import VariableReport.Value.Printer

/-!
# Tokens of literals

The text of a literal is cut into numbers, quoted texts, names and signs: brackets,
operators and the words with a meaning of their own. Blanks, comments and escaped line
ends separate tokens. A line end counts outside brackets only, and the first token of a
line outside brackets must not be indented. At most 200 brackets may be open at once. A
text with anything else in it has no tokens, and neither has one with a word that stands
in statements only.
-/

namespace VariableReport.Literal

/-- An operator of one or two characters or a word that no name can be. -/
inductive Sign
  | mark (c : Char)
  | pair (c d : Char)
  | word (t : Text)
  deriving DecidableEq, Repr

inductive Token
  | value (v : Value)
  /-- A text into which the values of expressions are put, with their texts. -/
  | formatted (parts : List Text)
  | name (t : Text)
  | sign (s : Sign)
  | lineEnd

@[match_pattern]
abbrev Token.mark (c : Char) : Token := .sign (.mark c)

/-- The words that expressions are made of. -/
def expressionWords : List Text :=
  ["and", "async", "await", "else", "for", "from", "if", "in", "is", "lambda", "not", "or",
    "yield"].map String.toList

/-- The words that stand in statements only. -/
def statementWords : List Text :=
  ["as", "assert", "break", "class", "continue", "def", "del", "elif", "except", "finally",
    "global", "import", "nonlocal", "pass", "raise", "return", "try", "while",
    "with"].map String.toList

/-- Any character beyond ASCII may stand in a name here; names are compared later. -/
def isNameChar (c : Char) : Bool := Text.isAsciiWord c || c = '_' || 128 ≤ c.toNat

/-- A run of digits of a base in which single underscores may stand between digits, and
what follows it. -/
def digitRun (base : Nat) : Text → Text × Text
  | [] => ([], [])
  | c :: cs =>
    if Decimal.isDigit base c then
      let (ds, rest) := digitRun base cs
      (c :: ds, rest)
    else if c = '_' && (cs.head?.map (Decimal.isDigit base)).getD false then digitRun base cs
    else ([], c :: cs)

/-- A run that starts with a digit. -/
def digitRun? (base : Nat) (t : Text) : Option (Text × Text) :=
  match t with
  | c :: _ => if Decimal.isDigit base c then some (digitRun base t) else none
  | [] => none

/-- The base that a letter after a leading zero announces. -/
def baseOf? (c : Char) : Option Nat :=
  if c = 'x' || c = 'X' then some 16
  else if c = 'o' || c = 'O' then some 8
  else if c = 'b' || c = 'B' then some 2
  else none

def basedNumber? (base : Nat) (t : Text) : Option (Value × Text) := do
  let t := match t with
    | '_' :: r => r
    | r => r
  let (ds, rest) ← digitRun? base t
  some (.int (Decimal.value base ds), rest)

/-- The digits after an exponent letter, as a power. Once the letter is there, digits must
follow. -/
def exponent? (t : Text) : Option (Int × Text) := do
  let (negative, t) := match t with
    | '-' :: r => (true, r)
    | '+' :: r => (false, r)
    | r => (false, r)
  let (ds, rest) ← digitRun? 10 t
  let n : Int := Decimal.natValue ds
  some (if negative then -n else n, rest)

/-- The words that may stand behind a number with nothing between. -/
def wordsBehindNumber : List Text :=
  ["and", "else", "for", "if", "in", "is", "not", "or"].map String.toList

def startsWithWord (t : Text) : Bool := wordsBehindNumber.contains (t.takeWhile isNameChar)

/-- A decimal number: digits, a fraction, an exponent and the mark of an imaginary number,
each of which may be absent. A whole number other than zero has no leading zero and at
most 4300 digits. -/
def decimalNumber? (t : Text) : Option (Value × Text) := do
  let (whole, rest) := (digitRun? 10 t).getD ([], t)
  let (fraction, rest, isFloat) := match rest with
    | '.' :: r =>
      let (ds, r) := (digitRun? 10 r).getD ([], r)
      (ds, r, true)
    | r => ([], r, false)
  let (power, rest, isFloat) ← match rest with
    | e :: r =>
      if (e = 'e' || e = 'E') && !startsWithWord rest then
        (exponent? r).map fun (x, r) => (x, r, true)
      else some (0, rest, isFloat)
    | [] => some (0, rest, isFloat)
  let number := Double.ofDecimal false (Decimal.natValue (whole ++ fraction))
    (power - fraction.length)
  match rest with
  | j :: r =>
    if j = 'j' || j = 'J' then some (.complex .zero number, r)
    else if isFloat then some (.float number, rest)
    else wholeNumber? whole rest
  | [] => if isFloat then some (.float number, rest) else wholeNumber? whole rest
where
  /-- The value of the digits of a whole number. -/
  wholeNumber? (ds rest : Text) : Option (Value × Text) :=
    if ds.all (· = '0') then some (.int 0, rest)
    else if ds.head? = some '0' || Value.maxDigits < ds.length then none
    else some (.int (Decimal.natValue ds), rest)

/-- A number at the start of a text. No letter may follow it, unless it begins a word that
is an operator. -/
def number? (t : Text) : Option (Value × Text) := do
  let (v, rest) ← match t with
    | '0' :: c :: r =>
      match baseOf? c with
      | some base => basedNumber? base r
      | none => decimalNumber? t
    | _ => decimalNumber? t
  match rest with
  | c :: _ => if isNameChar c && !startsWithWord rest then none else some (v, rest)
  | [] => some (v, rest)

/-- What a quoted text is read as. -/
inductive QuotedKind
  | text
  | bytes
  | formatted
  deriving DecidableEq, Repr

/-- What the letters before a quote say. -/
structure Quoting where
  kind : QuotedKind
  raw : Bool

def quotingOf? (letters : Text) : Option Quoting :=
  let has (small large : Char) := letters.any fun c => c = small || c = large
  match letters with
  | [] => some ⟨.text, false⟩
  | [_] =>
    if has 'b' 'B' then some ⟨.bytes, false⟩
    else if has 'f' 'F' then some ⟨.formatted, false⟩
    else if has 'r' 'R' then some ⟨.text, true⟩
    else if has 'u' 'U' then some ⟨.text, false⟩
    else none
  | [_, _] =>
    if has 'b' 'B' && has 'r' 'R' then some ⟨.bytes, true⟩
    else if has 'f' 'F' && has 'r' 'R' then some ⟨.formatted, true⟩
    else none
  | _ => none

/-- The body of a quoted text up to the quotes that close it, and what follows. A backslash
protects the character after it. -/
def closeQuote (quote : Char) (triple : Bool) : Text → Option (Text × Text)
  | [] => none
  | '\\' :: c :: cs => (closeQuote quote triple cs).map fun (b, r) => ('\\' :: c :: b, r)
  | c :: cs =>
    if c = quote then
      if !triple then some ([], cs)
      else
        match cs with
        | d :: e :: r =>
          if d = quote && e = quote then some ([], r)
          else (closeQuote quote triple (d :: e :: r)).map fun (b, r) => (c :: b, r)
        | _ => none
    else if c = '\n' && !triple then none
    else (closeQuote quote triple cs).map fun (b, r) => (c :: b, r)

section
variable [Host]

/-- The token of a quoted text, of which the body is what stands between the quotes. -/
def quotedToken? (q : Quoting) (body : Text) : Option Token :=
  match q.kind with
  | .text => (if q.raw then some body else unescape? false body).map fun t => .value (.str t)
  | .bytes =>
    if body.any (128 ≤ ·.toNat) then none
    else (if q.raw then some body else unescape? true body).map fun t => .value (.bytes (bytesOf t))
  | .formatted => (formattedParts? q.raw body).map .formatted

/-- A quoted text after its letters. -/
def quoted? (q : Quoting) : Text → Option (Token × Text)
  | a :: b :: c :: cs => do
    let (body, rest) ←
      if b = a && c = a then closeQuote a true cs else closeQuote a false (b :: c :: cs)
    some (← quotedToken? q body, rest)
  | a :: cs => do
    let (body, rest) ← closeQuote a false cs
    some (← quotedToken? q body, rest)
  | [] => none

end

def isQuote (c : Char) : Bool := c = '\x27' || c = '\x22'

/-- The token of a word, unless it stands in statements only or holds a character that no
name has. -/
def wordToken? (t : Text) : Option Token :=
  if t = "None".toList then some (.value .none)
  else if t = "True".toList then some (.value (.bool true))
  else if t = "False".toList then some (.value (.bool false))
  else if expressionWords.contains t then some (.sign (.word t))
  else if statementWords.contains t || !Text.isIdentifier t then none
  else some (.name t)

/-- The operators of two characters. -/
def pairs : List (Char × Char) :=
  [('*', '*'), ('/', '/'), ('<', '<'), ('>', '>'), ('<', '='), ('>', '='), ('=', '='), ('!', '='),
    (':', '=')]

/-- The operators of one character. -/
def marks : List Char :=
  ['[', ']', '(', ')', '\x7b', '\x7d', ',', ':', '.', '+', '-', '*', '/', '%', '@', '&', '|', '^',
    '~', '<', '>', '=']

/-- An operator, of two characters where this is one. -/
def operator? : Text → Option (Token × Text)
  | c :: d :: cs =>
    if pairs.contains (c, d) then some (.sign (.pair c d), cs)
    else if marks.contains c then some (.mark c, d :: cs)
    else none
  | [c] => if marks.contains c then some (.mark c, []) else none
  | [] => none

/-- A number, a quoted text, a word, the three points or an operator. -/
def token? [Host] (t : Text) : Option (Token × Text) :=
  match t with
  | [] => none
  | c :: cs =>
    if Text.isAsciiDigit c || (c = '.' && (cs.head?.map Text.isAsciiDigit).getD false) then
      (number? t).map fun (v, r) => (.value v, r)
    else if ['.', '.', '.'].isPrefixOf t then some (.value .ellipsis, t.drop 3)
    else if isQuote c then quoted? ⟨.text, false⟩ t
    else if isNameChar c then
      let word := t.takeWhile isNameChar
      let rest := t.dropWhile isNameChar
      if (rest.head?.map isQuote).getD false then
        match quotingOf? word with
        | some q => quoted? q rest
        | none => (wordToken? word).map fun k => (k, rest)
      else (wordToken? word).map fun k => (k, rest)
    else operator? t

/-- The state between tokens: the number of open brackets, and at the start of a line
outside brackets the indentation so far. -/
structure Place where
  depth : Nat
  indent : Option Nat

def maxDepth : Nat := 200

/-- The place after a mark; too many brackets have none. A closing bracket too many is left
to the parser. -/
def Place.after? (p : Place) : Token → Option Place
  | .mark c =>
    if c = '[' || c = '(' || c = '\x7b' then
      if p.depth < maxDepth then some ⟨p.depth + 1, none⟩ else none
    else if c = ']' || c = ')' || c = '\x7d' then some ⟨p.depth - 1, none⟩
    else some ⟨p.depth, none⟩
  | _ => some ⟨p.depth, none⟩

variable [Host]

/-- The tokens from a place on. Also the last line has an end, unless it has no tokens. -/
def tokensFrom : Nat → Place → Text → Option (List Token)
  | 0, _, _ => none
  | _ + 1, p, [] => some (if p.indent.isSome then [] else [.lineEnd])
  | fuel + 1, p, c :: cs =>
    if c = ' ' || c = '\t' then tokensFrom fuel { p with indent := p.indent.map (· + 1) } cs
    else if c = '\x0c' then tokensFrom fuel { p with indent := p.indent.map fun _ => 0 } cs
    else if c = '#' then tokensFrom fuel p (cs.dropWhile (· ≠ '\n'))
    else if c = '\n' then
      if 0 < p.depth then tokensFrom fuel p cs
      else if p.indent.isSome then tokensFrom fuel ⟨0, some 0⟩ cs
      else (tokensFrom fuel ⟨0, some 0⟩ cs).map (.lineEnd :: ·)
    else if c = '\\' then
      match cs with
      | '\n' :: d :: ds => tokensFrom fuel p (d :: ds)
      | _ => none
    else if 0 < p.indent.getD 0 then none
    else do
      let (token, rest) ← token? (c :: cs)
      let p ← p.after? token
      let tokens ← tokensFrom fuel p rest
      some (token :: tokens)

/-- The tokens of a text in which every line end is a line feed. -/
def tokens? (t : Text) : Option (List Token) :=
  if t.contains '\x00' then none else tokensFrom (t.length + 1) ⟨0, some 0⟩ t

end VariableReport.Literal
