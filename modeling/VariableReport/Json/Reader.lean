import VariableReport.Host
import VariableReport.Json
import VariableReport.Json.Fault
import VariableReport.Value.Printer

/-!
# Reading JSON

The reader goes over the text once and stops at the first fault. It also accepts the
three names of numbers that have no digits, and numbers out of range, which become
infinite. Control characters inside strings are refused. White space is the space, the
tab, the line feed and the carriage return.

Every function returns what it read with the rest of the text, and a fault is placed
by what was left where it was found. The recursion is on a number that `read` takes
large enough for the text; the nesting has a bound of its own, which the host sets where
the text is read.
-/

namespace VariableReport.Json

/-- A reader's fault, placed by the number of characters left. -/
inductive Stop
  | malformed (cause : Cause) (left : Nat)
  | tooManyDigits (count : Nat)
  | tooDeep (container : Container)

abbrev Reading (α : Type) := Except Stop (α × Text)

def isSpace (c : Char) : Bool := c = ' ' || c = '\t' || c = '\n' || c = '\r'

def skipSpace (t : Text) : Text := t.dropWhile isSpace

def isDigit (c : Char) : Bool := '0' ≤ c && c ≤ '9'

/-- The value of four digits of base sixteen. -/
def fourDigits? (a b c d : Char) : Option Nat := do
  let a ← Decimal.digitValue? a
  let b ← Decimal.digitValue? b
  let c ← Decimal.digitValue? c
  let d ← Decimal.digitValue? d
  some (((a * 16 + b) * 16 + c) * 16 + d)

def isHighSurrogate (n : Nat) : Bool := 0xD800 ≤ n && n < 0xDC00

def isLowSurrogate (n : Nat) : Bool := 0xDC00 ≤ n && n < 0xE000

def joinSurrogates (high low : Nat) : Char :=
  Char.ofNat (0x10000 + (high - 0xD800) * 1024 + (low - 0xDC00))

/-- The character of a code unit; one half of a pair has none and is replaced. -/
def unitChar (n : Nat) : Char :=
  if isHighSurrogate n || isLowSurrogate n then Char.ofNat 0xFFFD else Char.ofNat n

/-- The characters of a run of code units, of which two halves in order are one. -/
def joinUnits : List Nat → Text
  | [] => []
  | [n] => [unitChar n]
  | n :: m :: units =>
    if isHighSurrogate n && isLowSurrogate m then joinSurrogates n m :: joinUnits units
    else unitChar n :: joinUnits (m :: units)

def shortEscape? (c : Char) : Option Char :=
  if c = '\x22' || c = '\\' || c = '/' then some c
  else if c = 'b' then some '\x08'
  else if c = 'f' then some '\x0c'
  else if c = 'n' then some '\n'
  else if c = 'r' then some '\r'
  else if c = 't' then some '\t'
  else none

def Reading.cons (n : Nat) : Reading (List Nat) → Reading (List Nat)
  | .ok (units, rest) => .ok (n :: units, rest)
  | .error e => .error e

/-- The code units of a string after its opening quote, of which `opening` tells the
place. A numbered escape needs a character after its last digit. -/
def readUnits (opening : Nat) : Text → Reading (List Nat)
  | [] => .error (.malformed .closingQuote opening)
  | '\\' :: 'u' :: a :: b :: c :: d :: rest =>
    match fourDigits? a b c d with
    | none => .error (.malformed .numberedEscape (rest.length + 5))
    | some n =>
      if rest.isEmpty then .error (.malformed .numberedEscape 5)
      else (readUnits opening rest).cons n
  | '\\' :: 'u' :: rest => .error (.malformed .numberedEscape (rest.length + 1))
  | '\\' :: c :: rest =>
    match shortEscape? c with
    | none => .error (.malformed .escape (rest.length + 2))
    | some d => (readUnits opening rest).cons d.toNat
  | c :: rest =>
    if c = '\x22' then .ok ([], rest)
    else if c = '\\' then .error (.malformed .closingQuote opening)
    else if c.toNat < 32 then .error (.malformed .controlCharacter (rest.length + 1))
    else (readUnits opening rest).cons c.toNat

def readChars (opening : Nat) (t : Text) : Reading Text :=
  match readUnits opening t with
  | .ok (units, rest) => .ok (joinUnits units, rest)
  | .error e => .error e

/-- The digits at the start of a text and what follows them. -/
def takeDigits (t : Text) : Text × Text := (t.takeWhile isDigit, t.dropWhile isDigit)

/-- The whole part of a number: a zero, or digits that start with another one. -/
def readWhole? : Text → Option (Text × Text)
  | [] => none
  | c :: cs =>
    if c = '0' then some (['0'], cs) else if isDigit c then some (takeDigits (c :: cs)) else none

/-- The digits after a point, if the point is there and has any. -/
def readFraction? : Text → Option (Text × Text)
  | '.' :: c :: cs => if isDigit c then some (takeDigits (c :: cs)) else none
  | _ => none

/-- The exponent, if it is there and has digits. -/
def readExponent? : Text → Option (Int × Text)
  | e :: cs =>
    if e = 'e' || e = 'E' then
      let (negative, cs) :=
        match cs with
        | '-' :: r => (true, r)
        | '+' :: r => (false, r)
        | r => (false, r)
      let (ds, rest) := takeDigits cs
      if ds.isEmpty then none
      else
        let n : Int := Decimal.natValue ds
        some (if negative then -n else n, rest)
    else none
  | [] => none

def readNumber (t : Text) : Reading Json :=
  let (negative, body) :=
    match t with
    | '-' :: r => (true, r)
    | r => (false, r)
  match readWhole? body with
  | none => .error (.malformed .value t.length)
  | some (whole, rest) =>
    let (fraction, rest, isFloat) :=
      match readFraction? rest with
      | some (ds, r) => (ds, r, true)
      | none => ([], rest, false)
    let (power, rest, isFloat) :=
      match readExponent? rest with
      | some (x, r) => (x, r, true)
      | none => (0, rest, isFloat)
    if isFloat then
      .ok (.float (Double.ofDecimal negative (Decimal.natValue (whole ++ fraction))
        (power - fraction.length)), rest)
    else if Value.maxDigits < whole.length then .error (.tooManyDigits whole.length)
    else
      let n : Int := Decimal.natValue whole
      .ok (.int (if negative then -n else n), rest)

/-- The words that denote a value. -/
def words : List (Text × Json) := [
  ("null".toList, .null),
  ("true".toList, .bool true),
  ("false".toList, .bool false),
  ("NaN".toList, .float .nan),
  ("Infinity".toList, .float (.infinite false)),
  ("-Infinity".toList, .float (.infinite true))]

def readAtom (t : Text) : Reading Json :=
  match words.find? (·.1.isPrefixOf t) with
  | some (word, j) => .ok (j, t.drop word.length)
  | none => readNumber t

mutual

/-- A value at the start of a text, with `depth` containers still to be opened. -/
def readValue : Nat → Nat → Text → Reading Json
  | 0, _, t => .error (.malformed .value t.length)
  | fuel + 1, depth, t =>
    match t with
    | '\x22' :: rest =>
      match readChars t.length rest with
      | .ok (s, rest) => .ok (.str s, rest)
      | .error e => .error e
    | '[' :: rest =>
      match depth with
      | 0 => .error (.tooDeep .array)
      | depth + 1 =>
        match skipSpace rest with
        | ']' :: rest => .ok (.array [], rest)
        | rest =>
          match readItems fuel depth rest with
          | .ok (items, rest) => .ok (.array items, rest)
          | .error e => .error e
    | '\x7b' :: rest =>
      match depth with
      | 0 => .error (.tooDeep .object)
      | depth + 1 =>
        match skipSpace rest with
        | '\x7d' :: rest => .ok (.object [], rest)
        | rest =>
          match readMembers fuel depth rest with
          | .ok (members, rest) => .ok (.object (merge members), rest)
          | .error e => .error e
    | _ => readAtom t

/-- The items of an array up to its closing bracket. -/
def readItems : Nat → Nat → Text → Reading (List Json)
  | 0, _, t => .error (.malformed .value t.length)
  | fuel + 1, depth, t =>
    match readValue fuel depth t with
    | .error e => .error e
    | .ok (item, rest) =>
      match skipSpace rest with
      | ']' :: rest => .ok ([item], rest)
      | ',' :: rest =>
        match readItems fuel depth (skipSpace rest) with
        | .ok (items, rest) => .ok (item :: items, rest)
        | .error e => .error e
      | rest => .error (.malformed .comma rest.length)

/-- The members of an object up to its closing bracket. -/
def readMembers : Nat → Nat → Text → Reading (List (Text × Json))
  | 0, _, t => .error (.malformed .name t.length)
  | fuel + 1, depth, t =>
    match t with
    | '\x22' :: rest =>
      match readChars t.length rest with
      | .error e => .error e
      | .ok (name, rest) =>
        match skipSpace rest with
        | ':' :: rest =>
          match readValue fuel depth (skipSpace rest) with
          | .error e => .error e
          | .ok (value, rest) =>
            match skipSpace rest with
            | '\x7d' :: rest => .ok ([(name, value)], rest)
            | ',' :: rest =>
              match readMembers fuel depth (skipSpace rest) with
              | .ok (members, rest) => .ok ((name, value) :: members, rest)
              | .error e => .error e
            | rest => .error (.malformed .comma rest.length)
        | rest => .error (.malformed .colon rest.length)
    | rest => .error (.malformed .name rest.length)

end

/-- The fault of a text at which reading stopped. -/
def Stop.fault (text : Text) : Stop → Fault
  | .malformed cause left => .at cause text (text.length - left)
  | .tooManyDigits count => .tooManyDigits count
  | .tooDeep container => .tooDeep container

/-- The value of a text, in which as many arrays and objects may be open at once as the
depth says. -/
def readAll (depth : Nat) (t : Text) : Except Stop Json :=
  match readValue (2 * t.length + 2) depth (skipSpace t) with
  | .error e => .error e
  | .ok (j, rest) =>
    match skipSpace rest with
    | [] => .ok j
    | rest => .error (.malformed .rest rest.length)

/-- The value of a JSON text. A byte order mark at its start is a fault. -/
def read [Host] (t : Text) (site : Site := .list) : Except Fault Json :=
  if t.head? = some '\ufeff' then .error (.at .byteOrderMark t 0)
  else (readAll (Host.jsonDepth site) t).mapError (Stop.fault t)

end VariableReport.Json
