import VariableReport.Literal.Escape

/-!
# Formatted texts

A formatted text holds expressions in braces, and braces that are meant as such are written
twice. An expression may be followed by an equal sign, by a conversion of one letter behind
an exclamation mark, and behind a colon by a specification, which is a formatted text too: it
ends at a brace, knows no double ones, and in its own expressions the specifications hold no more
of them.

No expression holds a backslash or starts a comment. Its end is found by what is open in front:
quotes and brackets.
-/

namespace VariableReport.Literal

def isBrace (c : Char) : Bool := c = '\x7b' || c = '\x7d'

/-- A piece of a formatted text. -/
structure Piece where
  chars : Text
  /-- Whether it ends with a brace that is written twice. -/
  doubled : Bool
  rest : Text

def Piece.prepend (t : Text) (p : Piece) : Piece := { p with chars := t ++ p.chars }

/-- The first piece of a text, up to a brace; `inName` tells that the braces of the name of a
character are open, and `nested` that the text is a specification. -/
def piece? (raw nested : Bool) : (inName : Bool) → Text → Option Piece
  | _, [] => some ⟨[], false, []⟩
  | true, c :: cs => (piece? raw nested (c ≠ '\x7d') cs).map (.prepend [c])
  | false, c :: cs =>
    if c = '\\' && !raw then
      match cs with
      | 'N' :: '\x7b' :: ds => (piece? raw nested true ds).map (.prepend [c, 'N', '\x7b'])
      | 'N' :: d :: ds => (piece? raw nested false ds).map (.prepend [c, 'N', d])
      | d :: ds =>
        -- in front of a brace a backslash stands for itself, as two would
        if isBrace d then (piece? raw nested false (d :: ds)).map (.prepend [c, c])
        else (piece? raw nested false ds).map (.prepend [c, d])
      | [] => some ⟨[c], false, []⟩
    else if isBrace c then
      if nested then some ⟨[], false, c :: cs⟩
      else if cs.head? = some c then some ⟨[c], true, cs.drop 1⟩
      else if c = '\x7d' then none
      else some ⟨[], false, c :: cs⟩
    else (piece? raw nested false cs).map (.prepend [c])

/-- What is open in the text of an expression. -/
structure Opened where
  /-- The quote, and whether it stands three times. -/
  quote : Option (Char × Bool) := none
  brackets : Text := []

def closingOf (c : Char) : Char :=
  if c = '(' then ')' else if c = '[' then ']' else '\x7d'

/-- The text of an expression and what follows it: where nothing is open, an equal sign, an
exclamation mark, a colon or a closing brace, unless it is part of a comparison. -/
def source? (o : Opened) : Text → Option (Text × Text)
  | [] => none
  | c :: cs =>
    let one (o : Opened) := (source? o cs).map fun (s, r) => (c :: s, r)
    if c = '\\' then none
    else
      match o.quote with
      | some (q, triple) =>
        if c = q then
          if triple then
            match cs with
            | d :: e :: r =>
              if d = q && e = q then
                (source? { o with quote := none } r).map fun (s, r) => (c :: d :: e :: s, r)
              else one o
            | _ => one o
          else one { o with quote := none }
        else one o
      | none =>
        if c = '\x27' || c = '\x22' then
          match cs with
          | d :: e :: r =>
            if d = c && e = c then
              (source? { o with quote := some (c, true) } r).map fun (s, r) => (c :: d :: e :: s, r)
            else one { o with quote := some (c, false) }
          | _ => one { o with quote := some (c, false) }
        else if c = '(' || c = '[' || c = '\x7b' then one { o with brackets := c :: o.brackets }
        else if c = '#' then none
        else
          match o.brackets with
          | [] =>
            if c = '!' || c = '=' || c = '<' || c = '>' then
              match cs with
              | '=' :: r => (source? o r).map fun (s, r) => (c :: '=' :: s, r)
              | _ => if c = '<' || c = '>' then one o else some ([], c :: cs)
            else if c = ':' || c = '\x7d' then some ([], c :: cs)
            else if c = ']' || c = ')' then none
            else one o
          | b :: bs =>
            if c = ')' || c = ']' || c = '\x7d' then
              if c = closingOf b then one { o with brackets := bs } else none
            else one o

/-- The blanks that alone are no expression. -/
def isGap (c : Char) : Bool := c = ' ' || c = '\t' || c = '\n' || c = '\x0c'

/-- What follows an equal sign behind an expression, and blanks behind it. -/
def skipEqual (t : Text) : Text :=
  match t with
  | '=' :: r => r.dropWhile fun c => isGap c || c = '\x0b'
  | r => r

/-- What follows the conversion behind an expression, if there is one. -/
def skipConversion? (t : Text) : Option Text :=
  match t with
  | '!' :: c :: r => if c = 's' || c = 'r' || c = 'a' then some r else none
  | ['!'] => none
  | r => some r

variable [Host]

/-- The texts of the expressions of a formatted text and what follows it. Expressions stand
in the text and in the specifications there, but no deeper. -/
def partsFrom? (raw : Bool) : Nat → (level : Nat) → Text → Option (List Text × Text)
  | 0, _, _ => none
  | fuel + 1, level, t => do
    let p ← piece? raw (0 < level) false t
    if !raw && (unescape? false p.chars).isNone then none
    else if p.doubled then partsFrom? raw fuel level p.rest
    else
      match p.rest with
      | '\x7b' :: rest => do
        if 2 ≤ level then none
        else
          let (source, rest) ← source? {} rest
          if source.all isGap then none
          else
            let rest ← skipConversion? (skipEqual rest)
            let (inner, rest) ←
              match rest with
              | ':' :: rest => partsFrom? raw fuel (level + 1) rest
              | rest => some ([], rest)
            match rest with
            | '\x7d' :: rest => do
              let (more, rest) ← partsFrom? raw fuel level rest
              some (source :: (inner ++ more), rest)
            | _ => none
      | rest => some ([], rest)

/-- The texts of the expressions of a formatted text, if these can be told apart. -/
def formattedParts? (raw : Bool) (body : Text) : Option (List Text) :=
  match partsFrom? raw (body.length + 1) 0 body with
  | some (parts, []) => some parts
  | _ => none

end VariableReport.Literal
