import VariableReport.Json
import VariableReport.Number.Shortest
import VariableReport.Text.Quoted

/-!
# Writing JSON

A style says whether the items of arrays and objects stand on lines of their own, and
how far each level is indented, and whether characters beyond printable ASCII are
numbered. Numbered characters beyond the first plane are written as two halves.
-/

namespace VariableReport.Json

structure Style where
  indent : Option Nat := none
  ascii : Bool := true

namespace Style

/-- On one line and in ASCII. -/
def compact : Style := {}

end Style

def numbered (n : Nat) : Text :=
  if n < 0x10000 then '\\' :: 'u' :: Quoted.hex 4 n
  else
    let n := n - 0x10000
    ['\\', 'u'] ++ Quoted.hex 4 (0xD800 + n / 1024) ++
      (['\\', 'u'] ++ Quoted.hex 4 (0xDC00 + n % 1024))

def escapeChar (ascii : Bool) (c : Char) : Text :=
  if c = '\x22' || c = '\\' then ['\\', c]
  else if c = '\n' then ['\\', 'n']
  else if c = '\r' then ['\\', 'r']
  else if c = '\t' then ['\\', 't']
  else if c = '\x0c' then ['\\', 'f']
  else if c = '\x08' then ['\\', 'b']
  else if c.toNat < 32 || (ascii && 126 < c.toNat) then numbered c.toNat
  else [c]

def quote (ascii : Bool) (t : Text) : Text :=
  '\x22' :: (t.flatMap (escapeChar ascii) ++ ['\x22'])

def numberText : Double → Text
  | .nan => "NaN".toList
  | .infinite negative => if negative then "-Infinity".toList else "Infinity".toList
  | d => d.text

/-- A line feed and the indentation of a level, in an indented style. -/
def Style.newLine (s : Style) (level : Nat) : Text :=
  match s.indent with
  | none => []
  | some n => '\n' :: List.replicate (n * level) ' '

def Style.separator (s : Style) (level : Nat) : Text :=
  match s.indent with
  | none => [',', ' ']
  | some _ => ',' :: s.newLine level

mutual

def renderAt (s : Style) (level : Nat) : Json → Text
  | null => "null".toList
  | bool b => if b then "true".toList else "false".toList
  | int n => Decimal.intText n
  | float d => numberText d
  | str t => quote s.ascii t
  | array [] => ['[', ']']
  | array (j :: js) =>
    '[' :: (s.newLine (level + 1) ++ renderAt s (level + 1) j ++
      (renderItems s (level + 1) js ++ (s.newLine level ++ [']'])))
  | object [] => ['\x7b', '\x7d']
  | object ((k, j) :: ms) =>
    '\x7b' :: (s.newLine (level + 1) ++
      (quote s.ascii k ++ ':' :: ' ' :: renderAt s (level + 1) j) ++
      (renderMembers s (level + 1) ms ++ (s.newLine level ++ ['\x7d'])))

/-- The items after the first, each with the separator in front. -/
def renderItems (s : Style) (level : Nat) : List Json → Text
  | [] => []
  | j :: js => s.separator level ++ renderAt s level j ++ renderItems s level js

def renderMembers (s : Style) (level : Nat) : List (Text × Json) → Text
  | [] => []
  | (k, j) :: ms =>
    s.separator level ++ (quote s.ascii k ++ ':' :: ' ' :: renderAt s level j) ++
      renderMembers s level ms

end

def render (s : Style) (j : Json) : Text := renderAt s 0 j

end VariableReport.Json
