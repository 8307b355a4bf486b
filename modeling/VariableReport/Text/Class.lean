import VariableReport.Text

/-!
# Classes of characters

A set of code points is written as the ascending list of its maximal runs. The tables of character
properties in this folder are such lists; they hold the runs above the ASCII block, and the ASCII
part of a property is a rule of its own.

White space in general text is one set for trimming and for the patterns of this library: the
controls from tab to carriage return and from file separator to unit separator, the blanks of every
width, and the line and paragraph separators.
-/

namespace VariableReport.Text

/-- Whether `n` lies in one of the runs, which are ascending. -/
def inRanges (n : Nat) : List (Nat × Nat) → Bool
  | [] => false
  | (first, last) :: runs => if n < first then false else n ≤ last || inRanges n runs

def isAsciiDigit (c : Char) : Bool := '0' ≤ c && c ≤ '9'

def isAsciiLetter (c : Char) : Bool := ('a' ≤ c && c ≤ 'z') || ('A' ≤ c && c ≤ 'Z')

def isAsciiWord (c : Char) : Bool := isAsciiLetter c || isAsciiDigit c

/-! ### White space -/

def isBlank (c : Char) : Bool :=
  let n := c.toNat
  (9 ≤ n && n ≤ 13) || (28 ≤ n && n ≤ 32) || n = 0x85 || n = 0xA0 || n = 0x1680 ||
    (0x2000 ≤ n && n ≤ 0x200A) || n = 0x2028 || n = 0x2029 || n = 0x202F || n = 0x205F ||
    n = 0x3000

def trimStart (t : Text) : Text := t.dropWhile isBlank

def trimEnd (t : Text) : Text := (t.reverse.dropWhile isBlank).reverse

/-- The text without the white space at its two ends. -/
def trim (t : Text) : Text := trimEnd (trimStart t)

/-- The text without any white space. -/
def squeeze (t : Text) : Text := t.filter fun c => !isBlank c

end VariableReport.Text
