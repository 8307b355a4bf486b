import VariableReport.Host
import VariableReport.Number.Decimal
import VariableReport.Text.Class
import VariableReport.Text.Utf8

/-!
# Escapes of quoted literals

A backslash before a line feed joins two lines. Other escapes are a letter, one to
three octal digits, a letter with a fixed number of digits of base sixteen, or the name
of a character in braces. Before any other character the backslash stands for itself.

In bytes every character is ASCII, there is no escape with more than two digits of base
sixteen and none with a name, and an octal number is cut to a byte.
-/

namespace VariableReport.Literal

def isOctal (c : Char) : Bool := '0' ≤ c && c ≤ '7'

/-- The letters that stand for one character. -/
def letterEscape? (c : Char) : Option Char :=
  if c = '\\' || c = '\x27' || c = '\x22' then some c
  else if c = 'a' then some '\x07'
  else if c = 'b' then some '\x08'
  else if c = 'f' then some '\x0c'
  else if c = 'n' then some '\n'
  else if c = 'r' then some '\r'
  else if c = 't' then some '\t'
  else if c = 'v' then some '\x0b'
  else none

/-- The value of the first `count` characters, if these are digits of base sixteen. -/
def hexDigits? (count : Nat) (t : Text) : Option Nat :=
  let ds := t.take count
  if ds.length = count && ds.all (Decimal.isDigit 16) then some (Decimal.value 16 ds) else none

/-- The character of a number, unless the number is out of range. A surrogate is
replaced. -/
def numberedChar? (n : Nat) : Option Char :=
  if 0x110000 ≤ n then none
  else if 0xD800 ≤ n && n < 0xE000 then some (Char.ofNat 0xFFFD)
  else some (Char.ofNat n)

/-- What an escape stands for, and how many characters follow its first one. -/
structure Escape where
  chars : Text
  more : Nat

variable [Host]

/-- The escape by the name of a character, of which `cs` is what follows its letter. -/
def namedEscape? (cs : Text) : Option Escape :=
  match cs with
  | '\x7b' :: ds =>
    let name := ds.takeWhile (· ≠ '\x7d')
    if name.isEmpty || name.length = ds.length then none
    else (Host.charNamed? name).map fun d => ⟨[d], name.length + 2⟩
  | _ => none

/-- The escape that a backslash starts in front of `c :: cs`. -/
def escape? (inBytes : Bool) (c : Char) (cs : Text) : Option Escape :=
  if c = '\n' then some ⟨[], 0⟩
  else if isOctal c then
    let ds := (c :: cs.take 2).takeWhile isOctal
    let n := Decimal.value 8 ds
    some ⟨[Char.ofNat (if inBytes then n % 256 else n)], ds.length - 1⟩
  else if c = 'x' then (hexDigits? 2 cs).map fun n => ⟨[Char.ofNat n], 2⟩
  else if c = 'u' && !inBytes then
    (hexDigits? 4 cs).bind fun n => (numberedChar? n).map fun d => ⟨[d], 4⟩
  else if c = 'U' && !inBytes then
    (hexDigits? 8 cs).bind fun n => (numberedChar? n).map fun d => ⟨[d], 8⟩
  else if c = 'N' && !inBytes then namedEscape? cs
  else
    match letterEscape? c with
    | some d => some ⟨[d], 0⟩
    | none => some ⟨['\\', c], 0⟩

/-- The text that a quoted body denotes; `skip` characters of an escape are still to be
passed over. -/
def unescapeFrom (inBytes : Bool) : Nat → Text → Option Text
  | _, [] => some []
  | skip + 1, _ :: cs => unescapeFrom inBytes skip cs
  | 0, c :: cs =>
    if c = '\\' then
      match cs with
      | [] => none
      | d :: ds =>
        match escape? inBytes d ds with
        | none => none
        | some e => (unescapeFrom inBytes (e.more + 1) (d :: ds)).map (e.chars ++ ·)
    else (unescapeFrom inBytes 0 cs).map (c :: ·)

def unescape? (inBytes : Bool) (body : Text) : Option Text := unescapeFrom inBytes 0 body

/-- The bytes of a text of characters below 256. -/
def bytesOf (t : Text) : Utf8.Bytes := t.map fun c => c.toNat.toUInt8

end VariableReport.Literal
