import VariableReport.Number.Decimal
import VariableReport.Text.Printable
import VariableReport.Text.Utf8

/-!
# Quoted text

The quoted form of a text shows printable characters as themselves. The quote is a
single one, unless the text holds single quotes and no double ones. The quote and the
backslash are escaped, and so is every character that does not print: three have a
letter of their own, the others are numbered in two, four or eight digits. Bytes are
quoted in the same way, and only ASCII prints there.
-/

namespace VariableReport.Quoted

def singleQuote : Char := '\x27'

def doubleQuote : Char := '\x22'

def backslash : Char := '\\'

/-- The number in base sixteen, in at least `width` digits. -/
def hex (width n : Nat) : Text :=
  let text := Decimal.digits 16 n
  List.replicate (width - text.length) '0' ++ text

/-- The quote that needs fewer escapes; the single one if there is nothing to choose. -/
def quoteFor (single double : Bool) : Char :=
  if single && !double then doubleQuote else singleQuote

def escapeChar (quote c : Char) : Text :=
  let n := c.toNat
  if c = quote || c = backslash then [backslash, c]
  else if c = '\t' then [backslash, 't']
  else if c = '\n' then [backslash, 'n']
  else if c = '\r' then [backslash, 'r']
  else if Text.isPrintable c then [c]
  else if n < 0x100 then backslash :: 'x' :: hex 2 n
  else if n < 0x10000 then backslash :: 'u' :: hex 4 n
  else backslash :: 'U' :: hex 8 n

def text (t : Text) : Text :=
  let quote := quoteFor (t.contains singleQuote) (t.contains doubleQuote)
  quote :: (t.flatMap (escapeChar quote) ++ [quote])

def escapeByte (quote : Char) (b : UInt8) : Text :=
  let n := b.toNat
  let c := Char.ofNat n
  if c = quote || c = backslash then [backslash, c]
  else if c = '\t' then [backslash, 't']
  else if c = '\n' then [backslash, 'n']
  else if c = '\r' then [backslash, 'r']
  else if 32 ≤ n && n < 127 then [c]
  else backslash :: 'x' :: hex 2 n

def bytes (b : Utf8.Bytes) : Text :=
  let quote := quoteFor (b.contains 39) (b.contains 34)
  'b' :: quote :: (b.flatMap (escapeByte quote) ++ [quote])

end VariableReport.Quoted
