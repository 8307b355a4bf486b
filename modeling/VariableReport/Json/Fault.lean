import VariableReport.Number.Decimal

/-!
# Faults of JSON texts

A fault of form is placed: the offset of the character where reading stopped, its line
and its column. Lines end at line feeds only, and lines and columns count from one.
Two faults have no place: a whole number with too many digits and too deep a nesting.
-/

namespace VariableReport.Json

inductive Cause
  | value
  | name
  | colon
  | comma
  | rest
  | closingQuote
  | controlCharacter
  | escape
  | numberedEscape
  | byteOrderMark
  deriving DecidableEq, Repr

inductive Container
  | array
  | object
  deriving DecidableEq, Repr

inductive Fault
  | malformed (cause : Cause) (offset line column : Nat)
  | tooManyDigits (count : Nat)
  | tooDeep (container : Container)
  deriving DecidableEq, Repr

def Cause.text : Cause → Text
  | .value => "Expecting value".toList
  | .name => "Expecting property name enclosed in double quotes".toList
  | .colon => "Expecting ':' delimiter".toList
  | .comma => "Expecting ',' delimiter".toList
  | .rest => "Extra data".toList
  | .closingQuote => "Unterminated string starting at".toList
  | .controlCharacter => "Invalid control character at".toList
  | .escape => "Invalid \\escape".toList
  | .numberedEscape => "Invalid \\uXXXX escape".toList
  | .byteOrderMark => "Unexpected UTF-8 BOM (decode using utf-8-sig)".toList

def Container.text : Container → Text
  | .array => "array".toList
  | .object => "object".toList

/-- The fault at an offset of a text. -/
def Fault.at (cause : Cause) (text : Text) (offset : Nat) : Fault :=
  let above := text.take offset
  .malformed cause offset (above.count '\n' + 1)
    ((above.reverse.takeWhile (· ≠ '\n')).length + 1)

def Fault.message : Fault → Text
  | .malformed cause offset line column =>
    cause.text ++ ": line ".toList ++ Decimal.natText line ++ " column ".toList ++
      Decimal.natText column ++ " (char ".toList ++ Decimal.natText offset ++ [')']
  | .tooManyDigits count =>
    "Exceeds the limit (4300 digits) for integer string conversion: value has ".toList ++
      Decimal.natText count ++
      " digits; use sys.set_int_max_str_digits() to increase the limit".toList
  | .tooDeep container =>
    "maximum recursion depth exceeded while decoding a JSON ".toList ++ container.text ++
      " from a unicode string".toList

end VariableReport.Json
