import VariableReport.Number.Decimal
import VariableReport.Text.Quoted

/-!
# Faults of settings

Two groups of faults are kept apart. The faults of form concern the object that settings
are read from: its fields and their types. The faults of content concern settings whose
fields have the right types and that cannot be used together.
-/

namespace VariableReport

/-- Settings with fields of the right types that cannot be used. -/
inductive Settings.Misuse
  | emptyDirective
  | directiveNotWord (directive : Text)
  | symbolNotIdentifier (symbol : Text)
  | equalSuffixes (suffix : Text)
  deriving DecidableEq, Repr

/-- What is wrong with an object that settings are read from. -/
inductive Settings.Fault
  | notObject (typeName : Text)
  | unknownField (name : Text)
  | unexpectedField (name : Text)
  | wrongType (field expected value typeName : Text)
  | notSequence (typeName : Text)
  /-- A key that is no pair, in an object that stands for a sequence. -/
  | keyNotPair (index length : Nat)
  | valueTooLong
  | misuse (m : Misuse)
  deriving DecidableEq, Repr

namespace Settings

def Misuse.message : Misuse → Text
  | .emptyDirective => "table_directive must be a non-empty keyword".toList
  | .directiveNotWord directive =>
    "table_directive must be a plain word, got ".toList ++ Quoted.text directive
  | .symbolNotIdentifier symbol =>
    "symbol names must be identifiers, got ".toList ++ Quoted.text symbol
  | .equalSuffixes suffix =>
    "vars_suffix and report_suffix must differ, both are ".toList ++ Quoted.text suffix

def Fault.message : Fault → Text
  | .notObject typeName => Quoted.text typeName ++ " object has no attribute 'keys'".toList
  | .unknownField name =>
    "can not match \"".toList ++ name ++ "\" to any data class field".toList
  | .unexpectedField name =>
    "ReportConfig.__init__() got an unexpected keyword argument ".toList ++ Quoted.text name
  | .wrongType field expected value typeName =>
    "wrong value type for field \"".toList ++ field ++ "\" - should be \"".toList ++ expected ++
      "\" instead of value \"".toList ++ value ++ "\" of type \"".toList ++ typeName ++ ['\x22']
  | .notSequence typeName => Quoted.text typeName ++ " object is not iterable".toList
  | .keyNotPair index length =>
    "dictionary update sequence element #".toList ++ Decimal.natText index ++
      " has length ".toList ++ Decimal.natText length ++ "; 2 is required".toList
  | .valueTooLong =>
    "Exceeds the limit (4300 digits) for integer string conversion; ".toList ++
      "use sys.set_int_max_str_digits() to increase the limit".toList
  | .misuse m => m.message

end Settings

end VariableReport
