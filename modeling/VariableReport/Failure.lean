import VariableReport.Files.Path
import VariableReport.Json.Fault
import VariableReport.Settings.Fault
import VariableReport.Text.Utf8

/-!
# Failures

Everything that can keep a report from being made, as causes. The causes of one
capability are types of their own; this file joins them, adds the ways in which a
notebook or snapshot of the wrong shape is noticed, and wraps the failures of a file
with its path. The wording is in `Failure.message` alone.
-/

namespace VariableReport

inductive Failure
  | json (f : Json.Fault)
  | utf8 (f : Utf8.Fault)
  | settings (f : Settings.Fault)
  | file (f : Files.Fault)
  /-- A whole number has too many digits to be printed. -/
  | integerTooLong
  /-- A whole number is out of the range of double precision. -/
  | integerOutOfRange
  /-- A value was asked for something that its type does not have. -/
  | noMember (typeName member : Text)
  /-- A notebook or one of its parts has no such key. -/
  | noKey (key : Text)
  | notSequence (typeName : Text)
  | notContainer (typeName : Text)
  | notHashable (typeName : Text)
  | notText (typeName : Text)
  /-- A value that is no text stands among texts to be joined. -/
  | itemNotText (index : Nat) (typeName : Text)
  /-- A list was asked for the member of a name. -/
  | listWithoutNames
  | noVariable (name : Text)
  | noSnapshot
  | snapshotNotObject (path typeName : Text)
  | snapshotUnreadable (path : Text) (cause : Failure)
  | snapshotMalformed (path : Text) (cause : Failure)
  | settingsNotObject (path typeName : Text)
  | settingsUnreadable (path : Text) (cause : Failure)
  | settingsInvalid (path : Text) (cause : Failure)
  | notebookNotJson (content : Text)
  | notebookVersion (version : Text)
  /-- A part of the format version of a notebook is no whole number. -/
  | versionNotWhole
  | notebookIncomplete (cause : Failure)
  | notebookUnreadable (path : Text) (cause : Failure)

namespace Failure

def utf8Message (f : Utf8.Fault) : Text :=
  let place :=
    match f.bytes with
    | [b] =>
      "byte 0x".toList ++ Quoted.hex 2 b.toNat ++ " in position ".toList ++
        Decimal.natText f.offset
    | bytes =>
      "bytes in position ".toList ++ Decimal.natText f.offset ++ '-' ::
        Decimal.natText (f.offset + bytes.length - 1)
  "'utf-8' codec can't decode ".toList ++ place ++ ':' :: ' ' :: f.cause.text

/-- The text, cut to eighty characters with three points for what is left out. -/
def abridge (t : Text) : Text :=
  if 80 < t.length then t.take 77 ++ ['.', '.', '.'] else t

def message : Failure → Text
  | json f => f.message
  | utf8 f => utf8Message f
  | settings f => f.message
  | file f => f.message
  | integerTooLong =>
    "Exceeds the limit (4300 digits) for integer string conversion; ".toList ++
      "use sys.set_int_max_str_digits() to increase the limit".toList
  | integerOutOfRange => "int too large to convert to float".toList
  | noMember typeName member =>
    Quoted.text typeName ++ " object has no attribute ".toList ++ Quoted.text member
  | noKey key => key
  | notSequence typeName => Quoted.text typeName ++ " object is not iterable".toList
  | notContainer typeName =>
    "argument of type ".toList ++ Quoted.text typeName ++ " is not iterable".toList
  | notHashable typeName => "unhashable type: ".toList ++ Quoted.text typeName
  | notText typeName =>
    "expected string or bytes-like object, got ".toList ++ Quoted.text typeName
  | itemNotText index typeName =>
    "sequence item ".toList ++ Decimal.natText index ++ ": expected str instance, ".toList ++
      typeName ++ " found".toList
  | listWithoutNames => "pop expected at most 1 argument, got 2".toList
  | noVariable name => Quoted.text name
  | noSnapshot =>
    "No variable snapshot found in notebook outputs. Run a cell printing ".toList ++
      "snapshot_cell_source() output, or pass --snapshot.".toList
  | snapshotNotObject path typeName =>
    "Snapshot ".toList ++ path ++ " must be a JSON object, got ".toList ++ typeName
  | snapshotUnreadable path cause =>
    "Cannot read snapshot ".toList ++ path ++ ':' :: ' ' :: cause.message
  | snapshotMalformed path cause =>
    "Snapshot ".toList ++ path ++ " is not valid JSON: ".toList ++ cause.message
  | settingsNotObject path typeName =>
    "Config ".toList ++ path ++ " must be a JSON object, got ".toList ++ typeName
  | settingsUnreadable path cause =>
    "Cannot read config ".toList ++ path ++ ':' :: ' ' :: cause.message
  | settingsInvalid path cause =>
    "Invalid config ".toList ++ path ++ ':' :: ' ' :: cause.message
  | notebookNotJson content =>
    abridge ("Notebook does not appear to be JSON: ".toList ++ Quoted.text content)
  | notebookVersion version => "Unsupported nbformat version ".toList ++ version
  | versionNotWhole => []
  | notebookIncomplete cause =>
    "The notebook is invalid and is missing an expected key: ".toList ++ cause.message
  | notebookUnreadable path cause =>
    "Cannot read notebook ".toList ++ path ++ ':' :: ' ' :: cause.message

/-- Whether the failure is one of the three that name a file of a report run, or the lack of
a snapshot: these end a run in an orderly way. -/
def isOrderly : Failure → Bool
  | noSnapshot | snapshotNotObject _ _ | snapshotUnreadable _ _ | snapshotMalformed _ _ => true
  | settingsNotObject _ _ | settingsUnreadable _ _ | settingsInvalid _ _ => true
  | notebookUnreadable _ _ => true
  | _ => false

end Failure

end VariableReport
