import VariableReport.Value

/-!
# Elements of arrays

All elements of an array have one type. A number that is put into an array is brought to
that type: a whole number loses its fraction, and a real number is rounded to the precision
of the array. Nested lists are brought to the type item by item.
-/

namespace VariableReport.Kernel

inductive Element
  | truth
  | whole
  | real (p : Precision)
  | complex (p : Precision)

namespace Element

/-- The element type of a name, if it is one of numbers. -/
def ofName? (name : Text) : Option Element :=
  if name = "bool".toList then some .truth
  else if Text.startsWith name "int".toList || Text.startsWith name "uint".toList then some .whole
  else if name = "float64".toList then some (.real .double)
  else if name = "float32".toList then some (.real .single)
  else if name = "float16".toList then some (.real .half)
  else if name = "complex128".toList then some (.complex .double)
  else if name = "complex64".toList then some (.complex .single)
  else none

/-- The real part of a number. -/
def realPart : Value → Double
  | .bool b => (Double.ofInt? (if b then 1 else 0)).getD .nan
  | .int n => (Double.ofInt? n).getD .nan
  | .float d => d
  | .complex re _ => re
  | _ => .nan

def imaginaryPart : Value → Double
  | .complex _ im => im
  | _ => .zero

def wholePart : Value → Int
  | .int n => n
  | v => ((realPart v).truncate?).getD 0

def castNumber (e : Element) (v : Value) : Value :=
  match e with
  | .truth => .bool (!((realPart v).isZero && (imaginaryPart v).isZero))
  | .whole => .int (wholePart v)
  | .real p => .float ((realPart v).coarsen p)
  | .complex p => .complex ((realPart v).coarsen p) ((imaginaryPart v).coarsen p)

mutual

/-- The value with all numbers in it brought to the type. -/
def cast (e : Element) : Value → Value
  | .list items => .list (castAll e items)
  | .tuple items => .list (castAll e items)
  | v => castNumber e v

def castAll (e : Element) : List Value → List Value
  | [] => []
  | v :: vs => cast e v :: castAll e vs

end

end Element

/-- The nested lists of an array with elements of a named type. -/
def arrayContent (elementName : Text) (v : Value) : Value :=
  match Element.ofName? elementName with
  | some e => e.cast v
  | none => v

end VariableReport.Kernel
