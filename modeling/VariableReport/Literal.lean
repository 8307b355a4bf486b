import VariableReport.Literal.Grammar
import VariableReport.Text.Lines

/-!
# Literals

A form denotes a value when it is a constant, a bracket of forms that do, the empty
set, a number with one sign, or a real number with a sign or without, plus or minus an
imaginary or complex one. Keys of dictionaries and members of sets hold no list,
dictionary or set.

Forms are looked at from the left, after all of the text has been read. So a whole number out
of range is found before a later form that denotes nothing, but not in a text that is no expression.
-/

namespace VariableReport.Literal

/-- Why a text denotes no value. A whole number that is added to an imaginary one must be
in the range of double precision. -/
inductive Fault
  | noLiteral
  | outOfRange
  deriving DecidableEq, Repr

/-- A number without a sign. -/
def Form.number? : Form → Option Value
  | .constant (.int n) => some (.int n)
  | .constant (.float d) => some (.float d)
  | .constant (.complex re im) => some (.complex re im)
  | _ => none

def negate : Value → Value
  | .int n => .int (-n)
  | .float d => .float d.neg
  | .complex re im => .complex re.neg im.neg
  | v => v

/-- A number with at most one sign. -/
def Form.signed? : Form → Option Value
  | .plus f => f.number?
  | .minus f => f.number?.map negate
  | f => f.number?

/-- A real number as a double. -/
def realPart (v : Value) : Except Fault Double :=
  match v with
  | .int n =>
    match Double.ofInt? n with
    | some d => .ok d
    | none => .error .outOfRange
  | .float d => .ok d
  | _ => .error .noLiteral

/-- The sum of a real number and a complex one whose real part is zero. -/
def addComplex (left right : Value) : Except Fault Value :=
  match right with
  | .complex _ im => (realPart left).map fun d => .complex d.addZero im.addZero
  | _ => .error .noLiteral

def subComplex (left right : Value) : Except Fault Value :=
  match right with
  | .complex _ im => (realPart left).map fun d => .complex d im.zeroSub
  | _ => .error .noLiteral

def require (v : Option Value) : Except Fault Value :=
  match v with
  | some v => .ok v
  | none => .error .noLiteral

mutual

def Form.value : Form → Except Fault Value
  | .constant v => .ok v
  | .setName => .error .noLiteral
  | .starred _ => .error .noLiteral
  | .other _ => .error .noLiteral
  | .emptySet => .ok (.set [])
  | .plus f => require (Form.signed? (.plus f))
  | .minus f => require (Form.signed? (.minus f))
  | .sum f g => do addComplex (← require f.signed?) (← require g.number?)
  | .difference f g => do subComplex (← require f.signed?) (← require g.number?)
  | .list items => (Form.values items).map .list
  | .tuple items => (Form.values items).map .tuple
  | .set items => (Form.keys items).map Value.setOf
  | .dict entries => (Form.entries entries).map Value.dictOf

def Form.values : List Form → Except Fault (List Value)
  | [] => .ok []
  | f :: fs => do
    let v ← Form.value f
    let vs ← Form.values fs
    .ok (v :: vs)

def Form.keys : List Form → Except Fault (List Value)
  | [] => .ok []
  | f :: fs => do
    let v ← Form.value f
    if v.isKey then
      let vs ← Form.keys fs
      .ok (v :: vs)
    else .error .noLiteral

def Form.entries : List (Form × Form) → Except Fault (List (Value × Value))
  | [] => .ok []
  | (k, f) :: es => do
    let k ← Form.value k
    let v ← Form.value f
    if k.isKey then
      let es ← Form.entries es
      .ok ((k, v) :: es)
    else .error .noLiteral

end

/-- The value of a text that is one literal. -/
def read [Host] (t : Text) (site : Site := .list) : Except Fault Value :=
  match (tokens? (Text.unifyLineEnds t)).bind (form? (Host.grammarDepth site t)) with
  | some f => f.value
  | none => .error .noLiteral

end VariableReport.Literal
