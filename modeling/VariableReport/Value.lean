import VariableReport.Number.Double
import VariableReport.Text.Utf8

/-!
# Values

The values that a variable of a notebook can have without a class of its own: they can
be written as literals, and a list that is read from text holds them. A dictionary
keeps its entries in the order in which the keys came first.
-/

namespace VariableReport

inductive Value
  | none
  | ellipsis
  | bool (b : Bool)
  | int (n : Int)
  | float (d : Double)
  | complex (re im : Double)
  | str (t : Text)
  | bytes (b : Utf8.Bytes)
  | list (items : List Value)
  | tuple (items : List Value)
  | dict (entries : List (Value × Value))
  | set (items : List Value)

namespace Value

/-- A number as a pair of exact quotients, for the comparison of numbers of different
kinds. Numbers without a quotient have none. -/
def quotients? : Value → Option ((Int × Nat) × (Int × Nat))
  | .bool b => some ((if b then 1 else 0, 1), (0, 1))
  | .int n => some ((n, 1), (0, 1))
  | .float d => d.signedRatio?.map fun q => (q, (0, 1))
  | .complex re im =>
    match re.signedRatio?, im.signedRatio? with
    | some a, some b => some (a, b)
    | _, _ => Option.none
  | _ => Option.none

def sameQuotient (a b : Int × Nat) : Bool := a.1 * b.2 = b.1 * a.2

/-- The real and imaginary parts, for numbers that have no quotient. -/
def parts? : Value → Option (Double × Double)
  | .float d => some (d, .zero)
  | .complex re im => some (re, im)
  | _ => Option.none

def sameNumber (a b : Value) : Bool :=
  match a.quotients?, b.quotients? with
  | some x, some y => sameQuotient x.1 y.1 && sameQuotient x.2 y.2
  | _, _ =>
    match a.parts?, b.parts? with
    | some x, some y => x.1.same y.1 && x.2.same y.2
    | _, _ => false

mutual

/-- Equality as keys have it: numbers are equal across their kinds, so one, one point
zero and true are one key. -/
def sameKey : Value → Value → Bool
  | .none, .none => true
  | .ellipsis, .ellipsis => true
  | .str a, .str b => a = b
  | .bytes a, .bytes b => a = b
  | .tuple as, .tuple bs => sameKeys as bs
  | a, b => sameNumber a b

def sameKeys : List Value → List Value → Bool
  | [], [] => true
  | a :: as, b :: bs => sameKey a b && sameKeys as bs
  | _, _ => false

end

mutual

/-- Whether the value can be a key: it holds no list, dictionary or set. -/
def isKey : Value → Bool
  | .list _ => false
  | .dict _ => false
  | .set _ => false
  | .tuple items => allKeys items
  | _ => true

def allKeys : List Value → Bool
  | [] => true
  | v :: vs => isKey v && allKeys vs

end

/-- Give a key a value: an equal key keeps its place and its spelling. -/
def put (key value : Value) : List (Value × Value) → List (Value × Value)
  | [] => [(key, value)]
  | (k, v) :: entries =>
    if sameKey k key then (k, value) :: entries else (k, v) :: put key value entries

/-- The dictionary of a list of entries, of which later ones win. -/
def dictOf (entries : List (Value × Value)) : Value :=
  .dict (entries.foldl (fun acc (k, v) => put k v acc) [])

/-- The set of a list of members, of which earlier ones win. They keep their order, in which the set
is printed as well; an order that comes from hashes, and may be another one in each run, is not
modelled. -/
def setOf (items : List Value) : Value :=
  .set (items.foldl (fun acc v => if acc.any (sameKey · v) then acc else acc ++ [v]) [])

def typeName : Value → Text
  | .none => "NoneType".toList
  | .ellipsis => "ellipsis".toList
  | .bool _ => "bool".toList
  | .int _ => "int".toList
  | .float _ => "float".toList
  | .complex _ _ => "complex".toList
  | .str _ => "str".toList
  | .bytes _ => "bytes".toList
  | .list _ => "list".toList
  | .tuple _ => "tuple".toList
  | .dict _ => "dict".toList
  | .set _ => "set".toList

end Value

end VariableReport
