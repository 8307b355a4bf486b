import VariableReport.Number.Decimal

/-!
# Double-precision numbers

A number of double precision is kept as what it denotes: a sign, a whole mantissa and
a power of two. Rounding goes to the nearest representable number, and a tie to the
even mantissa; it is done on whole numbers, so no operation of the machine takes part.
The single precision that some arrays use is another `Precision`, not another type.
-/

namespace VariableReport

/-- `finite negative m e` is `m * 2 ^ e` with its sign; zero has a sign as well. -/
inductive Double
  | nan
  | infinite (negative : Bool)
  | finite (negative : Bool) (mantissa : Nat) (exponent : Int)
  deriving DecidableEq, Repr

/-- The number of mantissa bits and the bounds of the exponent. -/
structure Precision where
  bits : Nat
  least : Int
  greatest : Int

namespace Precision

def double : Precision := ⟨53, -1074, 971⟩

def single : Precision := ⟨24, -149, 104⟩

def half : Precision := ⟨11, -24, 5⟩

end Precision

/-- The whole number nearest to a quotient; a tie goes to the even one. -/
def roundDiv (num den : Nat) : Nat :=
  let q := num / den
  let r := num % den
  if 2 * r < den then q else if den < 2 * r then q + 1 else q + q % 2

/-- The rounding is off by half a unit at most. -/
theorem roundDiv_spec (num : Nat) {den : Nat} (h : 0 < den) :
    2 * num ≤ (2 * roundDiv num den + 1) * den ∧
      2 * roundDiv num den * den ≤ 2 * num + den := by
  have hd := Nat.div_add_mod num den
  have hm := Nat.mod_lt num h
  have hq : num / den % 2 < 2 := Nat.mod_lt _ (by omega)
  generalize hx : num / den = q at *
  generalize hy : num % den = r at *
  have e1 : den * q = q * den := Nat.mul_comm _ _
  simp only [roundDiv, hx, hy]
  split
  · constructor
    · rw [Nat.add_mul, Nat.mul_assoc]; omega
    · rw [Nat.mul_assoc]; omega
  · split
    · constructor
      · simp only [Nat.add_mul, Nat.mul_add, Nat.mul_assoc]; omega
      · simp only [Nat.add_mul, Nat.mul_add, Nat.mul_assoc]; omega
    · have : q % 2 = 0 ∨ q % 2 = 1 := by omega
      rcases this with h0 | h0 <;> rw [h0] <;> constructor <;>
        (simp only [Nat.add_mul, Nat.mul_add, Nat.mul_assoc]; omega)

/-- A quotient in units of `2 ^ e`, as a pair of whole numbers. -/
def scaleDown (num den : Nat) (e : Int) : Nat × Nat :=
  if 0 ≤ e then (num, den * Decimal.pow 2 e.toNat) else (num * Decimal.pow 2 (-e).toNat, den)

/-- The number of a precision that is nearest to `num / den`. -/
def Precision.round (p : Precision) (negative : Bool) (num den : Nat) : Double :=
  if num = 0 then .finite negative 0 p.least
  else
    let guess : Int := Nat.log2 num - Nat.log2 den - (p.bits - 1 : Nat)
    let (a, b) := scaleDown num den guess
    let e := max (if a < b * Decimal.pow 2 (p.bits - 1) then guess - 1 else guess) p.least
    let (a, b) := scaleDown num den e
    let m := roundDiv a b
    let (m, e) := if m = Decimal.pow 2 p.bits then (Decimal.pow 2 (p.bits - 1), e + 1) else (m, e)
    if p.greatest < e then .infinite negative else .finite negative m e

namespace Double

def zero : Double := .finite false 0 (-1074)

/-- The value of a finite number as a quotient. -/
def ratio (mantissa : Nat) (exponent : Int) : Nat × Nat :=
  if 0 ≤ exponent then (mantissa * Decimal.pow 2 exponent.toNat, 1)
  else (mantissa, Decimal.pow 2 (-exponent).toNat)

/-- The double nearest to `digits * 10 ^ power`. Powers that decide the answer without
a calculation are dealt with first. -/
def ofDecimal (negative : Bool) (digits : Nat) (power : Int) : Double :=
  if digits = 0 then .finite negative 0 (-1074)
  else if 400 < power then .infinite negative
  else if power + Nat.log2 digits + 1 < -400 then .finite negative 0 (-1074)
  else if 0 ≤ power then Precision.double.round negative (digits * Decimal.pow 10 power.toNat) 1
  else Precision.double.round negative digits (Decimal.pow 10 (-power).toNat)

/-- The double nearest to a whole number, unless that is out of range. -/
def ofInt? (n : Int) : Option Double :=
  match Precision.double.round (n < 0) n.natAbs 1 with
  | .infinite _ => none
  | d => some d

/-- The nearest number of a coarser precision. -/
def coarsen (p : Precision) : Double → Double
  | .finite negative m e =>
    let (num, den) := ratio m e
    match p.round negative num den with
    | .finite negative m e =>
      let (num, den) := ratio m e
      Precision.double.round negative num den
    | d => d
  | d => d

def neg : Double → Double
  | .nan => .nan
  | .infinite negative => .infinite !negative
  | .finite negative m e => .finite (!negative) m e

/-- The sum with zero: a negative zero loses its sign. -/
def addZero : Double → Double
  | .finite _ 0 _ => zero
  | d => d

/-- Zero less the number: the result of zero is never negative. -/
def zeroSub (d : Double) : Double := addZero (neg d)

def isNegative : Double → Bool
  | .nan => false
  | .infinite negative => negative
  | .finite negative _ _ => negative

def isZero : Double → Bool
  | .finite _ 0 _ => true
  | _ => false

/-- The whole number that a finite number reaches towards zero. -/
def truncate? : Double → Option Int
  | .finite negative m e =>
    let (num, den) := ratio m e
    some (if negative then -((num / den : Nat) : Int) else (num / den : Nat))
  | _ => none

/-- The number as a quotient of whole numbers. -/
def signedRatio? : Double → Option (Int × Nat)
  | .finite negative m e =>
    let (num, den) := ratio m e
    some (if negative then -(num : Int) else num, den)
  | _ => none

/-- Equality of the numbers denoted: the two zeros are equal, and no number equals
one that is not a number. -/
def same : Double → Double → Bool
  | .infinite a, .infinite b => a = b
  | .finite a m e, .finite b n f => (m = 0 && n = 0) || (a = b && m = n && e = f)
  | _, _ => false

end Double

end VariableReport
