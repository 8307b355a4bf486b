import VariableReport.Number.Double

/-!
# Shortest decimal text

A double is written with the fewest digits that are read back as the same double, and
among these with the digits nearest to it. The search tries one digit, two digits and
so on; of each length only the two neighbours of the number can qualify, because a
grid of decimals that has a point in the rounding interval has a neighbour there too.
All comparisons are between whole numbers.

The second half fixes the layout: which magnitudes are written out and which get an
exponent.
-/

namespace VariableReport.Double

/-- The decimal `0.d₁d₂… * 10 ^ point`. -/
structure Digits where
  digits : Text
  point : Int

/-- Whether `num / den < 10 ^ power`. -/
def belowPower (num den : Nat) (power : Int) : Bool :=
  if 0 ≤ power then num < den * Decimal.pow 10 power.toNat
  else num * Decimal.pow 10 (-power).toNat < den

/-- The least of `count + 1` successive powers of ten that exceeds `num / den`. -/
def leastPowerAbove (num den : Nat) : Nat → Int → Int
  | 0, power => power
  | count + 1, power =>
    if belowPower num den power then power else leastPowerAbove num den count (power + 1)

/-- The numbers that round to one double, as whole multiples of `1 / den`. -/
structure Interval where
  low : Nat
  mid : Nat
  high : Nat
  den : Nat
  closed : Bool

/-- The rounding interval of `m * 2 ^ e`. Below a power of two the neighbours are half as
far away. -/
def interval (m : Nat) (e : Int) : Interval :=
  let scale := Decimal.pow 2 (e - 2).toNat
  let low := if m = Decimal.pow 2 52 && -1074 < e then 4 * m - 1 else 4 * m - 2
  ⟨low * scale, 4 * m * scale, (4 * m + 2) * scale, Decimal.pow 2 (2 - e).toNat, m % 2 = 0⟩

namespace Interval

/-- `c * 10 ^ power` in the same units as the bounds, with the factor that the bounds
then need. -/
def place (i : Interval) (c : Nat) (power : Int) : Nat × Nat :=
  if 0 ≤ power then (c * Decimal.pow 10 power.toNat * i.den, 1)
  else (c * i.den, Decimal.pow 10 (-power).toNat)

def holds (i : Interval) (c : Nat) (power : Int) : Bool :=
  let (x, f) := i.place c power
  if i.closed then i.low * f ≤ x && x ≤ i.high * f else i.low * f < x && x < i.high * f

/-- The neighbour of the number on the grid of multiples of `10 ^ power`, if one is in the
interval; the nearer if both are, and of two equally near ones the even. -/
def neighbour? (i : Interval) (power : Int) : Option Nat :=
  let c :=
    if 0 ≤ power then i.mid / (i.den * Decimal.pow 10 power.toNat)
    else i.mid * Decimal.pow 10 (-power).toNat / i.den
  match i.holds c power, i.holds (c + 1) power with
  | true, true =>
    let (x, f) := i.place (2 * c + 1) power
    let twice := 2 * i.mid * f
    some (if twice < x then c else if x < twice then c + 1 else c + c % 2)
  | true, false => some c
  | false, true => some (c + 1)
  | false, false => none

/-- The shortest decimal in the interval, from grids with one more digit each time. -/
def search (i : Interval) : Nat → Int → Nat × Int
  | 0, power => (i.mid, power)
  | count + 1, power =>
    match i.neighbour? power with
    | some c => (c, power)
    | none => search i count (power - 1)

end Interval

def shortest (m : Nat) (e : Int) : Digits :=
  let (num, den) := ratio m e
  let guess := (Nat.log2 m + e) * 30103 / 100000 - 1
  let point := leastPowerAbove num den 4 guess
  let (c, power) := (interval m e).search 17 (point - 1)
  let text := Decimal.natText c
  ⟨(text.reverse.dropWhile (· = '0')).reverse, text.length + power⟩

/-- Numbers are written out when the point lies after at most sixteen digits and before
at most three zeros; elsewhere one digit stands before the point and the exponent has a
sign and at least two digits. -/
structure Layout where
  least : Int := -3
  greatest : Int := 16
  exponentDigits : Nat := 2
  /-- Whether a whole number is written with a fraction. -/
  wholeFraction : Bool := true

def Layout.exponent (l : Layout) (x : Int) : Text :=
  let text := Decimal.natText x.natAbs
  'e' :: (if x < 0 then '-' else '+') ::
    (List.replicate (l.exponentDigits - text.length) '0' ++ text)

def Layout.magnitude (l : Layout) (d : Digits) : Text :=
  if l.least ≤ d.point && d.point ≤ l.greatest then
    if d.point ≤ 0 then '0' :: '.' :: (List.replicate (-d.point).toNat '0' ++ d.digits)
    else
      let n := d.point.toNat
      if d.digits.length ≤ n then
        d.digits ++ List.replicate (n - d.digits.length) '0' ++
          (if l.wholeFraction then ['.', '0'] else [])
      else d.digits.take n ++ '.' :: d.digits.drop n
  else
    match d.digits with
    | [] => []
    | [c] => c :: l.exponent (d.point - 1)
    | c :: cs => c :: '.' :: (cs ++ l.exponent (d.point - 1))

/-- The text without its sign. -/
def Layout.unsigned (l : Layout) : Double → Text
  | .nan => ['n', 'a', 'n']
  | .infinite _ => ['i', 'n', 'f']
  | .finite _ 0 _ => if l.wholeFraction then ['0', '.', '0'] else ['0']
  | .finite _ m e => l.magnitude (shortest m e)

def Layout.text (l : Layout) (d : Double) : Text :=
  if d.isNegative then '-' :: l.unsigned d else l.unsigned d

/-- The text with a sign in every case. -/
def Layout.signed (l : Layout) (d : Double) : Text :=
  (if d.isNegative then '-' else '+') :: l.unsigned d

def text (d : Double) : Text := Layout.text {} d

end VariableReport.Double
