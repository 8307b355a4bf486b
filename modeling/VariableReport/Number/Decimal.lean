import VariableReport.Text

/-!
# Whole numbers in positional notation

Digits are read and written most significant first. A number may be given to a
reader in any base up to sixteen; it is written in base ten, or in base sixteen
with lower-case digits.
-/

namespace VariableReport.Decimal

/-- A power of a base. -/
def pow (base exponent : Nat) : Nat := Nat.pow base exponent

@[simp] theorem pow_one (base : Nat) : pow base 1 = base := Nat.pow_one base

theorem pow_succ (base n : Nat) : pow base (n + 1) = pow base n * base := rfl

theorem pow_add (base m n : Nat) : pow base (m + n) = pow base m * pow base n :=
  Nat.pow_add base m n

theorem pow_pos {base : Nat} (h : 0 < base) (n : Nat) : 0 < pow base n := Nat.pow_pos h

def digitChar (d : Nat) : Char := Char.ofNat (if d < 10 then 48 + d else 87 + d)

/-- The value of a digit of any base up to sixteen, in either case. -/
def digitValue? (c : Char) : Option Nat :=
  let n := c.toNat
  if 48 ≤ n && n ≤ 57 then some (n - 48)
  else if 97 ≤ n && n ≤ 102 then some (n - 87)
  else if 65 ≤ n && n ≤ 70 then some (n - 55)
  else none

def isDigit (base : Nat) (c : Char) : Bool :=
  match digitValue? c with
  | some d => d < base
  | none => false

def digitsInto (base n : Nat) (acc : Text) : Text :=
  if _h : n < base ∨ base < 2 then digitChar n :: acc
  else digitsInto base (n / base) (digitChar (n % base) :: acc)
  termination_by n
  decreasing_by exact Nat.div_lt_self (by omega) (by omega)

/-- The digits of a number, with no zero in front of a longer one. -/
def digits (base n : Nat) : Text := digitsInto base n []

def natText (n : Nat) : Text := digits 10 n

def intText : Int → Text
  | .ofNat n => natText n
  | .negSucc n => '-' :: natText (n + 1)

/-- The number that a text of digits denotes; other characters count as zero. -/
def value (base : Nat) (t : Text) : Nat :=
  t.foldl (fun acc c => acc * base + (digitValue? c).getD 0) 0

def natValue (t : Text) : Nat := value 10 t

theorem value_append (base : Nat) (s t : Text) :
    value base (s ++ t) = value base s * pow base t.length + value base t := by
  have go : ∀ (t : Text) (a : Nat),
      t.foldl (fun acc c => acc * base + (digitValue? c).getD 0) a =
        a * pow base t.length + value base t := by
    intro t
    induction t with
    | nil => intro a; simp [value, pow]
    | cons c t ih =>
      intro a
      have h1 := ih (a * base + (digitValue? c).getD 0)
      have h2 := ih ((digitValue? c).getD 0)
      simp only [List.foldl_cons, List.length_cons, value, Nat.zero_mul, Nat.zero_add] at *
      rw [h1, h2, pow_succ, Nat.add_mul, Nat.add_assoc, Nat.mul_assoc,
        Nat.mul_comm base]
  simp only [value, List.foldl_append]
  exact go t _

theorem digitValue?_digitChar {d : Nat} (h : d < 16) : digitValue? (digitChar d) = some d := by
  have : ∀ d : Fin 16, digitValue? (digitChar d) = some d.val := by decide
  exact this ⟨d, h⟩

/-- Reading what was written gives the number back. -/
theorem value_digits {base : Nat} (h2 : 2 ≤ base) (h16 : base ≤ 16) (n : Nat) :
    value base (digits base n) = n := by
  have go : ∀ (n : Nat) (acc : Text),
      value base (digitsInto base n acc) = n * pow base acc.length + value base acc := by
    intro n
    induction n using Nat.strongRecOn with
    | ind n ih =>
      intro acc
      rw [digitsInto]
      split
      next h =>
        have hn : n < base := by omega
        rw [show digitChar n :: acc = [digitChar n] ++ acc from rfl, value_append]
        simp [value, digitValue?_digitChar (show n < 16 by omega)]
      next h =>
        have hlt : n / base < n := Nat.div_lt_self (by omega) (by omega)
        have hm : n % base < 16 := by have := Nat.mod_lt n (show 0 < base by omega); omega
        rw [ih _ hlt, show digitChar (n % base) :: acc = [digitChar (n % base)] ++ acc from rfl,
          value_append]
        simp only [List.length_append, List.length_cons, List.length_nil, value, List.foldl_cons,
          List.foldl_nil, digitValue?_digitChar hm, Option.getD_some]
        rw [Nat.zero_add, pow_add, pow_one, ← Nat.mul_assoc, Nat.zero_mul, Nat.zero_add,
          ← Nat.add_assoc, ← Nat.add_mul, Nat.mul_comm (n / base), Nat.div_add_mod]
  simpa [digits, value, pow] using go n []

end VariableReport.Decimal
