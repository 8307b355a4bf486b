import VariableReport.Number.Shortest
import VariableReport.Proofs.Number.Decimal

/-!
# Written numbers

A whole number is read back from its digits and its sign (`Decimal.readInt?_intText`), and of the
many characters of a formula a written number has only letters, digits, points and signs
(`Decimal.isNumberChar_of_mem_intText`, `Double.isNumberChar_of_mem_text`).
-/

namespace VariableReport

variable {c : Char}

namespace Text

/-- The characters that numbers are written with, infinities and missing numbers included. -/
def isNumberChar (c : Char) : Bool := isAsciiWord c || c = '.' || c = '+' || c = '-'

theorem isNumberChar_of_isAsciiDigit (h : isAsciiDigit c = true) : isNumberChar c = true := by
  simp [isNumberChar, isAsciiWord, h]

theorem isNumberChar_of_mem_zeros {n : Nat} (h : c ∈ List.replicate n '0') :
    isNumberChar c = true := by
  rw [List.eq_of_mem_replicate h]
  decide

end Text

namespace Decimal
open Text

/-- The whole number that a text of digits denotes. -/
def readNat? (t : Text) : Option Nat :=
  if !t.isEmpty && t.all isAsciiDigit then some (natValue t) else none

/-- The whole number that digits with or without a minus sign denote. -/
def readInt? (t : Text) : Option Int :=
  match t with
  | '-' :: t => (readNat? t).map fun n => -(n : Int)
  | t => (readNat? t).map Int.ofNat

theorem readNat?_natText (n : Nat) : readNat? (natText n) = some n := by
  have hne : natText n ≠ [] := digits_ne_nil (by decide) n
  have hdigits : (natText n).all isAsciiDigit = true :=
    List.all_eq_true.2 fun _ => isAsciiDigit_of_mem_natText
  rw [readNat?, hdigits, natValue_natText, if_pos (by simp [hne])]

theorem readInt?_intText (n : Int) : readInt? (intText n) = some n := by
  cases n with
  | ofNat m =>
    obtain ⟨c, cs, hc, hdigit⟩ := exists_natText m
    have hsign : c ≠ '-' := by
      rintro rfl
      exact absurd hdigit (by decide)
    have hread : readInt? (natText m) = (readNat? (natText m)).map Int.ofNat := by
      rw [hc, readInt?]
      simpa using hsign
    rw [intText, hread, readNat?_natText]
    rfl
  | negSucc m =>
    rw [intText, readInt?, readNat?_natText]
    rfl

theorem isNumberChar_of_mem_natText {n : Nat} (h : c ∈ natText n) : isNumberChar c = true :=
  isNumberChar_of_isAsciiDigit (isAsciiDigit_of_mem_natText h)

theorem isNumberChar_of_mem_intText {n : Int} (h : c ∈ intText n) : isNumberChar c = true := by
  cases n with
  | ofNat m => exact isNumberChar_of_mem_natText h
  | negSucc m =>
    rcases List.mem_cons.1 h with rfl | h
    · decide
    · exact isNumberChar_of_mem_natText h

end Decimal

namespace Double
open Text

variable {l : Layout} {d : Digits}

theorem isNumberChar_of_mem_shortest {m : Nat} {e : Int} (h : c ∈ (shortest m e).digits) :
    isNumberChar c = true := by
  have hdigits := (List.dropWhile_suffix _).subset (List.mem_reverse.1 h)
  exact Decimal.isNumberChar_of_mem_natText (List.mem_reverse.1 hdigits)

theorem Layout.isNumberChar_of_mem_exponent {x : Int} (h : c ∈ l.exponent x) :
    isNumberChar c = true := by
  rw [Layout.exponent, List.mem_cons, List.mem_cons, List.mem_append] at h
  rcases h with rfl | rfl | h | h
  · decide
  · split <;> decide
  · exact isNumberChar_of_mem_zeros h
  · exact Decimal.isNumberChar_of_mem_natText h

/-- A layout adds a point, zeros and an exponent to the digits. -/
theorem Layout.isNumberChar_of_mem_magnitude (hd : ∀ c ∈ d.digits, isNumberChar c = true)
    (h : c ∈ l.magnitude d) : isNumberChar c = true := by
  have hzero : isNumberChar '0' = true := by decide
  have hpoint : isNumberChar '.' = true := by decide
  unfold Layout.magnitude at h
  split at h
  next =>
    split at h
    next =>
      rw [List.mem_cons, List.mem_cons, List.mem_append] at h
      rcases h with rfl | rfl | h | h
      · exact hzero
      · exact hpoint
      · exact isNumberChar_of_mem_zeros h
      · exact hd c h
    next =>
      dsimp only at h
      split at h
      next =>
        rw [List.mem_append, List.mem_append] at h
        rcases h with (h | h) | h
        · exact hd c h
        · exact isNumberChar_of_mem_zeros h
        · split at h
          next =>
            rcases List.mem_cons.1 h with rfl | h
            · exact hpoint
            · rwa [List.mem_singleton.1 h]
          next => contradiction
      next =>
        rw [List.mem_append, List.mem_cons] at h
        rcases h with h | rfl | h
        · exact hd c (List.mem_of_mem_take h)
        · exact hpoint
        · exact hd c (List.mem_of_mem_drop h)
  next =>
    split at h
    next => contradiction
    next hone =>
      rcases List.mem_cons.1 h with rfl | h
      · exact hd _ (by simp [hone])
      · exact isNumberChar_of_mem_exponent h
    next a as _ hmore =>
      rw [List.mem_cons, List.mem_cons, List.mem_append] at h
      rcases h with rfl | rfl | h | h
      · exact hd _ (by simp [hmore])
      · exact hpoint
      · exact hd c (by simp [hmore, h])
      · exact isNumberChar_of_mem_exponent h

theorem Layout.isNumberChar_of_mem_unsigned {x : Double} (h : c ∈ l.unsigned x) :
    isNumberChar c = true := by
  unfold Layout.unsigned at h
  split at h
  next => exact List.all_eq_true.1 (by decide) c h
  next => exact List.all_eq_true.1 (by decide) c h
  next =>
    split at h
    next => exact List.all_eq_true.1 (by decide) c h
    next => exact List.all_eq_true.1 (by decide) c h
  next => exact isNumberChar_of_mem_magnitude (fun _ => isNumberChar_of_mem_shortest) h

theorem isNumberChar_of_mem_text {x : Double} (h : c ∈ x.text) : isNumberChar c = true := by
  rw [text, Layout.text] at h
  split at h
  next =>
    rcases List.mem_cons.1 h with rfl | h
    · decide
    · exact Layout.isNumberChar_of_mem_unsigned h
  next => exact Layout.isNumberChar_of_mem_unsigned h

end Double

end VariableReport
