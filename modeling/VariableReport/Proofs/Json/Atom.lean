import VariableReport.Json.Reader
import VariableReport.Text.Class

/-!
# Atoms that are read

A number or a word is read off the start of the text and is made of letters, digits, signs and
points only; a whole number is a run of digits behind a sign or none, and a fault that is not one
of form means that this run is too long (`readsAtom_readAtom`).
-/

namespace VariableReport.Json

variable {c : Char} {t u s rest : Text} {j : Json} {n x : Int}

/-- The characters of which numbers and words are made. -/
def isAtomChar (c : Char) : Bool := Text.isAsciiWord c || c = '-' || c = '+' || c = '.'

/-- Atoms that are no whole numbers. -/
inductive Inexact : Json → Prop
  | null : Inexact .null
  | bool (b : Bool) : Inexact (.bool b)
  | float (d : Double) : Inexact (.float d)

/-- The sign of a whole number. -/
inductive IsSign : Text → Prop
  | none : IsSign []
  | minus : IsSign ['-']

/-- What reading an atom at the start of a text comes to. -/
inductive ReadsAtom : Text → Reading Json → Prop
  | malformed (t : Text) (left : Nat) : ReadsAtom t (.error (.malformed .value left))
  | tooLong {s u : Text} (rest : Text) : IsSign s → (∀ c ∈ u, isDigit c = true) →
      Value.maxDigits < u.length → ReadsAtom (s ++ (u ++ rest)) (.error (.tooManyDigits u.length))
  | whole {s u : Text} {n : Int} (rest : Text) : IsSign s → (∀ c ∈ u, isDigit c = true) →
      n.natAbs = Decimal.natValue u → ReadsAtom (s ++ (u ++ rest)) (.ok (.int n, rest))
  | inexact {j : Json} {u : Text} (rest : Text) : Inexact j → (∀ c ∈ u, isAtomChar c = true) →
      ReadsAtom (u ++ rest) (.ok (j, rest))

/-- A character of a class is none outside of it. -/
theorem ne_of_class {f : Char → Bool} {d : Char} (hd : f d = false) (hc : f c = true) : c ≠ d := by
  rintro rfl
  rw [hd] at hc
  contradiction

theorem isAtomChar_of_isDigit (h : isDigit c = true) : isAtomChar c = true := by
  have hdigit : Text.isAsciiDigit c = true := h
  simp [isAtomChar, Text.isAsciiWord, hdigit]

theorem takeDigits_spec (t : Text) : t = (takeDigits t).1 ++ (takeDigits t).2 ∧
    ∀ c ∈ (takeDigits t).1, isDigit c = true :=
  ⟨List.takeWhile_append_dropWhile.symm, List.all_eq_true.1 List.all_takeWhile⟩

theorem readWhole?_spec (h : readWhole? t = some (u, rest)) :
    t = u ++ rest ∧ ∀ c ∈ u, isDigit c = true := by
  cases t with
  | nil => cases h
  | cons c t =>
    rw [readWhole?] at h
    split at h
    next hc =>
      obtain ⟨rfl, rfl⟩ := Prod.mk.inj (Option.some.inj h)
      subst hc
      exact ⟨rfl, by simp [isDigit]⟩
    next =>
      split at h
      next =>
        have hspec := takeDigits_spec (c :: t)
        rwa [Option.some.inj h] at hspec
      next => cases h

theorem readFraction?_spec (h : readFraction? t = some (u, rest)) :
    ∃ v, t = v ++ rest ∧ ∀ c ∈ v, isAtomChar c = true := by
  unfold readFraction? at h
  split at h
  next c cs =>
    split at h
    next =>
      obtain ⟨happend, hdigits⟩ := takeDigits_spec (c :: cs)
      rw [Option.some.inj h] at happend hdigits
      refine ⟨'.' :: u, congrArg ('.' :: ·) happend, List.forall_mem_cons.2 ⟨rfl, fun d hd => ?_⟩⟩
      exact isAtomChar_of_isDigit (hdigits d hd)
    next => cases h
  next => cases h

/-- The digits of an exponent behind a letter and a sign or none. -/
theorem takeDigits_behind {e : Char} {body : Text} (he : isAtomChar e = true) (sign : Text)
    (hsign : ∀ c ∈ sign, isAtomChar c = true) : ∃ v,
      e :: (sign ++ body) = v ++ (takeDigits body).2 ∧ ∀ c ∈ v, isAtomChar c = true := by
  obtain ⟨happend, hdigits⟩ := takeDigits_spec body
  refine ⟨e :: (sign ++ (takeDigits body).1), ?_, ?_⟩
  · rw [List.cons_append, List.append_assoc, ← happend]
  · simp only [List.forall_mem_cons, List.forall_mem_append]
    exact ⟨he, hsign, fun d hd => isAtomChar_of_isDigit (hdigits d hd)⟩

theorem readExponent?_spec (h : readExponent? t = some (x, rest)) :
    ∃ v, t = v ++ rest ∧ ∀ c ∈ v, isAtomChar c = true := by
  cases t with
  | nil => cases h
  | cons e t =>
    unfold readExponent? at h
    dsimp only at h
    split at h
    next he =>
      have hletter : isAtomChar e = true := by
        simp only [Bool.or_eq_true, decide_eq_true_eq] at he
        rcases he with rfl | rfl
        · decide
        · decide
      split at h
      next body =>
        split at h
        next => cases h
        next =>
          obtain ⟨-, rfl⟩ := Prod.mk.inj (Option.some.inj h)
          exact takeDigits_behind hletter ['-'] (by simp [isAtomChar])
      next body =>
        split at h
        next => cases h
        next =>
          obtain ⟨-, rfl⟩ := Prod.mk.inj (Option.some.inj h)
          exact takeDigits_behind hletter ['+'] (by simp [isAtomChar])
      next =>
        split at h
        next => cases h
        next =>
          obtain ⟨-, rfl⟩ := Prod.mk.inj (Option.some.inj h)
          exact takeDigits_behind hletter [] (by simp)
    next => cases h

theorem IsSign.isAtomChar (h : IsSign s) : ∀ c ∈ s, isAtomChar c = true := by
  cases h with
  | none => simp
  | minus => simp [Json.isAtomChar]

theorem readsAtom_readNumber (t : Text) : ReadsAtom t (readNumber t) := by
  unfold readNumber
  split
  next negative body hb =>
  obtain ⟨s, hs, rfl⟩ : ∃ s, IsSign s ∧ t = s ++ body := by
    split at hb
    · exact ⟨['-'], .minus, by cases hb; rfl⟩
    · exact ⟨[], .none, by cases hb; rfl⟩
  split
  next => exact .malformed _ _
  next whole rest hwhole =>
    obtain ⟨rfl, hdigits⟩ := readWhole?_spec hwhole
    have hatom : ∀ c ∈ s ++ whole, isAtomChar c = true :=
      List.forall_mem_append.2 ⟨hs.isAtomChar, fun c hc => isAtomChar_of_isDigit (hdigits c hc)⟩
    -- a point or an exponent makes the number a double
    have hfloat {v rest' : Text} {d : Double} (hv : rest = v ++ rest')
        (hchars : ∀ c ∈ v, isAtomChar c = true) :
        ReadsAtom (s ++ (whole ++ rest)) (.ok (.float d, rest')) := by
      rw [hv, ← List.append_assoc, ← List.append_assoc]
      exact .inexact _ (.float d) (List.forall_mem_append.2 ⟨hatom, hchars⟩)
    cases hfraction : readFraction? rest with
    | some found =>
      obtain ⟨fraction, rest₁⟩ := found
      obtain ⟨v, rfl, hv⟩ := readFraction?_spec hfraction
      cases hexponent : readExponent? rest₁ with
      | some found =>
        obtain ⟨x, rest₂⟩ := found
        obtain ⟨w, rfl, hw⟩ := readExponent?_spec hexponent
        simp only [hexponent, if_true]
        exact hfloat (List.append_assoc v w rest₂).symm (List.forall_mem_append.2 ⟨hv, hw⟩)
      | none =>
        simp only [hexponent, if_true]
        exact hfloat rfl hv
    | none =>
      cases hexponent : readExponent? rest with
      | some found =>
        obtain ⟨x, rest₂⟩ := found
        obtain ⟨w, rfl, hw⟩ := readExponent?_spec hexponent
        simp only [hexponent, if_true]
        exact hfloat rfl hw
      | none =>
        simp only [hexponent, Bool.false_eq_true, if_false]
        split
        next hlong => exact .tooLong rest hs hdigits hlong
        next =>
          refine .whole rest hs hdigits ?_
          cases negative <;> simp

theorem readsAtom_readAtom (t : Text) : ReadsAtom t (readAtom t) := by
  unfold readAtom
  split
  next word j hfound =>
    have hbegins := List.isPrefixOf_iff_prefix.1 (List.find?_some hfound :)
    obtain ⟨rest, rfl⟩ := hbegins
    have hword : Inexact j ∧ ∀ c ∈ word, isAtomChar c = true := by
      have hmem := List.mem_of_find?_eq_some hfound
      simp only [words, List.mem_cons, Prod.mk.injEq, List.not_mem_nil, or_false] at hmem
      rcases hmem with ⟨rfl, rfl⟩ | ⟨rfl, rfl⟩ | ⟨rfl, rfl⟩ | ⟨rfl, rfl⟩ | ⟨rfl, rfl⟩ | ⟨rfl, rfl⟩
      · exact ⟨.null, List.all_eq_true.1 rfl⟩
      · exact ⟨.bool true, List.all_eq_true.1 rfl⟩
      · exact ⟨.bool false, List.all_eq_true.1 rfl⟩
      · exact ⟨.float .nan, List.all_eq_true.1 rfl⟩
      · exact ⟨.float _, List.all_eq_true.1 rfl⟩
      · exact ⟨.float _, List.all_eq_true.1 rfl⟩
    rw [List.drop_left]
    exact .inexact rest hword.1 hword.2
  next => exact readsAtom_readNumber t

end VariableReport.Json
