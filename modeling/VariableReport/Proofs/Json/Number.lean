import VariableReport.Json.Reader
import VariableReport.Proofs.Literal.Number

/-!
# Reading atoms as JSON

A written number is read back as a whole one, since neither a point nor an exponent can follow
it in a literal (`readAtom_natText`, `readAtom_minus_natText`). What starts like no word and
no number is malformed (`readAtom_malformed`).
-/

namespace VariableReport.Json
open Literal (Delimited)

variable {c : Char} {n : Nat} {s t rest : Text}

/-- The characters that a word starts with. -/
def wordStarts : Text := ['n', 't', 'f', 'N', 'I', '-']

theorem find?_words_of_start (hc : c ∉ wordStarts) (t : Text) :
    words.find? (·.1.isPrefixOf (c :: t)) = none := by
  have hstart : ∀ w ∈ words, ∃ d ∈ wordStarts, w.1.head? = some d := by
    intro w hw
    simp only [words, List.mem_cons, List.not_mem_nil, or_false] at hw
    rcases hw with rfl | rfl | rfl | rfl | rfl | rfl
    all_goals exact ⟨_, by decide, rfl⟩
  apply List.find?_eq_none.2
  intro w hw
  obtain ⟨d, hd, hhead⟩ := hstart w hw
  cases hword : w.1 with
  | nil => rw [hword] at hhead; cases hhead
  | cons e u =>
    rw [hword] at hhead
    cases hhead
    have hne : d ≠ c := fun he => hc (he ▸ hd)
    simp [List.isPrefixOf, hne]

theorem readNumber_of_readWhole?_eq_none (hminus : c ≠ '-') (hwhole : readWhole? (c :: t) = none) :
    readNumber (c :: t) = .error (.malformed .value (t.length + 1)) := by
  unfold readNumber
  split
  next negative body hb =>
    split at hb
    next h => exact absurd (List.cons.inj h).1 hminus
    next =>
      cases hb
      rw [hwhole]
      rfl

theorem readAtom_malformed (hword : words.find? (·.1.isPrefixOf (c :: t)) = none)
    (hminus : c ≠ '-') (hc : isDigit c = false) :
    readAtom (c :: t) = .error (.malformed .value (t.length + 1)) := by
  have hzero : c ≠ '0' := by
    intro hz
    rw [hz] at hc
    cases hc
  have hwhole : readWhole? (c :: t) = none := by
    rw [readWhole?, if_neg hzero, hc]
    rfl
  rw [readAtom, hword]
  exact readNumber_of_readWhole?_eq_none hminus hwhole

theorem readWhole?_natText (n : Nat) (hrest : Delimited rest) :
    readWhole? (Decimal.natText n ++ rest) = some (Decimal.natText n, rest) := by
  by_cases hn : n = 0
  · subst hn
    rw [Decimal.natText_zero]
    rfl
  · obtain ⟨c, cs, hcs, hzero⟩ := Decimal.exists_natText_of_pos (Nat.pos_of_ne_zero hn)
    have hdigits : ∀ d ∈ Decimal.natText n, isDigit d = true :=
      fun d => Decimal.isAsciiDigit_of_mem_natText
    have hrun := hrest.takeWhile_append hdigits (by decide)
    have htake : takeDigits (Decimal.natText n ++ rest) = (Decimal.natText n, rest) := by
      rw [takeDigits, hrun.1, hrun.2]
    have hc := hdigits c (by rw [hcs]; exact List.mem_cons_self)
    rw [hcs, List.cons_append] at htake ⊢
    rw [readWhole?, if_neg hzero, if_pos hc, htake]

theorem readFraction?_delimited (hrest : Delimited rest) : readFraction? rest = none := by
  cases hrest <;> rfl

theorem readExponent?_delimited (hrest : Delimited rest) : readExponent? rest = none := by
  cases hrest <;> rfl

/-- A whole number behind no sign is read when its digits are not too many. -/
theorem readNumber_whole_eq (hwhole : readWhole? (c :: s ++ rest) = some (c :: s, rest))
    (hminus : c ≠ '-') (hrest : Delimited rest) :
    readNumber (c :: s ++ rest) =
      if Value.maxDigits < (c :: s).length then .error (.tooManyDigits (c :: s).length)
      else .ok (.int (Decimal.natValue (c :: s)), rest) := by
  unfold readNumber
  split
  next negative body hb =>
    split at hb
    next h => exact absurd (List.cons.inj h).1 hminus
    next =>
      cases hb
      rw [hwhole]
      dsimp only
      rw [readFraction?_delimited hrest]
      dsimp only
      rw [readExponent?_delimited hrest]
      rfl

theorem readNumber_whole (hwhole : readWhole? (c :: s ++ rest) = some (c :: s, rest))
    (hminus : c ≠ '-') (hrest : Delimited rest) (hlen : (c :: s).length ≤ Value.maxDigits) :
    readNumber (c :: s ++ rest) = .ok (.int (Decimal.natValue (c :: s)), rest) := by
  rw [readNumber_whole_eq hwhole hminus hrest, if_neg (Nat.not_lt.2 hlen)]

theorem readNumber_minus (hwhole : readWhole? (s ++ rest) = some (s, rest)) (hrest : Delimited rest)
    (hlen : s.length ≤ Value.maxDigits) :
    readNumber ('-' :: (s ++ rest)) = .ok (.int (-Decimal.natValue s), rest) := by
  unfold readNumber
  split
  next negative body hb =>
    split at hb
    next h =>
      cases h
      cases hb
      rw [hwhole]
      dsimp only
      rw [readFraction?_delimited hrest]
      dsimp only
      rw [readExponent?_delimited hrest]
      exact if_neg (Nat.not_lt.2 hlen)
    next h => exact absurd rfl (h (s ++ rest))

theorem start_of_digit (hc : Text.isAsciiDigit c = true) : c ∉ wordStarts ∧ c ≠ '-' := by
  have hstart : c ∉ wordStarts := Decimal.not_mem_of_isAsciiDigit (by decide) hc
  refine ⟨hstart, ?_⟩
  rintro rfl
  exact hstart (by decide)

theorem readAtom_natText (h : n < Decimal.pow 10 Value.maxDigits) (hrest : Delimited rest) :
    readAtom (Decimal.natText n ++ rest) = .ok (.int n, rest) := by
  have hwhole := readWhole?_natText n hrest
  have hlen := Decimal.length_natText_le (by decide) h
  have hvalue := Decimal.natValue_natText n
  obtain ⟨c, cs, hcs, hc⟩ := Decimal.exists_natText n
  rw [hcs] at hwhole hlen hvalue ⊢
  obtain ⟨hstart, hminus⟩ := start_of_digit hc
  unfold readAtom
  rw [List.cons_append, find?_words_of_start hstart]
  rw [← hvalue]
  exact readNumber_whole hwhole hminus hrest hlen

/-- Nothing but too many digits. -/
theorem readAtom_of_long (hzero : c ≠ '0') (hs : ∀ d ∈ c :: s, isDigit d = true)
    (hlong : Value.maxDigits < (c :: s).length) :
    readAtom (c :: s) = .error (.tooManyDigits (c :: s).length) := by
  have hc := hs c List.mem_cons_self
  obtain ⟨hstart, hminus⟩ := start_of_digit hc
  have hrun := Delimited.nil.takeWhile_append hs (by decide)
  rw [List.append_nil] at hrun
  have htake : takeDigits (c :: s) = (c :: s, []) := by rw [takeDigits, hrun.1, hrun.2]
  have hwhole : readWhole? (c :: s ++ []) = some (c :: s, []) := by
    rw [List.append_nil, readWhole?, if_neg hzero, if_pos hc, htake]
  have hnumber := readNumber_whole_eq hwhole hminus .nil
  rw [if_pos hlong, List.append_nil] at hnumber
  unfold readAtom
  rw [find?_words_of_start hstart]
  exact hnumber

theorem readAtom_minus_natText (h : n < Decimal.pow 10 Value.maxDigits) (hrest : Delimited rest) :
    readAtom ('-' :: (Decimal.natText n ++ rest)) = .ok (.int (-n), rest) := by
  have hwords : words.find? (·.1.isPrefixOf ('-' :: (Decimal.natText n ++ rest))) = none := by
    obtain ⟨c, cs, hcs, hc⟩ := Decimal.exists_natText n
    have hI : ('I' == c) = false := by
      apply Bool.eq_false_iff.2
      intro he
      rw [← LawfulBEq.eq_of_beq he] at hc
      cases hc
    rw [hcs]
    simp [words, List.isPrefixOf, hI]
  have hnumber := readNumber_minus (readWhole?_natText n hrest) hrest (Decimal.length_natText_le (by decide) h)
  rw [Decimal.natValue_natText] at hnumber
  unfold readAtom
  rw [hwords]
  exact hnumber

end VariableReport.Json
