import VariableReport.Json.Reader
import VariableReport.Proofs.Text.Quoted

/-!
# Quoted text as JSON

A text in double quotes may have escapes that JSON has not, and then it is malformed. All
the escapes that both have stand for the same characters, so a quoted text that is no
malformed string is read as the text that was quoted (`yields_readChars`). No character
is half of a pair, so nothing in it is joined or replaced (`joinUnits_toNat`).
-/

namespace VariableReport.Json
open Quoted

variable {α : Type} {P : α → Prop} {c : Char} {s t rest : Text} {opening : Nat}

/-- A result of some kind in front of the rest of the text, or a fault of form. -/
inductive Yields (P : α → Prop) (rest : Text) : Reading α → Prop
  | ok {a : α} : P a → Yields P rest (.ok (a, rest))
  | malformed (cause : Cause) (left : Nat) : Yields P rest (.error (.malformed cause left))

/-- A character by its number goes in front of the units that follow. -/
inductive ReadsUnit (opening : Nat) (c : Char) (s t : Text) : Prop
  | unit : readUnits opening (s ++ t) = (readUnits opening t).cons c.toNat → ReadsUnit opening c s t
  | malformed (cause : Cause) (left : Nat) :
      readUnits opening (s ++ t) = .error (.malformed cause left) → ReadsUnit opening c s t

theorem readUnits_cons (hq : c ≠ doubleQuote) (hb : c ≠ '\\') (hc : 32 ≤ c.toNat) (t : Text) :
    readUnits opening (c :: t) = (readUnits opening t).cons c.toNat := by
  have hc' : ¬ c.toNat < 32 := by omega
  rw [readUnits.eq_def]
  split
  next h => cases h
  next h => exact absurd (List.cons.inj h).1 hb
  next h => exact absurd (List.cons.inj h).1 hb
  next h => exact absurd (List.cons.inj h).1 hb
  next h =>
    cases h
    rw [if_neg (show ¬ c = '\x22' from hq), if_neg hb, if_neg hc']

theorem readUnits_escape (hu : c ≠ 'u') (t : Text) :
    readUnits opening ('\\' :: c :: t) =
      match shortEscape? c with
      | none => .error (.malformed .escape (t.length + 2))
      | some d => (readUnits opening t).cons d.toNat := by
  rw [readUnits.eq_def]
  split
  next h => cases h
  next h => exact absurd (List.cons.inj (List.cons.inj h).2).1 hu
  next h => exact absurd (List.cons.inj (List.cons.inj h).2).1 hu
  next h =>
    cases h
    rfl
  next hshort h =>
    cases h
    exact absurd rfl (hshort c t rfl)

theorem fourDigits?_hex {n : Nat} (h : n < Decimal.pow 16 4) :
    ∃ a b c d, hex 4 n = [a, b, c, d] ∧ fourDigits? a b c d = some n := by
  obtain ⟨a, b, c, d, he⟩ : ∃ a b c d, hex 4 n = [a, b, c, d] := by
    match hex 4 n, length_hex (by omega) h with
    | [a, b, c, d], _ => exact ⟨a, b, c, d, rfl⟩
  have hvalue := value_hex 4 n
  have hdigit : ∀ x ∈ [a, b, c, d], ∃ k < 16, x = Decimal.digitChar k := by
    intro x hx
    rw [← he] at hx
    exact mem_hex hx
  obtain ⟨i, hi, rfl⟩ := hdigit a (by simp)
  obtain ⟨j, hj, rfl⟩ := hdigit b (by simp)
  obtain ⟨k, hk, rfl⟩ := hdigit c (by simp)
  obtain ⟨l, hl, rfl⟩ := hdigit d (by simp)
  refine ⟨_, _, _, _, he, ?_⟩
  rw [he] at hvalue
  simp only [Decimal.value, List.foldl_cons, List.foldl_nil, Decimal.digitValue?_digitChar, hi, hj,
    hk, hl, Option.getD_some, Nat.zero_mul, Nat.zero_add] at hvalue
  simp [fourDigits?, Decimal.digitValue?_digitChar, hi, hj, hk, hl, hvalue]

/-- The escapes with two and eight digits are not those of JSON; the others are. -/
theorem readsUnit (opening : Nat) (h : Spelled doubleQuote c s) (t : Text) :
    ReadsUnit opening c s t := by
  cases h with
  | itself hq hb hc => exact .unit (readUnits_cons hq hb hc t)
  | marked hc =>
    rcases hc with rfl | rfl
    · exact .unit (readUnits_escape (by decide) t)
    · exact .unit (readUnits_escape (by decide) t)
  | letter l hl =>
    unfold letterNames at hl
    simp only [List.mem_cons, Prod.mk.injEq, List.not_mem_nil, or_false] at hl
    rcases hl with ⟨rfl, rfl⟩ | ⟨rfl, rfl⟩ | ⟨rfl, rfl⟩
    · exact .unit (readUnits_escape (by decide) t)
    · exact .unit (readUnits_escape (by decide) t)
    · exact .unit (readUnits_escape (by decide) t)
  | numbered l width hl hn =>
    unfold numberLetters at hl
    simp only [List.mem_cons, Prod.mk.injEq, List.not_mem_nil, or_false] at hl
    rcases hl with ⟨rfl, rfl⟩ | ⟨rfl, rfl⟩ | ⟨rfl, rfl⟩
    · exact .malformed _ _ (readUnits_escape (by decide) _)
    · obtain ⟨a, b, d, e, he, hfour⟩ := fourDigits?_hex hn
      have hread : readUnits opening ('\\' :: 'u' :: a :: b :: d :: e :: t) =
          if t.isEmpty then .error (.malformed .numberedEscape 5)
          else (readUnits opening t).cons c.toNat := by
        rw [readUnits, hfour]
      rw [he]
      by_cases ht : t.isEmpty = true
      · exact .malformed _ _ (hread.trans (if_pos ht))
      · exact .unit (hread.trans (if_neg ht))
    · exact .malformed _ _ (readUnits_escape (by decide) _)

theorem yields_readUnits (opening : Nat) (t rest : Text) :
    Yields (· = t.map Char.toNat) rest
      (readUnits opening (t.flatMap (Quoted.escapeChar doubleQuote) ++ doubleQuote :: rest)) := by
  induction t with
  | nil => exact .ok rfl
  | cons c t ih =>
    rw [List.flatMap_cons, List.append_assoc]
    cases readsUnit opening (spelled_escapeChar doubleQuote c)
      (t.flatMap (Quoted.escapeChar doubleQuote) ++ doubleQuote :: rest) with
    | malformed cause left h =>
      rw [h]
      exact .malformed cause left
    | unit h =>
      rw [h]
      generalize readUnits opening _ = r at ih ⊢
      cases ih with
      | ok hu => exact .ok (by rw [hu, List.map_cons])
      | malformed cause left => exact .malformed cause left

theorem not_surrogate (c : Char) :
    isHighSurrogate c.toNat = false ∧ isLowSurrogate c.toNat = false := by
  have hc : c.toNat < 0xD800 ∨ (0xDFFF < c.toNat ∧ c.toNat < 0x110000) := c.valid
  unfold isHighSurrogate isLowSurrogate
  simp only [Bool.and_eq_false_iff, decide_eq_false_iff_not]
  constructor
  · omega
  · omega

theorem unitChar_toNat (c : Char) : unitChar c.toNat = c := by
  unfold unitChar
  rw [(not_surrogate c).1, (not_surrogate c).2]
  exact Char.ofNat_toNat c

theorem joinUnits_toNat (t : Text) : joinUnits (t.map Char.toNat) = t := by
  induction t with
  | nil => rfl
  | cons c t ih =>
    cases t with
    | nil => rw [List.map_singleton, joinUnits, unitChar_toNat]
    | cons d t =>
      rw [List.map_cons, List.map_cons, joinUnits, (not_surrogate c).1, Bool.false_and,
        unitChar_toNat, ← List.map_cons, ih]
      rfl

theorem yields_readChars (opening : Nat) (t rest : Text) :
    Yields (· = t) rest
      (readChars opening (t.flatMap (Quoted.escapeChar doubleQuote) ++ doubleQuote :: rest)) := by
  have h := yields_readUnits opening t rest
  unfold readChars
  generalize readUnits opening _ = r at h
  cases h with
  | ok hu => exact .ok (by rw [hu, joinUnits_toNat])
  | malformed cause left => exact .malformed cause left

end VariableReport.Json
