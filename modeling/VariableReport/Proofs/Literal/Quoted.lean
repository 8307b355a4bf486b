import VariableReport.Literal.Token
import VariableReport.Proofs.Text.Quoted

/-!
# Reading quoted text back

Between two quotes every spelling of a character is passed over as a whole, so the quote
that ends a quoted text is the one that was put there (`closeQuote_spelling`). Every spelling
is undone to its character, so what is read is the text that was quoted
(`quoted?_text`).
-/

namespace VariableReport.Literal
open Quoted

variable {quote c : Char} {s t rest : Text}

/-- One of the two characters that a text may be quoted with. -/
def IsQuoteMark (c : Char) : Prop := c = singleQuote ∨ c = doubleQuote

theorem isQuoteMark_quoteFor (single double : Bool) : IsQuoteMark (quoteFor single double) :=
  quoteFor_eq single double

theorem IsQuoteMark.ne_backslash (h : IsQuoteMark quote) : quote ≠ '\\' := by
  cases h with
  | inl h => rw [h]; decide
  | inr h => rw [h]; decide

/-- A digit is neither a quote nor one of the characters that a quoted text treats apart. -/
theorem digitChar_ne {d : Nat} (h : d < 16) (hq : IsQuoteMark quote) :
    Decimal.digitChar d ≠ quote ∧ Decimal.digitChar d ≠ '\\' ∧ Decimal.digitChar d ≠ '\n' := by
  have hall : ∀ d : Fin 16, Decimal.digitChar d ≠ singleQuote ∧ Decimal.digitChar d ≠ doubleQuote ∧
      Decimal.digitChar d ≠ '\\' ∧ Decimal.digitChar d ≠ '\n' := by decide
  obtain ⟨h1, h2, h3⟩ := hall ⟨d, h⟩
  cases hq with
  | inl hq => exact ⟨hq ▸ h1, h3⟩
  | inr hq => exact ⟨hq ▸ h2, h3⟩

theorem closeQuote_cons (hq : c ≠ quote) (hb : c ≠ '\\') (hn : c ≠ '\n') (cs : Text) :
    closeQuote quote false (c :: cs) =
      (closeQuote quote false cs).map fun (b, r) => (c :: b, r) := by
  rw [closeQuote.eq_def]
  split
  next h => cases h
  next h => exact absurd (List.cons.inj h).1 hb
  next h =>
    cases h
    simp [hq, hn]

theorem closeQuote_quote (hq : IsQuoteMark quote) (cs : Text) :
    closeQuote quote false (quote :: cs) = some ([], cs) := by
  rw [closeQuote.eq_def]
  split
  next h => cases h
  next h => exact absurd (List.cons.inj h).1 hq.ne_backslash
  next h =>
    cases h
    simp

theorem closeQuote_append (h : ∀ c ∈ s, c ≠ quote ∧ c ≠ '\\' ∧ c ≠ '\n') (t : Text) :
    closeQuote quote false (s ++ t) =
      (closeQuote quote false t).map fun (b, r) => (s ++ b, r) := by
  induction s with
  | nil => simp
  | cons c s ih =>
    obtain ⟨hq, hb, hn⟩ := h c List.mem_cons_self
    rw [List.cons_append, closeQuote_cons hq hb hn, ih fun d hd => h d (List.mem_cons_of_mem c hd),
      Option.map_map]
    rfl

theorem closeQuote_escape (d : Char) (t : Text) :
    closeQuote quote false ('\\' :: d :: t) =
      (closeQuote quote false t).map fun (b, r) => ('\\' :: d :: b, r) := by
  rw [closeQuote]

theorem closeQuote_spelled (hq : IsQuoteMark quote) (h : Spelled quote c s) (t : Text) :
    closeQuote quote false (s ++ t) =
      (closeQuote quote false t).map fun (b, r) => (s ++ b, r) := by
  cases h with
  | itself h1 h2 h3 =>
    apply closeQuote_cons h1 h2
    intro hn
    rw [hn] at h3
    exact absurd h3 (by decide)
  | marked _ => exact closeQuote_escape c t
  | letter l _ => exact closeQuote_escape l t
  | numbered l width _ _ =>
    have hdigits : ∀ d ∈ hex width c.toNat, d ≠ quote ∧ d ≠ '\\' ∧ d ≠ '\n' := by
      intro d hd
      obtain ⟨k, hk, rfl⟩ := mem_hex hd
      exact digitChar_ne hk hq
    rw [List.cons_append, List.cons_append]
    refine (closeQuote_escape l _).trans ?_
    rw [closeQuote_append hdigits, Option.map_map]
    rfl

theorem closeQuote_spelling (hq : IsQuoteMark quote) (t rest : Text) :
    closeQuote quote false (t.flatMap (escapeChar quote) ++ quote :: rest) =
      some (t.flatMap (escapeChar quote), rest) := by
  induction t with
  | nil =>
    rw [List.flatMap_nil, List.nil_append]
    exact closeQuote_quote hq rest
  | cons c t ih =>
    rw [List.flatMap_cons, List.append_assoc, closeQuote_spelled hq (spelled_escapeChar quote c), ih]
    rfl

theorem hexDigits?_hex {width n : Nat} (hw : 0 < width) (h : n < Decimal.pow 16 width) (t : Text) :
    hexDigits? width (hex width n ++ t) = some n := by
  have hlen := length_hex hw h
  have hall : (hex width n).all (Decimal.isDigit 16) = true := by
    apply List.all_eq_true.2
    intro c hc
    obtain ⟨d, hd, rfl⟩ := mem_hex hc
    simp [Decimal.isDigit, Decimal.digitValue?_digitChar hd, hd]
  have htake : (hex width n ++ t).take width = hex width n := by
    rw [List.take_append_of_le_length (by omega), List.take_of_length_le (by omega)]
  unfold hexDigits?
  simp [htake, hlen, hall, value_hex]

/-- The number of a character is in range and no half of a pair. -/
theorem numberedChar?_toNat (c : Char) : numberedChar? c.toNat = some c := by
  have hv := c.valid
  unfold UInt32.isValidChar Nat.isValidChar at hv
  have hc : c.toNat < 0xD800 ∨ (0xDFFF < c.toNat ∧ c.toNat < 0x110000) := hv
  have h1 : ¬ 0x110000 ≤ c.toNat := by omega
  have h2 : (decide (0xD800 ≤ c.toNat) && decide (c.toNat < 0xE000)) = false := by
    simp only [Bool.and_eq_false_iff, decide_eq_false_iff_not]
    omega
  unfold numberedChar?
  rw [if_neg h1, h2, Char.ofNat_toNat]
  rfl

theorem Quoted.head_spelled (hq : IsQuoteMark quote) (h : Spelled quote c s) :
    ∃ d r, s = d :: r ∧ d ≠ quote := by
  cases h with
  | itself h1 _ _ => exact ⟨c, [], rfl, h1⟩
  | marked _ => exact ⟨_, _, rfl, hq.ne_backslash.symm⟩
  | letter _ _ => exact ⟨_, _, rfl, hq.ne_backslash.symm⟩
  | numbered _ _ _ _ => exact ⟨_, _, rfl, hq.ne_backslash.symm⟩

section
variable [Host]

theorem unescapeFrom_append (s t : Text) :
    unescapeFrom false s.length (s ++ t) = unescapeFrom false 0 t := by
  induction s with
  | nil => rfl
  | cons c s ih => exact ih

/-- An escape stands for its characters, and what follows it is read on its own. -/
theorem unescapeFrom_escape {d : Char} {e : Escape}
    (h : escape? false d (s ++ t) = some e) (hmore : e.more = s.length) :
    unescapeFrom false 0 ('\\' :: d :: (s ++ t)) = (unescapeFrom false 0 t).map (e.chars ++ ·) := by
  rw [unescapeFrom, if_pos rfl, h]
  dsimp only
  rw [unescapeFrom, hmore, unescapeFrom_append]

theorem escape?_numbered {l : Char} {width : Nat} (hl : (l, width) ∈ numberLetters)
    (h : c.toNat < Decimal.pow 16 width) (t : Text) :
    escape? false l (hex width c.toNat ++ t) = some ⟨[c], width⟩ := by
  have hdigits := fun hw => hexDigits?_hex hw h t
  unfold numberLetters at hl
  simp only [List.mem_cons, Prod.mk.injEq, List.not_mem_nil, or_false] at hl
  rcases hl with ⟨rfl, rfl⟩ | ⟨rfl, rfl⟩ | ⟨rfl, rfl⟩
  · simp [escape?, isOctal, hdigits]
  · simp [escape?, isOctal, hdigits, numberedChar?_toNat]
  · simp [escape?, isOctal, hdigits, numberedChar?_toNat]

theorem unescapeFrom_spelled (hq : IsQuoteMark quote) (h : Spelled quote c s) (t : Text) :
    unescapeFrom false 0 (s ++ t) = (unescapeFrom false 0 t).map (c :: ·) := by
  cases h with
  | itself _ hb _ =>
    rw [List.singleton_append, unescapeFrom.eq_def]
    exact if_neg hb
  | marked hc =>
    have he : escape? false c ([] ++ t) = some ⟨[c], 0⟩ := by
      rcases hc with rfl | rfl
      · rcases hq with rfl | rfl
        · rfl
        · rfl
      · rfl
    exact unescapeFrom_escape he rfl
  | letter l hl =>
    have he : escape? false l ([] ++ t) = some ⟨[c], 0⟩ := by
      unfold letterNames at hl
      simp only [List.mem_cons, Prod.mk.injEq, List.not_mem_nil, or_false] at hl
      rcases hl with ⟨rfl, rfl⟩ | ⟨rfl, rfl⟩ | ⟨rfl, rfl⟩
      · rfl
      · rfl
      · rfl
    exact unescapeFrom_escape he rfl
  | numbered l width hl hn =>
    have hw : 0 < width := by
      have : ∀ p ∈ numberLetters, 0 < p.2 := by decide
      exact this _ hl
    exact unescapeFrom_escape (escape?_numbered hl hn t) (length_hex hw hn).symm

theorem unescape?_spelling (hq : IsQuoteMark quote) (t : Text) :
    unescape? false (t.flatMap (escapeChar quote)) = some t := by
  unfold unescape?
  induction t with
  | nil => rfl
  | cons c t ih =>
    rw [List.flatMap_cons, unescapeFrom_spelled hq (spelled_escapeChar quote c), ih]
    rfl

/-- Two more quotes after the first one open a text in three quotes; otherwise the first
one alone opens it. -/
theorem quoted?_cons (q : Quoting) {a : Char} {cs : Text} (h : ∀ r, cs ≠ a :: a :: r) :
    quoted? q (a :: cs) = (closeQuote a false cs).bind fun (body, rest) =>
      (quotedToken? q body).map fun k => (k, rest) := by
  unfold quoted?
  cases cs with
  | nil => rfl
  | cons b cs =>
    cases cs with
    | nil =>
      dsimp only
      cases closeQuote a false [b] with
      | none => rfl
      | some x => cases hv : quotedToken? q x.1 <;> simp [hv]
    | cons c cs =>
      have hn : (decide (b = a) && decide (c = a)) = false := by
        simp only [Bool.and_eq_false_iff, decide_eq_false_iff_not]
        by_cases hb : b = a
        · exact .inr fun hc => h cs (by rw [hb, hc])
        · exact .inl hb
      simp only [hn]
      cases closeQuote a false (b :: c :: cs) with
      | none => rfl
      | some x => cases hv : quotedToken? q x.1 <;> simp [hv]

/-- A quoted text is read back, unless a quote follows it. -/
theorem quoted?_text (t : Text) (hrest : ∀ c, rest.head? = some c → ¬ IsQuoteMark c) :
    quoted? ⟨.text, false⟩ (Quoted.text t ++ rest) = some (.value (.str t), rest) := by
  unfold Quoted.text
  dsimp only
  generalize hquote : quoteFor (t.contains singleQuote) (t.contains doubleQuote) = quote
  have hq : IsQuoteMark quote := hquote ▸ isQuoteMark_quoteFor _ _
  rw [List.cons_append, List.append_assoc, List.singleton_append, quoted?_cons, closeQuote_spelling hq]
  · simp [quotedToken?, unescape?_spelling hq]
  · intro r hr
    cases t with
    | nil =>
      rw [List.flatMap_nil, List.nil_append, List.cons.injEq] at hr
      exact hrest quote (by rw [hr.2]; rfl) hq
    | cons c t =>
      obtain ⟨d, s, hs, hd⟩ := Quoted.head_spelled hq (spelled_escapeChar quote c)
      rw [List.flatMap_cons, hs, List.cons_append, List.cons_append, List.cons.injEq] at hr
      exact hd hr.1

end

end VariableReport.Literal
