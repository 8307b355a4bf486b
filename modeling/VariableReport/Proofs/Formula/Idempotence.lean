import VariableReport.Formula
import VariableReport.Proofs.Formula.Masking
import VariableReport.Proofs.Formula.Words

/-!
# Formatting twice

Formatting a formula once more changes nothing in its units and exponents
(`simplifyUnits_format`, `normalizeExponents_format`). It escapes one more symbol exactly when
a symbol was masked outside units: the first pass skips the name, and its last step sets the
name free by putting it into braces without the character that hid it
(`format_format_eq_iff`). Each of the four steps alone leaves its own result as it is
(`steps_idempotent`).
-/

namespace VariableReport.Formula
open Text

variable {symbols : List Text} {t u : Text} {b : Option Char}

/-- Bracing leaves an escaped text settled unless it held a masked symbol. -/
theorem settled_bracing_iff (hs : Lettered symbols) (h : subscript.Bracing t u)
    (ht : Settled symbols b t) : Settled symbols b u ↔ ¬Masked symbols t := by
  have hclose : isAsciiWord '\x7d' = false := by decide
  induction h generalizing b with
  | nil => exact iff_of_true trivial id
  | @plain c t u hp h ih =>
    have hstart := (h.sameStart (by decide)).cons c
    have hhere : ¬(c = '_' ∧ MaskedHere symbols t) := by
      rintro ⟨rfl, hm⟩
      have hopen := hp rfl
      cases t with
      | nil => exact (hs _ hm.1).1 rfl
      | cons d t =>
        have hd : isAsciiWord d = false := by
          simp only [Script.opens, Bool.or_eq_false_iff] at hopen
          exact hopen.1
        exact not_maskedHere_cons hs hd hm
    have hhit : startsAfter b = true → ¬Hits symbols (c :: u) := fun hb hh =>
      ht.1 hb (hstart.hits_iff.1 hh)
    exact (and_iff_right hhit).trans ((ih ht.2).trans (not_congr (or_iff_right hhere)).symm)
  | @group lead run t u hl hne hr hrest h ih =>
    have hmark : isAsciiWord '_' = false := by decide
    have hopen : isAsciiWord '\x7b' = false := by decide
    have hrun : '_' ∉ run := fun hm => absurd (hr _ hm) (by decide)
    -- Behind the closing brace a text is settled as it was behind the run.
    have htail : Settled symbols run.getLast? t →
        (Settled symbols run.getLast? ('\x7d' :: u) ↔ ¬Masked symbols t) := fun ht => by
      rw [settled_cons_of_not_word hs hclose]
      exact ih ((settled_congr hs hrest _ _).1 ht)
    change Settled symbols b ('_' :: (lead ++ (run ++ t))) at ht
    change Settled symbols b ('_' :: '\x7b' :: (lead ++ (run ++ '\x7d' :: u))) ↔
      ¬Masked symbols ('_' :: (lead ++ (run ++ t)))
    rw [settled_cons_of_not_word hs hmark] at ht
    rw [settled_cons_of_not_word hs hmark, settled_cons_of_not_word hs hopen, masked_cons]
    rcases hl with rfl | ⟨l, hl, rfl⟩
    · rw [List.nil_append] at ht ⊢
      obtain ⟨hw, ha⟩ := wordOf_append hr hrest
      obtain ⟨hw', ha'⟩ := wordOf_append (t := '\x7d' :: u) hr (by simpa using hclose)
      rw [settled_word_iff (by decide) hne hr] at ht
      rw [List.nil_append, settled_word_iff (by decide) hne hr, htail ht.2, masked_append hrun, not_or,
        Hits, MaskedHere, hw', ha', hw, ha]
      refine and_congr_left fun _ => ?_
      have hskip := ht.1
      rw [Hits, hw, ha] at hskip
      constructor
      · exact fun hn hm => hn ⟨hm.2.1, rfl⟩
      · exact fun hn hm => hn ⟨rfl, hm.1, by simpa using fun he => hskip ⟨hm.1, he⟩⟩
    · obtain rfl : '\\' = l := Option.some.inj hl
      have hback : isAsciiWord '\\' = false := by decide
      have hnone : ¬('_' = '_' ∧ MaskedHere symbols (['\\'] ++ (run ++ t))) := fun hm =>
        not_maskedHere_cons hs hback hm.2
      have hno : startsAfter (some '\\') = false := by decide
      rw [List.singleton_append, settled_cons_of_not_word hs hback, settled_append_word hno hne hr]
        at ht
      rw [or_iff_right hnone, List.singleton_append, List.singleton_append,
        settled_cons_of_not_word hs hback, settled_append_word hno hne hr, htail ht,
        masked_cons_of_ne (by decide), masked_append hrun]

theorem foreign_of_unit (s : Script) (h : s = subscript ∨ s = superscript) :
    ∀ d, d ∈ "[]/ \n".toList → s.Foreign d := by
  intro d hd
  have hsub : ∀ d, d ∈ "[]/ \n".toList →
      d ≠ '_' ∧ some '\\' ≠ some d ∧ subscript.member d = false :=
    List.all_iff_forall_prop.1 (by decide)
  have hsuper : ∀ d, d ∈ "[]/ \n".toList →
      d ≠ '^' ∧ none ≠ some d ∧ superscript.member d = false :=
    List.all_iff_forall_prop.1 (by decide)
  rcases h with rfl | rfl
  · exact ⟨(hsub d hd).1, (hsub d hd).2.1, (hsub d hd).2.2⟩
  · exact ⟨(hsuper d hd).1, (hsuper d hd).2.1, (hsuper d hd).2.2⟩

theorem tame_brace (s : Script) (h : s = subscript ∨ s = superscript) : Tame s.brace := by
  refine .of_inserted (s.brace_inserted) (fun d hd => s.brace_splitsAt (foreign_of_unit s h d hd))
    ?_ ?_ rfl
  · intro c hc
    rcases hc with rfl | rfl <;> decide
  · intro c hc
    rcases hc with rfl | rfl <;> decide

theorem tame_caretPowers : Tame caretPowers where
  nil := rfl
  splits d hd := caretPowers_splitsAt fun h => absurd (h ▸ hd) (by decide)
  mem d hd t hm := (mem_caretPowers hm).resolve_left fun h => absurd (h ▸ hd) (by decide)
  trimmed t ht := by
    refine ⟨fun c hc => ?_, fun c hc => ?_⟩
    · rcases head_caretPowers c hc with rfl | hc
      · decide
      · exact ht.1 c hc
    · rcases getLast_caretPowers c hc with rfl | hc
      · decide
      · exact ht.2 c hc
  ne_nil _ := caretPowers_ne_nil

/-- All names have a character, and none of their characters is one at which units are cut. -/
def Solid (symbols : List Text) : Prop :=
  ∀ s ∈ symbols, s ≠ [] ∧ ∀ d, d ∈ "[]/ \n".toList → d ∉ s

theorem Solid.nil_not_mem (hs : Solid symbols) : [] ∉ symbols := fun h => (hs [] h).1 rfl

theorem Lettered.solid (hs : Lettered symbols) : Solid symbols := by
  have hcut : ∀ d, d ∈ "[]/ \n".toList → isAsciiWord d = false :=
    List.all_iff_forall_prop.1 (by decide)
  intro s hm
  refine ⟨(hs s hm).1, fun d hd hds => ?_⟩
  have hnot := (hs s hm).2 d hds
  rw [hcut d hd] at hnot
  cases hnot

theorem tame_escapeSymbols (hs : Solid symbols) : Tame (escapeSymbols symbols) := by
  have hd : ∀ d, d ∈ "[]/ \n".toList → isWord d = false ∧ d ≠ '\\' :=
    List.all_iff_forall_prop.1 (by decide)
  refine .of_inserted (inserted_escapeSymbols hs.nil_not_mem)
    (fun d h => splitsAt_escapeSymbols hs.nil_not_mem (fun s hm => (hs s hm).2 d h) (hd d h).1
      (hd d h).2) ?_ ?_ (escapeFrom_nil hs.nil_not_mem none)
  · intro c heq
    subst heq
    decide
  · intro c heq
    subst heq
    decide

/-- Formatting is its four steps, also for the empty text. -/
theorem format_eq_steps (hs : [] ∉ symbols) (t : Text) :
    format symbols t =
      subscript.brace (escapeSymbols symbols (normalizeExponents (simplifyUnits t))) := by
  unfold format
  split
  next ht =>
    obtain rfl : t = [] := by simpa using ht
    have hnil : escapeSymbols symbols [] = [] := escapeFrom_nil hs none
    simp [simplifyUnits, simplifyUnitsFrom, normalizeExponents, caretPowers, Script.brace_nil, hnil]
  next => rfl

theorem format_eq (hs : Lettered symbols) (t : Text) :
    format symbols t =
      subscript.brace (escapeSymbols symbols (normalizeExponents (simplifyUnits t))) :=
  format_eq_steps hs.nil_not_mem t

/-- Units are simple in a formula. -/
theorem simplifyUnits_format (hs : Solid symbols) (t : Text) :
    simplifyUnits (format symbols t) = format symbols t := by
  have hexp : Tame normalizeExponents := (tame_brace superscript (.inr rfl)).comp tame_caretPowers
  have htame := (tame_brace subscript (.inl rfl)).comp ((tame_escapeSymbols hs).comp hexp)
  rw [format_eq_steps hs.nil_not_mem]
  apply SettledUnits.simplifyUnits_eq
  exact htame.settledUnits (fun _ => Script.brace_brace Script.subscript_proper _)
    (settledUnits_simplifyUnits t)

/-- What formatting puts in after exponents are normal. -/
theorem format_inserted (hs : [] ∉ symbols) (t : Text) :
    Inserted (fun c => c = '\\' ∨ c = '\x7b' ∨ c = '\x7d')
      (normalizeExponents (simplifyUnits t)) (format symbols t) := by
  rw [format_eq_steps hs]
  exact ((inserted_escapeSymbols hs _).mono fun _ => .inl).trans
    ((subscript.brace_inserted _).mono fun _ => .inr)

/-- Exponents are normal in a formula. -/
theorem normalizeExponents_format (hs : [] ∉ symbols) (t : Text) :
    normalizeExponents (format symbols t) = format symbols t := by
  refine normalizeExponents_eq_self ?_ (format_inserted hs t)
  intro c hc
  rcases hc with rfl | rfl | rfl <;> decide

/-- Subscripts are braced in a formula. -/
theorem braceSubscripts_format (hs : [] ∉ symbols) (t : Text) :
    braceSubscripts (format symbols t) = format symbols t := by
  rw [format_eq_steps hs]
  exact Script.brace_brace Script.subscript_proper _

/-- Formatting a formula again changes it exactly when escaping does. -/
theorem format_format_eq_iff_settled (hs : Lettered symbols) (t : Text) :
    format symbols (format symbols t) = format symbols t ↔
      Settled symbols none (format symbols t) := by
  have hbraced : subscript.brace (format symbols t) = format symbols t :=
    braceSubscripts_format hs.nil_not_mem t
  have hagain := format_eq hs (format symbols t)
  rw [simplifyUnits_format hs.solid, normalizeExponents_format hs.nil_not_mem] at hagain
  generalize format symbols t = u at hbraced hagain ⊢
  rw [hagain, ← escapeSymbols_eq_self_iff hs]
  constructor
  · intro h
    have hlen := (subscript.brace_inserted (escapeSymbols symbols u)).length_le
    rw [h] at hlen
    exact (inserted_escapeSymbols hs.nil_not_mem u).eq_of_length_le hlen
  · intro h
    rw [h, hbraced]

/-- A formula is left alone by formatting it again exactly when no name of a symbol stands
between an underscore and a word character that is no ASCII letter or digit, outside
units. -/
theorem format_format_eq_iff (t : Text) :
    format commonSymbols (format commonSymbols t) = format commonSymbols t ↔
      ¬MasksSymbol commonSymbols (outsideUnits t) := by
  have hs := commonSymbols_lettered
  have hescape := escaping_escapeSymbols hs (normalizeExponents (simplifyUnits t))
  have hbrace := Script.bracing_brace subscript
    (escapeSymbols commonSymbols (normalizeExponents (simplifyUnits t)))
  rw [format_format_eq_iff_settled hs, format_eq hs,
    settled_bracing_iff hs hbrace (settled_escapeSymbols hs _), hescape.masked_iff hs,
    masked_normalizeExponents_iff, masked_simplifyUnits_iff hs, masksSymbol_iff_masked hs]

/-- The second underscore hides the symbol between the two from the first pass only. -/
theorem format_format_ne_of_second_underscore :
    format commonSymbols (format commonSymbols "x_alpha_b".toList) ≠
      format commonSymbols "x_alpha_b".toList := by
  decide +kernel

/-! ### One step twice -/

theorem simplifyUnits_simplifyUnits (t : Text) :
    simplifyUnits (simplifyUnits t) = simplifyUnits t :=
  (settledUnits_simplifyUnits t).simplifyUnits_eq

theorem normalizeExponents_normalizeExponents (t : Text) :
    normalizeExponents (normalizeExponents t) = normalizeExponents t :=
  normalizeExponents_eq_self (P := fun _ => False) (fun _ h => h.elim) (.refl _)

theorem Lettered.worded (hs : Lettered symbols) : Worded symbols := by
  intro s hm
  refine ⟨(hs s hm).1, fun c hc => isPlain_iff.2 ?_⟩
  have hword := (hs s hm).2 c hc
  refine ⟨isWord_of_isAsciiWord hword, ?_⟩
  rintro rfl
  exact absurd hword (by decide)

/-- Each step leaves its own result as it is: no units, powers, subscripts or symbols are left in it
that the step would change. The names of the symbols are any words without underscores. -/
theorem steps_idempotent :
    (∀ t, simplifyUnits (simplifyUnits t) = simplifyUnits t) ∧
    (∀ t, normalizeExponents (normalizeExponents t) = normalizeExponents t) ∧
    (∀ t, braceSubscripts (braceSubscripts t) = braceSubscripts t) ∧
    Worded commonSymbols ∧
    ∀ symbols, Worded symbols → ∀ t,
      escapeSymbols symbols (escapeSymbols symbols t) = escapeSymbols symbols t :=
  ⟨simplifyUnits_simplifyUnits, normalizeExponents_normalizeExponents,
    Script.brace_brace Script.subscript_proper, commonSymbols_lettered.worded,
    fun _ hw => escapeSymbols_escapeSymbols hw⟩

theorem steps_idempotent_nested : Worded nestedNames ∧
    escapeSymbols nestedNames (escapeSymbols nestedNames "_ab-b\\a_\u00e9a".toList) =
      escapeSymbols nestedNames "_ab-b\\a_\u00e9a".toList :=
  ⟨worded_nestedNames, steps_idempotent.2.2.2.2 nestedNames worded_nestedNames _⟩

end VariableReport.Formula
