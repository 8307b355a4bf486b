import VariableReport.Proofs.Formula.Normal
import VariableReport.Proofs.Text.Balance

/-!
# Braces of a formula

Formatting puts in braces around whole runs and backslashes before symbols, and outside units that
is all that it does once carets have taken the places of double stars (`inserted_format`). Carets,
escaping and bracing leave as many groups open as there were before, behind every text
(`openAfter_format`). Only units are written anew, from factors that are balanced one by one, so
equal factors can be collected without harm to the balance of the whole.
-/

namespace VariableReport.Formula
open Text

variable {symbols : List Text} {s : Script} {t u k : Text} {settings : Settings}

/-- The text without braces and backslashes. -/
def bare (t : Text) : Text := t.filter fun c => !isBrace c && c ≠ '\\'

/-! ### What each step leaves open -/

theorem Script.Foreign.ne_of_member {c d : Char} (hd : s.Foreign d) (hc : s.member c = true) :
    c ≠ d := by
  rintro rfl
  rw [hd.member] at hc
  contradiction

/-- A run is braced as a whole, so that the brace behind it closes the one in front of it. -/
theorem Script.Bracing.openAfter_eq (ho : s.Foreign '\x7b') (hc : s.Foreign '\x7d')
    (h : s.Bracing t u) (n : Nat) : openAfter n u = openAfter n t := by
  have hother : ∀ {c}, c ≠ '\x7b' → c ≠ '\x7d' → isBrace c = false := by
    simp +contextual [isBrace]
  induction h generalizing n with
  | nil => rfl
  | plain _ _ ih =>
    rw [openAfter_cons, openAfter_cons]
    exact congrArg _ (funext ih)
  | @group lead run t u hl _ hr _ _ ih =>
    have hmark : isBrace s.mark = false := hother (Ne.symm ho.mark) (Ne.symm hc.mark)
    have hlead : ∀ c ∈ lead, isBrace c = false := by
      rcases hl with rfl | ⟨l, hl, rfl⟩
      · simp
      · intro c hm
        obtain rfl := List.mem_singleton.1 hm
        exact hother (fun h => ho.lead (h ▸ hl)) (fun h => hc.lead (h ▸ hl))
    have hrun : ∀ c ∈ run, isBrace c = false := fun c hm =>
      hother (ho.ne_of_member (hr c hm)) (hc.ne_of_member (hr c hm))
    rw [openAfter_other hmark, openAfter_other hmark, openAfter_open,
      openAfter_unbraced_append hlead, openAfter_unbraced_append hlead,
      openAfter_unbraced_append hrun, openAfter_unbraced_append hrun, openAfter_close, ih]

theorem openAfter_subscript (n : Nat) (t : Text) :
    openAfter n (subscript.brace t) = openAfter n t :=
  (Script.bracing_brace subscript t).openAfter_eq ⟨by decide, by decide, by decide⟩
    ⟨by decide, by decide, by decide⟩ n

theorem openAfter_superscript (n : Nat) (t : Text) :
    openAfter n (superscript.brace t) = openAfter n t :=
  (Script.bracing_brace superscript t).openAfter_eq ⟨by decide, by decide, by decide⟩
    ⟨by decide, by decide, by decide⟩ n

theorem openAfter_caretPowers (n : Nat) (t : Text) :
    openAfter n (caretPowers t) = openAfter n t := by
  have hstar : isBrace '*' = false := by decide
  have hcaret : isBrace '^' = false := by decide
  induction t using caretPowers_induction generalizing n with
  | nil => rfl
  | pair t ih =>
    rw [caretPowers_pair, openAfter_other hcaret, openAfter_other hstar, openAfter_other hstar, ih]
  | char c t hp ih =>
    rw [caretPowers_cons hp, openAfter_cons, openAfter_cons]
    exact congrArg _ (funext ih)

theorem openAfter_escapeSymbols (hs : [] ∉ symbols) (n : Nat) (t : Text) :
    openAfter n (escapeSymbols symbols t) = openAfter n t := by
  refine (inserted_escapeSymbols hs t).openAfter_eq ?_ n
  rintro c rfl
  decide

/-- After units are simplified, formatting leaves open what the text leaves open. -/
theorem openAfter_format (hs : [] ∉ symbols) (n : Nat) (t : Text) :
    openAfter n (format symbols t) = openAfter n (simplifyUnits t) := by
  rw [format_eq_steps hs, openAfter_subscript, openAfter_escapeSymbols hs, normalizeExponents,
    openAfter_superscript, openAfter_caretPowers]

/-! ### Units -/

theorem openAfter_power (n : Nat) (p : Text) (count : Nat) :
    openAfter n (power p count) = openAfter n p := by
  have hcaret : isBrace '^' = false := by decide
  have hdigits : ∀ c ∈ Decimal.natText count, isBrace c = false := by
    intro c hc
    have hnot := Decimal.not_mem_of_isAsciiDigit (t := ['\x7b', '\x7d']) (by decide)
      (Decimal.isAsciiDigit_of_mem_natText hc)
    simpa [isBrace] using hnot
  have hexponent (m : Nat) :
      openAfter m ('^' :: '\x7b' :: (Decimal.natText count ++ ['\x7d'])) = some m := by
    rw [openAfter_other hcaret, openAfter_open, openAfter_unbraced_append hdigits, openAfter_close,
      openAfter_nil]
  unfold power
  split
  · rw [openAfter_append, openAfter_subscript]
    simp only [hexponent, Option.bind_fun_some]
  · exact openAfter_subscript n p

/-- Collected factors are balanced if the product holds no braces. -/
theorem balanced_simplifyProduct (h : ∀ c ∈ t, isBrace c = false) :
    Balanced (simplifyProduct t) := by
  refine balanced_join (balanced_of_any_isBrace (by decide)) ?_
  intro p hp
  obtain ⟨f, hf, rfl⟩ := List.mem_map.1 hp
  obtain ⟨-, -, hmem⟩ := mem_factors (List.mem_eraseDups.1 hf)
  rw [balanced_iff_openAfter]
  intro n
  rw [openAfter_power, openAfter_unbraced fun c hc => h c (hmem c hc).1]

theorem balanced_simplifyUnit (h : ∀ c ∈ k, isBrace c = false) : Balanced (simplifyUnit k) := by
  unfold simplifyUnit
  cases hc : cut '/' k with
  | none => exact balanced_simplifyProduct h
  | some sides =>
    obtain ⟨top, bottom⟩ := sides
    obtain ⟨rfl, -⟩ := cut_eq_some hc
    have htop : Balanced (simplifyProduct top) :=
      balanced_simplifyProduct fun c hm => h c (by simp [hm])
    have hbottom : Balanced (simplifyProduct bottom) :=
      balanced_simplifyProduct fun c hm => h c (by simp [hm])
    have hslash : Balanced " / ".toList := balanced_of_any_isBrace (by decide)
    refine Balanced.append (Balanced.append ?_ hslash) hbottom
    split
    · exact balanced_of_any_isBrace (by decide)
    · exact htop

theorem balanced_simplifyUnits (h : ∀ c ∈ t, isBrace c = false) : Balanced (simplifyUnits t) := by
  rw [simplifyUnits_eq_mapUnits]
  have hb := bracketed t
  induction hb with
  | nil => exact balanced_of_unbraced h
  | @char c t hc _ ih =>
    rw [List.forall_mem_cons] at h
    rw [mapUnits_char _ hc]
    exact (balanced_of_unbraced (t := [c]) (by simpa using h.1)).append (ih h.2)
  | @unit k t h1 h2 _ ih =>
    have hopen : Balanced ['['] := balanced_of_any_isBrace (by decide)
    have hclose : Balanced [']'] := balanced_of_any_isBrace (by decide)
    rw [mapUnits_unit _ h1 h2]
    refine hopen.append ((balanced_simplifyUnit fun c hc => ?_).append (hclose.append (ih ?_)))
    · exact h c (by simp [hc])
    · exact fun c hc => h c (by simp [hc])

/-! ### Formulas -/

theorem simplifyUnits_of_not_mem (h : '[' ∉ t) : simplifyUnits t = t := by
  have := mapUnits_append simplifyUnit h []
  rwa [List.append_nil, mapUnits_nil, List.append_nil, ← simplifyUnits_eq_mapUnits] at this

/-- Without units, formatting puts braces and backslashes in and does nothing else once carets
are written. -/
theorem inserted_format (hs : [] ∉ symbols) (h : '[' ∉ t) :
    Inserted (fun c => c = '\\' ∨ c = '\x7b' ∨ c = '\x7d') (caretPowers t) (format symbols t) := by
  have hsuper : Inserted (fun c => c = '\x7b' ∨ c = '\x7d') (caretPowers t)
      (normalizeExponents t) := superscript.brace_inserted (caretPowers t)
  have hformat := format_inserted hs t
  rw [simplifyUnits_of_not_mem h] at hformat
  exact (hsuper.mono fun _ => .inr).trans hformat

theorem bare_eq_of_inserted (h : Inserted (fun c => c = '\\' ∨ c = '\x7b' ∨ c = '\x7d') t u) :
    bare u = bare t := by
  refine h.filter_eq fun c hc => ?_
  rcases hc with rfl | rfl | rfl <;> decide

/-- With the symbols of settings that can be used: a text without units is its formula, but for
carets, braces and backslashes; and the braces of a formula are balanced if its text, with or
without units, has none. -/
theorem format_balanced (h : settings.misuse? = none) (t : Text) :
    ('[' ∉ t → bare (format settings.symbols t) = bare (caretPowers t)) ∧
      ('\x7b' ∉ t → '\x7d' ∉ t → Balanced (format settings.symbols t)) := by
  have hs : [] ∉ settings.symbols :=
    (solid_of_isIdentifier (Settings.Usable.of_misuse?_eq_none h).symbols).nil_not_mem
  refine ⟨fun hunit => bare_eq_of_inserted (inserted_format hs hunit), fun ho hc => ?_⟩
  have hunbraced : ∀ c ∈ t, isBrace c = false := by
    intro c hm
    have hne : c ≠ '\x7b' ∧ c ≠ '\x7d' := ⟨ne_of_mem_of_not_mem hm ho, ne_of_mem_of_not_mem hm hc⟩
    simpa [isBrace] using hne
  have hunits := balanced_iff_openAfter.1 (balanced_simplifyUnits hunbraced)
  rw [balanced_iff_openAfter]
  intro n
  rw [openAfter_format hs, hunits]

/-- Subscripts in exponents, symbols in subscripts and three stars, without units. -/
def awkwardScripts : Text := "a_b**-x_a.3 ***_\u2118^a_b".toList

theorem format_balanced_awkward : awkwardSymbols.misuse? = none ∧ '[' ∉ awkwardScripts ∧
    bare (format awkwardSymbols.symbols awkwardScripts) = bare (caretPowers awkwardScripts) ∧
    Balanced awkwardFormula := by
  have h : awkwardSymbols.misuse? = none := by decide +kernel
  have hunit : '[' ∉ awkwardScripts := by decide
  exact ⟨h, hunit, (format_balanced h _).1 hunit, (format_balanced h _).2 (by decide) (by decide)⟩

end VariableReport.Formula
