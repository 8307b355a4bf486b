import VariableReport.Proofs.Formula.Exponents
import VariableReport.Proofs.Formula.Symbols
import VariableReport.Proofs.Formula.Units

/-!
# Masked symbols

The name of a symbol may end a subscript without ending a word: after an underscore it is
followed by a word character that is no ASCII letter or digit, such as a further underscore.
Escaping skips such a name, and bracing closes its subscript before the character that hid
it. The steps before that neither mask a symbol nor unmask one, except that what stands in
units is braced there already.
-/

namespace VariableReport.Formula
open Text

variable {symbols : List Text} {f g : Text → Text} {t u k : Text} {b : Option Char}

/-- The name of a symbol stands between an underscore and a word character that is no ASCII
letter or digit: the name ends a subscript but no word. -/
def MasksSymbol (symbols : List Text) (t : Text) : Prop :=
  ∃ a s c b, t = a ++ '_' :: (s ++ c :: b) ∧ s ∈ symbols ∧ isWord c = true ∧
    isAsciiWord c = false

/-- A symbol that is masked by what follows stands at the start of the text. -/
def MaskedHere (symbols : List Text) (t : Text) : Prop :=
  wordOf t ∈ symbols ∧ endsBefore (afterWord t) = false

/-- Masked symbols, looked for place by place. -/
def Masked (symbols : List Text) : Text → Prop
  | [] => False
  | c :: t => (c = '_' ∧ MaskedHere symbols t) ∨ Masked symbols t

theorem maskedHere_iff (hs : Lettered symbols) : MaskedHere symbols t ↔
    ∃ s c b, t = s ++ c :: b ∧ s ∈ symbols ∧ isWord c = true ∧ isAsciiWord c = false := by
  constructor
  · intro ⟨hm, he⟩
    have hw := wordOf_append_afterWord t
    cases ha : afterWord t with
    | nil => simp [ha, endsBefore] at he
    | cons c b =>
      have hc : isAsciiWord c = false := by
        have := List.head?_dropWhile_not isAsciiWord t
        rw [show t.dropWhile isAsciiWord = c :: b from ha] at this
        simpa using this
      rw [ha] at hw he
      exact ⟨wordOf t, c, b, hw.symm, hm, by simpa [endsBefore] using he, hc⟩
  · rintro ⟨s, c, b, rfl, hm, hw, hc⟩
    have ht : ∀ x ∈ (c :: b).head?, isAsciiWord x = false := by simpa using hc
    obtain ⟨h1, h2⟩ := wordOf_append (hs s hm).2 ht
    exact ⟨by rwa [h1], by simp [h2, endsBefore, hw]⟩

theorem masksSymbol_iff_masked (hs : Lettered symbols) :
    MasksSymbol symbols t ↔ Masked symbols t := by
  induction t with
  | nil =>
    refine iff_of_false ?_ id
    rintro ⟨a, s, c, b, h, -⟩
    simp at h
  | cons d t ih =>
    rw [Masked, ← ih, maskedHere_iff hs]
    constructor
    · intro ⟨a, s, c, b, h, hm, hc⟩
      cases a with
      | nil =>
        obtain ⟨rfl, rfl⟩ := List.cons.inj h
        exact .inl ⟨rfl, s, c, b, rfl, hm, hc⟩
      | cons x a =>
        obtain ⟨rfl, rfl⟩ := List.cons.inj h
        exact .inr ⟨a, s, c, b, rfl, hm, hc⟩
    · rintro (⟨rfl, s, c, b, rfl, hm, hc⟩ | ⟨a, s, c, b, rfl, hm, hc⟩)
      · exact ⟨[], s, c, b, rfl, hm, hc⟩
      · exact ⟨d :: a, s, c, b, rfl, hm, hc⟩

theorem SameStart.maskedHere_iff (h : SameStart t u) :
    MaskedHere symbols u ↔ MaskedHere symbols t := by
  unfold MaskedHere
  rw [h.1, h.2]

theorem not_maskedHere_cons (hs : Lettered symbols) {c : Char} (hc : isAsciiWord c = false) :
    ¬MaskedHere symbols (c :: t) := by
  intro h
  have := (hs _ h.1).1
  rw [(wordOf_cons_of_not_word hc t).1] at this
  exact this rfl

theorem masked_cons {c : Char} :
    Masked symbols (c :: t) ↔ (c = '_' ∧ MaskedHere symbols t) ∨ Masked symbols t := Iff.rfl

theorem masked_cons_of_ne {c : Char} (hc : c ≠ '_') :
    Masked symbols (c :: t) ↔ Masked symbols t := by simp [Masked, hc]

theorem masked_append {r : Text} (hr : '_' ∉ r) :
    Masked symbols (r ++ t) ↔ Masked symbols t := by
  induction r with
  | nil => rfl
  | cons c r ih =>
    simp only [List.mem_cons, not_or] at hr
    rw [List.cons_append, masked_cons_of_ne (Ne.symm hr.1), ih hr.2]

/-- A character that belongs to no word keeps masked symbols on its two sides apart. -/
theorem masked_append_cons {d : Char} (hd : isWord d = false) :
    Masked symbols (t ++ d :: u) ↔ Masked symbols t ∨ Masked symbols u := by
  have hda := isAsciiWord_of_not_isWord hd
  have hu : d ≠ '_' := by rintro rfl; simp [isWord] at hd
  induction t with
  | nil => simp [Masked, hu]
  | cons c t ih =>
    have hhere : MaskedHere symbols (t ++ d :: u) ↔ MaskedHere symbols t :=
      (SameStart.append hd t u).maskedHere_iff
    exact (or_congr (and_congr_right fun _ => hhere) ih).trans or_assoc.symm

/-- Nothing is masked where no word follows an underscore. -/
theorem not_masked_of_braced (hs : Lettered symbols) (h : subscript.brace t = t) :
    ¬Masked symbols t := by
  have hc := (Script.bracing_brace subscript t).isChain Script.subscript_proper
  rw [h] at hc
  clear h
  induction t with
  | nil => exact id
  | cons c t ih =>
    rw [List.isChain_cons] at hc
    rintro (⟨rfl, hm⟩ | hm)
    · cases t with
      | nil => exact (hs _ hm.1).1 rfl
      | cons d t => exact not_maskedHere_cons hs (hc.1 d (by simp) rfl) hm
    · exact ih hc.2 hm

theorem SettledUnit.not_masked (hs : Lettered symbols) (h : SettledUnit k) :
    ¬Masked symbols k := by
  cases h with
  | product hp => exact not_masked_of_braced hs hp.braced
  | @fraction p q hp _ _ hq =>
    have hn : ¬Masked symbols ([] : Text) := id
    have h1 := not_masked_of_braced hs hp.braced
    have h2 := not_masked_of_braced hs hq.braced
    rw [masked_append_cons (by decide), masked_cons_of_ne (by decide),
      masked_cons_of_ne (by decide)]
    exact not_or.2 ⟨h1, h2⟩

theorem sameStart_mapUnits (f g : Text → Text) (t : Text) :
    SameStart (mapUnits f t) (mapUnits g t) := by
  have hb := bracketed t
  induction hb with
  | nil => exact ⟨rfl, rfl⟩
  | char hc _ ih =>
    rw [mapUnits_char f hc, mapUnits_char g hc]
    exact ih.cons _
  | unit h1 h2 _ _ =>
    rw [mapUnits_unit f h1 h2, mapUnits_unit g h1 h2]
    exact .of_not_word (by decide) _ _

/-- What stands in units has no influence when nothing in them is masked. -/
theorem masked_mapUnits_iff (hf : ∀ k, ¬Masked symbols (f k))
    (hg : ∀ k, ¬Masked symbols (g k)) (t : Text) :
    Masked symbols (mapUnits f t) ↔ Masked symbols (mapUnits g t) := by
  have hb := bracketed t
  induction hb with
  | nil => rfl
  | @char c t hc _ ih =>
    rw [mapUnits_char f hc, mapUnits_char g hc]
    exact or_congr (and_congr_right fun _ => (sameStart_mapUnits g f t).maskedHere_iff) ih
  | @unit k t h1 h2 _ ih =>
    rw [mapUnits_unit f h1 h2, mapUnits_unit g h1 h2, masked_cons_of_ne (by decide),
      masked_cons_of_ne (by decide), masked_append_cons (by decide),
      masked_append_cons (by decide)]
    exact or_congr (iff_of_false (hf k) (hg k)) ih

theorem masked_simplifyUnits_iff (hs : Lettered symbols) (t : Text) :
    Masked symbols (simplifyUnits t) ↔ Masked symbols (outsideUnits t) := by
  rw [simplifyUnits_eq_mapUnits]
  exact masked_mapUnits_iff (fun k => (settled_simplifyUnit k).not_masked hs) (fun _ => id) t

theorem sameStart_caretPowers (t : Text) : SameStart t (caretPowers t) := by
  induction t using caretPowers_induction with
  | nil => exact ⟨rfl, rfl⟩
  | pair t _ =>
    rw [caretPowers_pair]
    unfold SameStart
    have hstar : isAsciiWord '*' = false := by decide
    have hcaret : isAsciiWord '^' = false := by decide
    rw [(wordOf_cons_of_not_word hstar _).1, (wordOf_cons_of_not_word hcaret _).1,
      (wordOf_cons_of_not_word hstar _).2, (wordOf_cons_of_not_word hcaret _).2]
    exact ⟨rfl, rfl⟩
  | char c t hp ih =>
    rw [caretPowers_cons hp]
    exact ih.cons c

theorem masked_caretPowers_iff (t : Text) :
    Masked symbols (caretPowers t) ↔ Masked symbols t := by
  induction t using caretPowers_induction with
  | nil => rfl
  | pair t ih => simpa [caretPowers_pair, Masked] using ih
  | char c t hp ih =>
    rw [caretPowers_cons hp, masked_cons, masked_cons, ih, (sameStart_caretPowers t).maskedHere_iff]

theorem Script.Bracing.sameStart {s : Script} (hm : isAsciiWord s.mark = false)
    (h : s.Bracing t u) : SameStart t u := by
  induction h with
  | nil => exact ⟨rfl, rfl⟩
  | plain _ _ ih => exact ih.cons _
  | group => exact .of_not_word hm _ _

theorem masked_superscript_iff (h : superscript.Bracing t u) :
    Masked symbols u ↔ Masked symbols t := by
  induction h with
  | nil => rfl
  | plain _ h ih => rw [masked_cons, masked_cons, ih, (h.sameStart (by decide)).maskedHere_iff]
  | @group lead run t u hl _ hr _ _ ih =>
    have hlead : lead = [] := by
      rcases hl with rfl | ⟨l, hl, -⟩
      · rfl
      · contradiction
    have hrun : '_' ∉ run := fun hm => absurd (hr _ hm) (by decide)
    subst hlead
    rw [List.nil_append, List.nil_append, masked_cons_of_ne (by decide),
      masked_cons_of_ne (by decide), masked_cons_of_ne (by decide), masked_append hrun,
      masked_append hrun, masked_cons_of_ne (by decide), ih]

theorem masked_normalizeExponents_iff (t : Text) :
    Masked symbols (normalizeExponents t) ↔ Masked symbols t :=
  (masked_superscript_iff (Script.bracing_brace _ _)).trans (masked_caretPowers_iff t)

theorem Escaping.maskedHere_iff (hs : Lettered symbols) (h : Escaping symbols b t u) :
    MaskedHere symbols u ↔ MaskedHere symbols t := by
  cases h with
  | nil => rfl
  | plain _ h => exact h.sameStart_cons.maskedHere_iff
  | @symbol _ s t u _ hm ht =>
    have ha := (wordOf_append (hs s hm).2 (isAsciiWord_of_endsBefore ht)).2
    refine iff_of_false (not_maskedHere_cons hs (by decide)) fun h => ?_
    have := h.2
    rw [ha, ht] at this
    contradiction

/-- Escaping neither masks a symbol nor unmasks one. -/
theorem Escaping.masked_iff (hs : Lettered symbols) (h : Escaping symbols b t u) :
    Masked symbols u ↔ Masked symbols t := by
  induction h with
  | nil => rfl
  | plain _ h ih => rw [masked_cons, masked_cons, ih, h.maskedHere_iff hs]
  | @symbol _ s t u _ hm _ _ ih =>
    have hu : '_' ∉ s := fun h => absurd ((hs s hm).2 _ h) (by decide)
    rw [masked_cons_of_ne (by decide), masked_append hu, masked_append hu, ih]

end VariableReport.Formula
