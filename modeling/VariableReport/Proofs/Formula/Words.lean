import VariableReport.Proofs.Formula.Escape

/-!
# Symbols as whole words

When the names of the symbols are words without underscores, no two places at which a symbol may be
escaped overlap: behind the first character of a name none can start until the name ends. Escaping is
then told place by place (`escapeSymbols_at_places`), without the pass from the left, the choice of
the longest name or the order of the names. It leaves its own result alone
(`escapeSymbols_escapeSymbols`), for a backslash is put in front of a name only where no name ends.
-/

namespace VariableReport.Formula
open Text

variable {symbols : List Text} {r s t u : Text} {b : Option Char} {c : Char} {p : Nat}

/-- A word character that is no underscore. -/
def isPlain (c : Char) : Bool := isWord c && c ≠ '_'

/-- All names are words without underscores. -/
def Worded (symbols : List Text) : Prop :=
  ∀ s ∈ symbols, s ≠ [] ∧ ∀ c ∈ s, isPlain c = true

/-- A symbol stands at a place as a whole word: before it there is nothing, an underscore, or a
character that is neither a backslash nor a word character, and no word character follows it. -/
def StandsAt (symbols : List Text) (t : Text) (p : Nat) : Prop :=
  ∃ s ∈ symbols, s <+: t.drop p ∧
    (∀ c ∈ (t.take p).getLast?, c = '_' ∨ (c ≠ '\\' ∧ isWord c = false)) ∧
    ∀ c ∈ (t.drop (p + s.length)).head?, isWord c = false

instance (symbols : List Text) (t : Text) : DecidablePred (StandsAt symbols t) := fun p =>
  inferInstanceAs (Decidable (∃ s ∈ symbols, s <+: t.drop p ∧
    (∀ c ∈ (t.take p).getLast?, c = '_' ∨ (c ≠ '\\' ∧ isWord c = false)) ∧
    ∀ c ∈ (t.drop (p + s.length)).head?, isWord c = false))

theorem Worded.nil_not_mem (hs : Worded symbols) : [] ∉ symbols := fun h => (hs [] h).1 rfl

theorem isPlain_iff : isPlain c = true ↔ isWord c = true ∧ c ≠ '_' := by simp [isPlain]

theorem startsAfter_of_plain (hc : isPlain c = true) : startsAfter (some c) = false := by
  obtain ⟨hword, hline⟩ := isPlain_iff.1 hc
  simp [startsAfter, hword, hline]

theorem startsAfter_iff :
    startsAfter b = true ↔ ∀ c ∈ b, c = '_' ∨ (c ≠ '\\' ∧ isWord c = false) := by
  cases b <;> simp [startsAfter]

theorem endsBefore_iff : endsBefore t = true ↔ ∀ c ∈ t.head?, isWord c = false := by
  cases t <;> simp [endsBefore]

/-! ### Place by place -/

/-- What stands in front of a place and what stands behind it tell whether a symbol stands there. -/
theorem standsAt_length (symbols : List Text) (s t : Text) : StandsAt symbols (s ++ t) s.length ↔
    startsAfter s.getLast? = true ∧ ∃ x ∈ symbols, fits x t = true := by
  simp only [StandsAt, List.take_left, List.drop_left, ← List.drop_drop, ← startsAfter_iff,
    ← endsBefore_iff, fits, Bool.and_eq_true, List.isPrefixOf_iff_prefix]
  constructor
  · rintro ⟨x, hx, hprefix, hstart, hend⟩
    exact ⟨hstart, x, hx, hprefix, hend⟩
  · rintro ⟨hstart, x, hx, hprefix, hend⟩
    exact ⟨x, hx, hprefix, hstart, hend⟩

/-- One character, with a backslash in front where a symbol stands. -/
def markAt (symbols : List Text) (t : Text) (p : Nat) (c : Char) : Text :=
  if StandsAt symbols t p then ['\\', c] else [c]

/-- A text with a backslash at every place where a symbol stands. -/
def mark (symbols : List Text) (t : Text) : Text := (t.mapIdx (markAt symbols t)).flatten

/-- The places of a text that stands behind another one. -/
def markBehind (symbols : List Text) (s t : Text) : Text :=
  (t.mapIdx fun i => markAt symbols (s ++ t) (s.length + i)).flatten

theorem markBehind_nil_left (symbols : List Text) (t : Text) :
    markBehind symbols [] t = mark symbols t := by
  simp [markBehind, mark]

theorem markBehind_cons (symbols : List Text) (s t : Text) (c : Char) :
    markBehind symbols s (c :: t) =
      markAt symbols (s ++ c :: t) s.length c ++ markBehind symbols (s ++ [c]) t := by
  simp [markBehind, List.mapIdx_cons, Nat.add_assoc, Nat.add_comm 1]

/-- Behind a character of a word no symbol stands until the word has ended. -/
theorem markBehind_word (hs : startsAfter s.getLast? = false) (hr : ∀ c ∈ r, isPlain c = true)
    (t : Text) : markBehind symbols s (r ++ t) = r ++ markBehind symbols (s ++ r) t := by
  induction r generalizing s with
  | nil => simp
  | cons c r ih =>
    rw [List.forall_mem_cons] at hr
    have hnot : ¬StandsAt symbols (s ++ c :: (r ++ t)) s.length := by
      rw [standsAt_length, hs]
      exact fun h => absurd h.1 (by simp)
    have hlast : startsAfter (s ++ [c]).getLast? = false := by
      simpa using startsAfter_of_plain hr.1
    rw [List.cons_append, markBehind_cons, markAt, if_neg hnot, ih hlast hr.2]
    simp

namespace Marking

/-- The pass from the left puts a backslash at every place where a symbol stands. -/
theorem eq_markBehind (hw : Worded symbols) (h : Marking symbols b t u) (hb : b = s.getLast?) :
    u = markBehind symbols s t := by
  induction h generalizing s with
  | nil => rfl
  | @char b c t u hp _ ih =>
    have hnot : ¬StandsAt symbols (s ++ c :: t) s.length := by
      rw [standsAt_length, ← hb]
      rintro ⟨hstart, x, hx, hfits⟩
      rw [longestFit?_eq_none_iff.1 (hp hstart) x hx] at hfits
      contradiction
    rw [markBehind_cons, markAt, if_neg hnot, ← ih (by simp)]
    rfl
  | @symbol b x t u hstart hne hl _ ih =>
    obtain ⟨hx, hfits⟩ := longestFit?_mem hl
    obtain ⟨c, r, rfl⟩ := List.exists_cons_of_ne_nil hne
    obtain ⟨hc, hr⟩ := List.forall_mem_cons.1 (hw _ hx).2
    have hstands : StandsAt symbols (s ++ c :: (r ++ t)) s.length :=
      (standsAt_length symbols s _).2 ⟨hb ▸ hstart, c :: r, hx, hfits⟩
    have hlast : startsAfter (s ++ [c]).getLast? = false := by simpa using startsAfter_of_plain hc
    have hrest : u = markBehind symbols (s ++ c :: r) t :=
      ih (List.getLast?_append_of_ne_nil s hne).symm
    rw [List.append_cons] at hrest
    change '\\' :: c :: (r ++ u) = markBehind symbols s (c :: (r ++ t))
    rw [markBehind_cons, markAt, if_pos hstands, markBehind_word hlast hr, ← hrest]
    rfl

end Marking

theorem escapeSymbols_eq_mark (hw : Worded symbols) (t : Text) :
    escapeSymbols symbols t = mark symbols t := by
  have hmark := (marking_escapeFrom hw.nil_not_mem none t).eq_markBehind hw (s := []) rfl
  rwa [markBehind_nil_left] at hmark

/-- Escaping puts one backslash at every place where a symbol stands as a whole word and changes
nothing else, so the order of the names and their repetitions have no influence. -/
theorem escapeSymbols_at_places (hw : Worded symbols) (t : Text) :
    escapeSymbols symbols t =
        (t.mapIdx fun p c => if StandsAt symbols t p then ['\\', c] else [c]).flatten ∧
      ∀ names : List Text, (∀ s, s ∈ names ↔ s ∈ symbols) →
        escapeSymbols names t = escapeSymbols symbols t := by
  refine ⟨escapeSymbols_eq_mark hw t, fun names hnames => ?_⟩
  have hw' : Worded names := fun s hs => hw s ((hnames s).1 hs)
  have hstands (p : Nat) : StandsAt names t p ↔ StandsAt symbols t p := by
    simp only [StandsAt, hnames]
  have hmarkAt : markAt names t = markAt symbols t := by
    funext p c
    simp only [markAt, hstands]
  rw [escapeSymbols_eq_mark hw, escapeSymbols_eq_mark hw', mark, hmarkAt]
  rfl

/-- Names that begin and end with other names. -/
def nestedNames : List Text := ["a", "ab", "b", "ab", "\u00e9a"].map String.toList

theorem worded_nestedNames : Worded nestedNames := by
  have hall : ∀ s ∈ nestedNames, s ≠ [] ∧ s.all isPlain = true := by decide +kernel
  exact fun s hs => ⟨(hall s hs).1, List.all_eq_true.1 (hall s hs).2⟩

theorem escapeSymbols_at_places_nested : Worded nestedNames ∧
    mark nestedNames "\u00e9a+a_b.abb \\b-ab_a".toList =
      "\\\u00e9a+a_\\b.abb \\b-ab_\\a".toList ∧
    escapeSymbols nestedNames.reverse "\u00e9a+a_b.abb \\b-ab_a".toList =
      "\\\u00e9a+a_\\b.abb \\b-ab_\\a".toList := by
  obtain ⟨hplaces, horder⟩ :=
    escapeSymbols_at_places worded_nestedNames "\u00e9a+a_b.abb \\b-ab_a".toList
  have hescaped : escapeSymbols nestedNames "\u00e9a+a_b.abb \\b-ab_a".toList =
      "\\\u00e9a+a_\\b.abb \\b-ab_\\a".toList := by decide +kernel
  rw [horder nestedNames.reverse fun s => List.mem_reverse]
  exact ⟨worded_nestedNames, hplaces.symm.trans hescaped, hescaped⟩

/-! ### Escaping twice -/

theorem fits_cons (d c : Char) (s t : Text) : fits (d :: s) (c :: t) = (d == c && fits s t) := by
  simp [fits, List.isPrefixOf, Bool.and_assoc]

namespace Marking

/-- Inside a word the same names fit before and after escaping. -/
theorem fits_eq (h : Marking symbols (some c) t u) (hc : isPlain c = true)
    (hs : ∀ d ∈ s, isPlain d = true) : fits s u = fits s t := by
  induction s generalizing c t u with
  | nil =>
    cases h with
    | nil => rfl
    | char _ _ => rfl
    | symbol hstart _ _ _ => exact absurd hstart (by simp [startsAfter_of_plain hc])
  | cons d s ih =>
    rw [List.forall_mem_cons] at hs
    cases h with
    | nil => rfl
    | @char _ x t u _ h =>
      rw [fits_cons, fits_cons]
      by_cases hd : d = x
      · rw [ih h (hd ▸ hs.1) hs.2]
      · rw [beq_false_of_ne hd, Bool.false_and, Bool.false_and]
    | symbol hstart _ _ _ => exact absurd hstart (by simp [startsAfter_of_plain hc])

theorem longestFit?_cons (hw : Worded symbols) (h : Marking symbols (some c) t u) :
    longestFit? symbols (c :: u) = longestFit? symbols (c :: t) := by
  have hfits : ∀ s ∈ symbols, fits s (c :: u) = fits s (c :: t) := by
    intro s hs
    obtain ⟨d, r, rfl⟩ := List.exists_cons_of_ne_nil (hw s hs).1
    obtain ⟨hd, hr⟩ := List.forall_mem_cons.1 (hw _ hs).2
    rw [fits_cons, fits_cons]
    by_cases hc : d = c
    · rw [h.fits_eq (hc ▸ hd) hr]
    · rw [beq_false_of_ne hc, Bool.false_and, Bool.false_and]
  rw [longestFit?, longestFit?, List.filter_congr hfits]

/-- A word at which no symbol may start is copied. -/
theorem word (hb : startsAfter b = false) (hne : s ≠ []) (hs : ∀ c ∈ s, isPlain c = true)
    (h : Marking symbols s.getLast? t u) : Marking symbols b (s ++ t) (s ++ u) := by
  have hno : startsAfter b = true → longestFit? symbols (s ++ t) = none := by simp [hb]
  induction s generalizing b with
  | nil => contradiction
  | cons c s ih =>
    rw [List.forall_mem_cons] at hs
    refine .char hno ?_
    cases s with
    | nil => exact h
    | cons d s =>
      have hc := startsAfter_of_plain hs.1
      rw [List.getLast?_cons_cons] at h
      exact ih hc (by simp) hs.2 h (by simp [hc])

/-- What is escaped is left alone the next time. -/
theorem escaped (hw : Worded symbols) (h : Marking symbols b t u) : Marking symbols b u u := by
  induction h with
  | nil => exact .nil
  | char hp h ih => exact .char (fun hb => (h.longestFit?_cons hw).trans (hp hb)) ih
  | @symbol b s t u _ hne hl _ ih =>
    have hplain := (hw s (longestFit?_mem hl).1).2
    -- No name starts with a backslash, and none may start behind one.
    have hback : longestFit? symbols ('\\' :: (s ++ u)) = none := by
      refine longestFit?_eq_none_iff.2 fun x hx => ?_
      obtain ⟨d, r, rfl⟩ := List.exists_cons_of_ne_nil (hw x hx).1
      have hd : d ≠ '\\' := by
        rintro rfl
        exact absurd ((hw _ hx).2 '\\' (by simp)) (by decide)
      simp [fits_cons, hd]
    exact .char (fun _ => hback) (word (by decide) hne hplain ih)

end Marking

theorem escapeSymbols_escapeSymbols (hw : Worded symbols) (t : Text) :
    escapeSymbols symbols (escapeSymbols symbols t) = escapeSymbols symbols t :=
  ((marking_escapeFrom hw.nil_not_mem none t).escaped hw).escapeFrom_eq hw.nil_not_mem

end VariableReport.Formula
