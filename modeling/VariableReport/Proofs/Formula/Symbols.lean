import VariableReport.Proofs.Formula.Escape
import Mathlib.Data.List.TakeWhile

/-!
# Escaping whole words

Where all symbols are made of ASCII letters and digits, a symbol stands at a place exactly when
it is the whole ASCII word there and no other word character follows it
(`longestFit?_eq_some_iff`), and escaping is a relation that speaks of words (`Escaping`). An
escaped text has no symbol left to escape (`Escaping.settled`), and a text is left alone exactly
when it is settled.
-/

namespace VariableReport.Formula
open Text

/-- The ASCII letters and digits at the start of a text. -/
def wordOf (t : Text) : Text := t.takeWhile isAsciiWord

/-- What follows the ASCII word at the start of a text. -/
def afterWord (t : Text) : Text := t.dropWhile isAsciiWord

/-- All names are ASCII words. -/
def Lettered (symbols : List Text) : Prop :=
  ∀ s ∈ symbols, s ≠ [] ∧ ∀ c ∈ s, isAsciiWord c = true

theorem Lettered.nil_not_mem {symbols : List Text} (hs : Lettered symbols) : [] ∉ symbols :=
  fun h => (hs [] h).1 rfl

theorem commonSymbols_lettered : Lettered commonSymbols := by
  have hall : ∀ s ∈ commonSymbols, s ≠ [] ∧ s.all isAsciiWord = true := by decide +kernel
  intro s hs
  exact ⟨(hall s hs).1, List.all_eq_true.1 (hall s hs).2⟩

/-- Two texts start with one ASCII word, and in both or in neither other word characters
follow it. -/
def SameStart (t u : Text) : Prop :=
  wordOf u = wordOf t ∧ endsBefore (afterWord u) = endsBefore (afterWord t)

theorem wordOf_append_afterWord (t : Text) : wordOf t ++ afterWord t = t :=
  List.takeWhile_append_dropWhile

theorem wordOf_cons_of_word {c : Char} (hc : isAsciiWord c = true) (t : Text) :
    wordOf (c :: t) = c :: wordOf t ∧ afterWord (c :: t) = afterWord t := by
  simp [wordOf, afterWord, hc]

theorem wordOf_cons_of_not_word {c : Char} (hc : isAsciiWord c = false) (t : Text) :
    wordOf (c :: t) = [] ∧ afterWord (c :: t) = c :: t := by
  simp [wordOf, afterWord, hc]

/-- A word before a character of another kind is the whole word. -/
theorem wordOf_append {s t : Text} (hs : ∀ c ∈ s, isAsciiWord c = true)
    (ht : ∀ c ∈ t.head?, isAsciiWord c = false) :
    wordOf (s ++ t) = s ∧ afterWord (s ++ t) = t := by
  have h1 : (s ++ t).takeWhile isAsciiWord = s ++ t.takeWhile isAsciiWord :=
    List.takeWhile_append_of_pos hs
  have h2 : (s ++ t).dropWhile isAsciiWord = t.dropWhile isAsciiWord :=
    List.dropWhile_append_of_pos hs
  cases t with
  | nil => simp_all [wordOf, afterWord]
  | cons c t =>
    have hc : isAsciiWord c = false := ht c (by simp)
    simp_all [wordOf, afterWord]

theorem SameStart.cons {t u : Text} (h : SameStart t u) (c : Char) :
    SameStart (c :: t) (c :: u) := by
  by_cases hc : isAsciiWord c = true
  · unfold SameStart
    rw [(wordOf_cons_of_word hc t).1, (wordOf_cons_of_word hc u).1, (wordOf_cons_of_word hc t).2,
      (wordOf_cons_of_word hc u).2, h.1]
    exact ⟨rfl, h.2⟩
  · have hc : isAsciiWord c = false := by simpa using hc
    unfold SameStart
    simp [wordOf_cons_of_not_word hc, endsBefore]

theorem SameStart.of_not_word {c : Char} (hc : isAsciiWord c = false) (t u : Text) :
    SameStart (c :: t) (c :: u) := by
  unfold SameStart
  simp [wordOf_cons_of_not_word hc, endsBefore]

theorem isAsciiWord_of_not_isWord {c : Char} (h : isWord c = false) : isAsciiWord c = false := by
  by_contra hc
  rw [isWord_of_isAsciiWord (by simpa using hc)] at h
  contradiction

/-- A character that belongs to no word does not change how the text before it starts. -/
theorem SameStart.append {d : Char} (hd : isWord d = false) (t v : Text) :
    SameStart t (t ++ d :: v) := by
  induction t with
  | nil =>
    have hda := isAsciiWord_of_not_isWord hd
    unfold SameStart
    simp [wordOf, afterWord, endsBefore, hda, hd]
  | cons c t ih => exact ih.cons c

theorem isAsciiWord_of_endsBefore {t : Text} (h : endsBefore t = true) :
    ∀ c ∈ t.head?, isAsciiWord c = false := by
  cases t with
  | nil => simp
  | cons c t =>
    intro d hd
    obtain rfl : c = d := by simpa using hd
    exact isAsciiWord_of_not_isWord (by simpa [endsBefore] using h)

theorem startsAfter_of_word {c : Char} (hc : isAsciiWord c = true) :
    startsAfter (some c) = false := by
  have hw := isWord_of_isAsciiWord hc
  have hu : c ≠ '_' := by rintro rfl; simp [isAsciiWord, isAsciiLetter, isAsciiDigit] at hc
  simp [startsAfter, hw, hu]

/-- A symbol stands at the start of the text. -/
def Hits (symbols : List Text) (t : Text) : Prop :=
  wordOf t ∈ symbols ∧ endsBefore (afterWord t) = true

variable {symbols : List Text} {s t u v w : Text} {b : Option Char}

theorem SameStart.hits_iff (h : SameStart t u) : Hits symbols u ↔ Hits symbols t := by
  unfold Hits
  rw [h.1, h.2]

theorem not_hits_of_not_word (hs : Lettered symbols) {c : Char} (hc : isAsciiWord c = false) :
    ¬Hits symbols (c :: t) := by
  intro h
  have := (hs _ h.1).1
  rw [(wordOf_cons_of_not_word hc t).1] at this
  exact this rfl

theorem fits_iff (hs : Lettered symbols) (h : s ∈ symbols) :
    fits s t = true ↔ wordOf t = s ∧ endsBefore (afterWord t) = true := by
  constructor
  · intro hf
    simp only [fits, Bool.and_eq_true, List.isPrefixOf_iff_prefix] at hf
    obtain ⟨⟨r, rfl⟩, hr⟩ := hf
    rw [List.drop_left] at hr
    obtain ⟨hw, ha⟩ := wordOf_append (hs s h).2 (isAsciiWord_of_endsBefore hr)
    exact ⟨hw, by rwa [ha]⟩
  · rintro ⟨rfl, he⟩
    have hp : wordOf t <+: t := ⟨afterWord t, wordOf_append_afterWord t⟩
    have hd : (wordOf t ++ afterWord t).drop (wordOf t).length = afterWord t := List.drop_left
    rw [wordOf_append_afterWord] at hd
    simp [fits, List.isPrefixOf_iff_prefix, hp, hd, he]

theorem longestFit?_eq_some_iff (hs : Lettered symbols) :
    longestFit? symbols t = some s ↔ Hits symbols t ∧ s = wordOf t := by
  constructor
  · intro h
    obtain ⟨hm, hf⟩ := longestFit?_mem h
    obtain ⟨rfl, he⟩ := (fits_iff hs hm).1 hf
    exact ⟨⟨hm, he⟩, rfl⟩
  · rintro ⟨⟨hm, he⟩, rfl⟩
    cases hl : longestFit? symbols t with
    | none =>
      have := longestFit?_eq_none_iff.1 hl _ hm
      rw [(fits_iff hs hm).2 ⟨rfl, he⟩] at this
      contradiction
    | some x =>
      obtain ⟨hx, hf⟩ := longestFit?_mem hl
      rw [((fits_iff hs hx).1 hf).1]

theorem longestFit?_eq_none_iff_not_hits (hs : Lettered symbols) :
    longestFit? symbols t = none ↔ ¬Hits symbols t := by
  constructor
  · intro h hh
    have := (longestFit?_eq_some_iff hs).2 ⟨hh, rfl⟩
    rw [h] at this
    contradiction
  · intro h
    cases hl : longestFit? symbols t with
    | none => rfl
    | some x => exact absurd ((longestFit?_eq_some_iff hs).1 hl).1 h

/-- A text and its form with a backslash before every symbol, after the character `b`. -/
inductive Escaping (symbols : List Text) : Option Char → Text → Text → Prop
  | nil {b : Option Char} : Escaping symbols b [] []
  | plain {b : Option Char} {c : Char} {t u : Text} :
      (startsAfter b = true → ¬Hits symbols (c :: t)) → Escaping symbols (some c) t u →
      Escaping symbols b (c :: t) (c :: u)
  | symbol {b : Option Char} {s t u : Text} : startsAfter b = true → s ∈ symbols →
      endsBefore t = true → Escaping symbols s.getLast? t u →
      Escaping symbols b (s ++ t) ('\\' :: (s ++ u))

/-- No symbol stands anywhere in the text where one may start. -/
def Settled (symbols : List Text) : Option Char → Text → Prop
  | _, [] => True
  | b, c :: t =>
    (startsAfter b = true → ¬Hits symbols (c :: t)) ∧ Settled symbols (some c) t

theorem settled_cons_of_not_word (hs : Lettered symbols) {c : Char} (hc : isAsciiWord c = false) :
    Settled symbols b (c :: t) ↔ Settled symbols (some c) t :=
  and_iff_right fun _ => not_hits_of_not_word hs hc

/-- Where the text starts with no word, the character before it has no influence. -/
theorem settled_congr (hs : Lettered symbols) (ht : ∀ c ∈ t.head?, isAsciiWord c = false)
    (b b' : Option Char) : Settled symbols b t ↔ Settled symbols b' t := by
  cases t with
  | nil => rfl
  | cons c t =>
    have hc := ht c (by simp)
    rw [settled_cons_of_not_word hs hc, settled_cons_of_not_word hs hc]

/-- A word at which no symbol may start is settled as far as what follows it is. -/
theorem settled_append_word (hb : startsAfter b = false) (hne : s ≠ [])
    (hs : ∀ c ∈ s, isAsciiWord c = true) :
    Settled symbols b (s ++ u) ↔ Settled symbols s.getLast? u := by
  induction s generalizing b with
  | nil => contradiction
  | cons c s ih =>
    rw [List.cons_append, Settled, and_iff_right (by simp [hb])]
    cases s with
    | nil => rfl
    | cons d s =>
      have hc := startsAfter_of_word (hs c (by simp))
      rw [List.getLast?_cons_cons, ih hc (by simp) fun x hx => hs x (by simp_all)]

/-- A word at which a symbol may start must not be one. -/
theorem settled_word_iff (hb : startsAfter b = true) (hne : s ≠ [])
    (hs : ∀ c ∈ s, isAsciiWord c = true) :
    Settled symbols b (s ++ u) ↔ ¬Hits symbols (s ++ u) ∧ Settled symbols s.getLast? u := by
  obtain ⟨c, s, rfl⟩ := List.exists_cons_of_ne_nil hne
  rw [List.cons_append, Settled, ← List.cons_append]
  refine and_congr (by simp [hb]) ?_
  cases s with
  | nil => rfl
  | cons d s =>
    have hc := startsAfter_of_word (hs c (by simp))
    rw [List.getLast?_cons_cons, settled_append_word hc (by simp) fun x hx => hs x (by simp_all)]

/-- With names that are words, the longest symbol that fits is the word itself. -/
theorem Marking.escaping (hs : Lettered symbols) (h : Marking symbols b t u) :
    Escaping symbols b t u := by
  induction h with
  | nil => exact .nil
  | char hp _ ih => exact .plain (fun hb => (longestFit?_eq_none_iff_not_hits hs).1 (hp hb)) ih
  | @symbol b s t u hb _ hl _ ih =>
    obtain ⟨hm, hf⟩ := longestFit?_mem hl
    obtain ⟨hw, he⟩ := (fits_iff hs hm).1 hf
    have ha : afterWord (s ++ t) = t := by
      have happend := wordOf_append_afterWord (s ++ t)
      rwa [hw, List.append_right_inj] at happend
    exact .symbol hb hm (ha ▸ he) ih

theorem escaping_escapeFrom (hs : Lettered symbols) (b : Option Char) (t : Text) :
    Escaping symbols b t (escapeFrom symbols b 0 t) :=
  (marking_escapeFrom hs.nil_not_mem b t).escaping hs

theorem escaping_escapeSymbols (hs : Lettered symbols) (t : Text) :
    Escaping symbols none t (escapeSymbols symbols t) := escaping_escapeFrom hs none t

namespace Escaping

theorem marking (hs : Lettered symbols) (h : Escaping symbols b t u) : Marking symbols b t u := by
  induction h with
  | nil => exact .nil
  | plain hp _ ih => exact .char (fun hb => (longestFit?_eq_none_iff_not_hits hs).2 (hp hb)) ih
  | @symbol b s t u hb hm ht _ ih =>
    obtain ⟨hw, ha⟩ := wordOf_append (hs s hm).2 (isAsciiWord_of_endsBefore ht)
    refine .symbol hb (hs s hm).1 ((longestFit?_eq_some_iff hs).2 ⟨?_, hw.symm⟩) ih
    exact ⟨by rwa [hw], by rwa [ha]⟩

theorem escapeFrom_eq (hs : Lettered symbols) (h : Escaping symbols b t u) :
    escapeFrom symbols b 0 t = u := (h.marking hs).escapeFrom_eq hs.nil_not_mem

/-- Where no symbol may start, the text keeps its word. -/
theorem sameStart (h : Escaping symbols b t u) (hb : startsAfter b = false) : SameStart t u := by
  induction h with
  | nil => exact ⟨rfl, rfl⟩
  | @plain b c t u _ _ ih =>
    by_cases hc : isAsciiWord c = true
    · exact (ih (startsAfter_of_word hc)).cons c
    · exact .of_not_word (by simpa using hc) t u
  | symbol h' => simp_all

theorem sameStart_cons {c : Char} (h : Escaping symbols (some c) t u) :
    SameStart (c :: t) (c :: u) := by
  by_cases hc : isAsciiWord c = true
  · exact (h.sameStart (startsAfter_of_word hc)).cons c
  · exact .of_not_word (by simpa using hc) t u

/-- No symbol is left to escape in an escaped text. -/
theorem settled (hs : Lettered symbols) (h : Escaping symbols b t u) : Settled symbols b u := by
  induction h with
  | nil => trivial
  | plain hp h ih => exact ⟨fun hb hh => hp hb (h.sameStart_cons.hits_iff.1 hh), ih⟩
  | @symbol b s t u _ hm _ _ ih =>
    refine ⟨fun _ => not_hits_of_not_word hs (by decide), ?_⟩
    exact (settled_append_word (by simp [startsAfter]) (hs s hm).1 (hs s hm).2).2 ih

end Escaping

theorem settled_escapeSymbols (hs : Lettered symbols) (t : Text) :
    Settled symbols none (escapeSymbols symbols t) := (escaping_escapeSymbols hs t).settled hs

/-- A text is left alone exactly when it is settled. -/
theorem escapeSymbols_eq_self_iff (hs : Lettered symbols) :
    escapeSymbols symbols t = t ↔ Settled symbols none t := by
  constructor
  · intro h
    have := settled_escapeSymbols hs t
    rwa [h] at this
  · intro h
    apply Escaping.escapeFrom_eq hs
    revert h
    generalize (none : Option Char) = b
    induction t generalizing b with
    | nil => exact fun _ => .nil
    | cons c t ih => exact fun h => .plain h.1 (ih _ h.2)

end VariableReport.Formula
