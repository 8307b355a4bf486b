import VariableReport.Formula.Symbols
import VariableReport.Proofs.Text.Insertion
import VariableReport.Proofs.Text.Occurrence

/-!
# Escaping as a relation

Escaping is executed by one pass with a counter of characters still to be copied. Here it is a
relation between a text and its escaped form, which takes one character or the longest symbol that
fits at a time (`Marking`), and the pass computes this relation for all names but the empty one
(`marking_escapeFrom`, `Marking.escapeFrom_eq`). Escaping only puts backslashes in, and it is local
at every character that belongs to no word and stands in no name, whatever else the names are made
of.
-/

namespace VariableReport.Formula
open Text

variable {symbols : List Text} {s t u v w : Text} {b b' : Option Char} {c d : Char}

/-! ### The longest symbol -/

theorem foldl_longer_mem {l : List Text} : ∀ {best : Option Text} {s : Text},
    l.foldl longer best = some s → best = some s ∨ s ∈ l := by
  induction l with
  | nil => exact fun h => .inl h
  | cons x l ih =>
    intro best s h
    rw [List.foldl_cons] at h
    rcases ih h with hb | hm
    · unfold longer at hb
      split at hb
      · simp_all
      · split at hb <;> simp_all
    · exact .inr (by simp [hm])

theorem longer_isSome (best : Option Text) (x : Text) : (longer best x).isSome = true := by
  unfold longer
  split
  · rfl
  · split <;> rfl

theorem foldl_longer_isSome {l : List Text} : ∀ {best : Option Text}, best.isSome = true →
    (l.foldl longer best).isSome = true := by
  induction l with
  | nil => exact fun h => h
  | cons x l ih => exact fun _ => ih (longer_isSome _ x)

theorem longestFit?_mem (h : longestFit? symbols t = some s) : s ∈ symbols ∧ fits s t = true := by
  rcases foldl_longer_mem h with hb | hm
  · contradiction
  · simpa using hm

theorem longestFit?_eq_none_iff :
    longestFit? symbols t = none ↔ ∀ s ∈ symbols, fits s t = false := by
  unfold longestFit?
  cases hl : symbols.filter (fits · t) with
  | nil => simpa [List.filter_eq_nil_iff] using hl
  | cons x l =>
    have hsome : ((x :: l).foldl longer none).isSome = true :=
      @foldl_longer_isSome l (longer none x) (longer_isSome none x)
    have hx : x ∈ symbols.filter (fits · t) := by simp [hl]
    rw [List.mem_filter] at hx
    constructor
    · intro hn
      rw [hn] at hsome
      contradiction
    · intro hn
      have := hn x hx.1
      simp_all

theorem longestFit?_nil (hne : [] ∉ symbols) : longestFit? symbols [] = none := by
  refine longestFit?_eq_none_iff.2 fun s hs => ?_
  cases s with
  | nil => exact absurd hs hne
  | cons c s => rfl

/-- A symbol fits at a place in the text that it covers. -/
theorem exists_of_longestFit? (hne : [] ∉ symbols) (h : longestFit? symbols t = some s) :
    ∃ rest, t = s ++ rest ∧ s ≠ [] := by
  obtain ⟨hm, hf⟩ := longestFit?_mem h
  rw [fits, Bool.and_eq_true, List.isPrefixOf_iff_prefix] at hf
  obtain ⟨rest, rfl⟩ := hf.1
  exact ⟨rest, rfl, fun hnil => hne (hnil ▸ hm)⟩

/-- What stands behind a character that belongs to no word has no influence on the names that do
not hold this character. -/
theorem fits_append_cons (hd : isWord d = false) (hs : d ∉ s) (t v : Text) :
    fits s (t ++ d :: v) = fits s t := by
  have hends (r : Text) : endsBefore (r ++ d :: v) = endsBefore r := by
    cases r with
    | nil => simp [endsBefore, hd]
    | cons c r => rfl
  have hprefix : s.isPrefixOf (t ++ d :: v) = s.isPrefixOf t := by
    rw [Bool.eq_iff_iff, List.isPrefixOf_iff_prefix, List.isPrefixOf_iff_prefix,
      prefix_append_cons_iff hs]
  rw [fits, fits, hprefix]
  cases hp : s.isPrefixOf t with
  | false => rfl
  | true =>
    obtain ⟨r, rfl⟩ := List.isPrefixOf_iff_prefix.1 hp
    rw [List.append_assoc, List.drop_left, List.drop_left, hends]

theorem longestFit?_append_cons (hd : isWord d = false) (hs : ∀ s ∈ symbols, d ∉ s) (t v : Text) :
    longestFit? symbols (t ++ d :: v) = longestFit? symbols t := by
  unfold longestFit?
  rw [List.filter_congr fun s hm => fits_append_cons hd (hs s hm) t v]

/-! ### The relation -/

/-- A text and its form with a backslash before every symbol, after the character `b`. Where a
symbol may start, the longest one that fits is taken as a whole. -/
inductive Marking (symbols : List Text) : Option Char → Text → Text → Prop
  | nil {b : Option Char} : Marking symbols b [] []
  | char {b : Option Char} {c : Char} {t u : Text} :
      (startsAfter b = true → longestFit? symbols (c :: t) = none) →
      Marking symbols (some c) t u → Marking symbols b (c :: t) (c :: u)
  | symbol {b : Option Char} {s t u : Text} : startsAfter b = true → s ≠ [] →
      longestFit? symbols (s ++ t) = some s → Marking symbols s.getLast? t u →
      Marking symbols b (s ++ t) ('\\' :: (s ++ u))

theorem escapeFrom_copy (c : Char) (r t : Text) :
    escapeFrom symbols (some c) r.length (r ++ t) =
      r ++ escapeFrom symbols (c :: r).getLast? 0 t := by
  induction r generalizing c with
  | nil => rfl
  | cons d r ih => simp [escapeFrom, ih d, List.getLast?_cons_cons]

theorem escapeFrom_nil (hne : [] ∉ symbols) (b : Option Char) : escapeFrom symbols b 0 [] = [] := by
  simp [escapeFrom, longestFit?_nil hne]

theorem escapeFrom_char (h : startsAfter b = true → longestFit? symbols (c :: t) = none) :
    escapeFrom symbols b 0 (c :: t) = c :: escapeFrom symbols (some c) 0 t := by
  have hn : (if startsAfter b then longestFit? symbols (c :: t) else none) = none := by
    split
    next hb => exact h hb
    next => rfl
  simp [escapeFrom, hn]

theorem escapeFrom_symbol (hb : startsAfter b = true) (hne : s ≠ [])
    (hl : longestFit? symbols (s ++ t) = some s) :
    escapeFrom symbols b 0 (s ++ t) = '\\' :: (s ++ escapeFrom symbols s.getLast? 0 t) := by
  obtain ⟨c, r, rfl⟩ := List.exists_cons_of_ne_nil hne
  rw [List.cons_append] at hl ⊢
  simp [escapeFrom, hb, hl, escapeFrom_copy]

theorem marking_escapeFrom (hne : [] ∉ symbols) (b : Option Char) (t : Text) :
    Marking symbols b t (escapeFrom symbols b 0 t) := by
  induction hn : t.length using Nat.strongRecOn generalizing t b with
  | ind n ih =>
    cases t with
    | nil =>
      rw [escapeFrom_nil hne]
      exact .nil
    | cons c t =>
      by_cases hh : startsAfter b = true ∧ longestFit? symbols (c :: t) ≠ none
      · obtain ⟨hb, hl⟩ := hh
        obtain ⟨s, hl⟩ := Option.ne_none_iff_exists'.1 hl
        obtain ⟨rest, hrest, hs⟩ := exists_of_longestFit? hne hl
        have hlen := congrArg List.length hrest
        have hpos := List.length_pos_iff.2 hs
        rw [List.length_append] at hlen
        rw [hrest] at hl ⊢
        rw [escapeFrom_symbol hb hs hl]
        exact .symbol hb hs hl (ih rest.length (by omega) _ _ rfl)
      · have hp : startsAfter b = true → longestFit? symbols (c :: t) = none := fun hb =>
          not_not.1 fun hl => hh ⟨hb, hl⟩
        rw [List.length_cons] at hn
        rw [escapeFrom_char hp]
        exact .char hp (ih t.length (by omega) _ _ rfl)

namespace Marking

theorem escapeFrom_eq (hne : [] ∉ symbols) (h : Marking symbols b t u) :
    escapeFrom symbols b 0 t = u := by
  induction h with
  | nil => exact escapeFrom_nil hne _
  | char hp _ ih => rw [escapeFrom_char hp, ih]
  | symbol hb hs hl _ ih => rw [escapeFrom_symbol hb hs hl, ih]

theorem inserted (h : Marking symbols b t u) : Inserted (fun c => c = '\\') t u := by
  induction h with
  | nil => exact .nil
  | char _ _ ih => exact .keep ih
  | @symbol _ s _ _ _ _ _ _ ih => exact .add rfl ((Inserted.refl s).append ih)

/-- Only whether a symbol may start after it is seen of the character before. -/
theorem congr (hb : startsAfter b' = startsAfter b) (h : Marking symbols b t u) :
    Marking symbols b' t u := by
  cases h with
  | nil => exact .nil
  | char hp h => exact .char (fun h' => hp (hb ▸ h')) h
  | symbol h' hs hl h => exact .symbol (hb ▸ h') hs hl h

/-- A character that belongs to no word, is no backslash and stands in no name keeps two escaped
texts apart. -/
theorem append_cons (hne : [] ∉ symbols) (hs : ∀ s ∈ symbols, d ∉ s) (hd : isWord d = false)
    (hd' : d ≠ '\\') (h : Marking symbols b t u) (k : Marking symbols none v w) :
    Marking symbols b (t ++ d :: v) (u ++ d :: w) := by
  have hfit (t : Text) := longestFit?_append_cons hd hs t v
  induction h with
  | nil =>
    have hb : startsAfter (some d) = startsAfter none := by simp [startsAfter, hd, hd']
    exact .char (fun _ => (hfit []).trans (longestFit?_nil hne)) (k.congr hb)
  | @char b c t u hp _ ih => exact .char (fun hb => (hfit (c :: t)).trans (hp hb)) ih
  | @symbol b s t u hb hn hl _ ih =>
    have hl' : longestFit? symbols (s ++ (t ++ d :: v)) = some s := by
      rw [← List.append_assoc, hfit, hl]
    simpa using Marking.symbol hb hn hl' ih

end Marking

theorem inserted_escapeSymbols (hne : [] ∉ symbols) (t : Text) :
    Inserted (fun c => c = '\\') t (escapeSymbols symbols t) :=
  (marking_escapeFrom hne none t).inserted

theorem splitsAt_escapeSymbols (hne : [] ∉ symbols) (hs : ∀ s ∈ symbols, d ∉ s)
    (hd : isWord d = false) (hd' : d ≠ '\\') : SplitsAt (escapeSymbols symbols) d := fun a b =>
  ((marking_escapeFrom hne none a).append_cons hne hs hd hd'
    (marking_escapeFrom hne none b)).escapeFrom_eq hne

end VariableReport.Formula
