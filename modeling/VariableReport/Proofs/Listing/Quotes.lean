import VariableReport.Proofs.Listing.Entries
import Mathlib.Data.List.Forall2

/-!
# Quotes around the pieces of a loose list

Whether the quotes at the two ends of a piece belong together is told by the scan of the whole
piece: the first one opens a quote that the last one closes, and no character in between
(`Quoted`). Unquoting looks at the two ends alone. An entry is its piece, or the text between the
quotes of a quoted piece, exactly when a piece with one quote at both ends is such a quoted piece
(`loose?_shown`).
-/

namespace VariableReport.Listing
open Text

variable {p e t k : Text} {q : Char}

/-- The quote opened in front of the text is open up to the text's end, and closed behind it. -/
structure Quoted (q : Char) (k : Text) : Prop where
  isQuote : isQuote q = true
  stays_open : ∀ a, a <+: k → (Scan.after {} (q :: a)).quote = some q
  closed : (Scan.after {} (q :: (k ++ [q]))).quote = none

/-- A piece is shown by the text between its quotes when it is quoted, and by itself otherwise. -/
inductive Shown : Text → Text → Prop
  | quoted {q : Char} {k : Text} : Quoted q k → Shown (q :: (k ++ [q])) k
  | plain {p : Text} : (∀ q k, Quoted q k → p ≠ q :: (k ++ [q])) → Shown p p

/-- The quotes at the ends of the piece belong together, if one and the same stands at both. -/
def EndsMatch (p : Text) : Prop := ∀ q k, isQuote q = true → p = q :: (k ++ [q]) → Quoted q k

/-- The pieces of a list's body, without the white space around them. -/
def pieces (body : Text) : List Text := (splitTopLevel [','] body).map trim

/-- The pieces that become entries: all of them, or all but an empty one at the end. -/
def Lists (t : Text) (ps : List Text) : Prop :=
  ∃ body rest, body? (trim t) = some body ∧ pieces body = ps ++ rest ∧
    rest.length ≤ 1 ∧ ∀ p ∈ rest, unquote p = []

theorem shown_quoted_iff : Shown (q :: (k ++ [q])) k ↔ Quoted q k := by
  refine ⟨fun h => ?_, .quoted⟩
  generalize hp : q :: (k ++ [q]) = p at h
  cases h with
  | quoted h =>
    obtain ⟨rfl, hk⟩ := List.cons.inj hp
    rwa [List.append_cancel_right hk]
  | plain =>
    have hlength : k.length + 1 + 1 = k.length := by simpa using congrArg List.length hp
    omega

/-- Unquoting shows a piece when the quotes at its ends belong together, and only then. -/
theorem shown_unquote_iff : Shown p (unquote p) ↔ EndsMatch p := by
  constructor
  · rintro h q k hq rfl
    rwa [unquote_quoted hq, shown_quoted_iff] at h
  · intro h
    by_cases hends : ∃ q k, isQuote q = true ∧ p = q :: (k ++ [q])
    · obtain ⟨q, k, hq, rfl⟩ := hends
      rw [unquote_quoted hq]
      exact .quoted (h q k hq rfl)
    · have hself : unquote p = p := unquote_eq_self fun q k hq hp => hends ⟨q, k, hq, hp⟩
      rw [hself]
      exact .plain fun q k hk hp => hends ⟨q, k, hk.isQuote, hp⟩

/-- At the end of a list one entry may be dropped, an empty one. -/
theorem exists_dropEmptyEnd (es : List Text) : ∃ rest,
    es = dropEmptyEnd es ++ rest ∧ rest.length ≤ 1 ∧ ∀ e ∈ rest, e = [] := by
  by_cases hlast : es.getLast? = some []
  · obtain ⟨init, rfl⟩ := List.getLast?_eq_some_iff.1 hlast
    exact ⟨[[]], by rw [dropEmptyEnd_concat], by simp, by simp⟩
  · exact ⟨[], by rw [dropEmptyEnd, if_neg hlast, List.append_nil], by simp, by simp⟩

theorem pieces_of_blank {body : Text} (h : trim body = []) : pieces body = [[]] := by
  have hundivided : Undivided [','] {} body :=
    undivided_of_not_mem fun hm => absurd (trim_eq_nil_iff.1 h _ hm) (by decide)
  rw [pieces, splitTopLevel, splitFrom_of_undivided hundivided, List.map_singleton, h]

/-- The entries of a list are its pieces unquoted, up to an empty one at the end. -/
theorem exists_lists_of_loose? {entries : List Text} (h : loose? t = some entries) :
    ∃ ps, Lists t ps ∧ entries = ps.map unquote := by
  obtain ⟨body, hbody, hentries⟩ := Option.map_eq_some_iff.1 h
  by_cases hblank : trim body = []
  · rw [hblank] at hentries
    exact ⟨[], ⟨body, [[]], hbody, pieces_of_blank hblank, by simp, by simp [unquote]⟩,
      hentries.symm⟩
  · have hmap : (splitTopLevel [','] body).map (fun p => unquote (trim p)) =
        (pieces body).map unquote := by
      rw [pieces, List.map_map]
      rfl
    obtain ⟨rest, happend, hrest, hnil⟩ := exists_dropEmptyEnd ((pieces body).map unquote)
    rw [if_neg (by simpa using hblank), hmap] at hentries
    rw [hentries] at happend
    obtain ⟨ps, ls, hps, rfl, rfl⟩ := List.map_eq_append_iff.1 happend
    exact ⟨ps, ⟨body, ls, hbody, hps, by simpa using hrest, by simpa using hnil⟩, rfl⟩

/-- Each entry shows its piece exactly when the quotes at the ends of the piece belong together. -/
theorem loose?_shown {entries : List Text} (h : loose? t = some entries) :
    ∃ ps, Lists t ps ∧ List.Forall₂ (fun p e => Shown p e ↔ EndsMatch p) ps entries := by
  obtain ⟨ps, hlists, rfl⟩ := exists_lists_of_loose? h
  refine ⟨ps, hlists, ?_⟩
  rw [List.forall₂_map_right_iff, List.forall₂_same]
  exact fun p _ => shown_unquote_iff

theorem loose?_shown_escaped :
    loose? "[ 'it\\'s' , \x22a\x22 + b ]".toList =
      some ["it\\'s".toList, "\x22a\x22 + b".toList] ∧
    ∃ ps, Lists "[ 'it\\'s' , \x22a\x22 + b ]".toList ps ∧
      List.Forall₂ (fun p e => Shown p e ↔ EndsMatch p) ps
        ["it\\'s".toList, "\x22a\x22 + b".toList] :=
  ⟨by decide, loose?_shown (by decide)⟩

/-- A sum of two strings loses the quotes at its ends, which do not belong together. -/
theorem loose?_unquotes_sum :
    loose? "['a' + 'b', x]".toList = some ["a' + 'b".toList, "x".toList] ∧
    body? (trim "['a' + 'b', x]".toList) = some "'a' + 'b', x".toList ∧
    pieces "'a' + 'b', x".toList = ["'a' + 'b'".toList, "x".toList] ∧
    ¬Shown "'a' + 'b'".toList "a' + 'b".toList := by
  have hclosed : (Scan.after {} "'a'".toList).quote ≠ some '\x27' := by decide
  refine ⟨by decide, by decide, by decide, fun h => hclosed ?_⟩
  have hquoted : Quoted '\x27' "a' + 'b".toList := shown_quoted_iff.1 h
  exact hquoted.stays_open "a'".toList (by decide)

end VariableReport.Listing
