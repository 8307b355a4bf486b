import VariableReport.Listing
import VariableReport.Proofs.Listing.Pieces

/-!
# Entries of a loose list

Entries that the scan leaves as it entered them are found again between the commas of a bracketed
text, whatever brackets, quotes and escapes they hold, with white space around each of them and
with or without a comma behind the last one (`loose?_spaced`). Trimming gives an entry back from its
piece, and the quotes of an entry are kept unless the same one stands at both of its ends.
-/

namespace VariableReport.Listing
open Text

variable {e t w : Text} {o c q : Char}

theorem unquote_eq_self (h : ∀ q k, isQuote q = true → t ≠ q :: (k ++ [q])) : unquote t = t := by
  cases t with
  | nil => rfl
  | cons q rest =>
    refine if_neg fun hq => ?_
    rw [Bool.and_eq_true, decide_eq_true_eq] at hq
    obtain ⟨k, hk⟩ := List.getLast?_eq_some_iff.1 hq.2
    exact h q k hq.1 (congrArg (q :: ·) hk)

theorem unquote_quoted (hq : isQuote q = true) (k : Text) : unquote (q :: (k ++ [q])) = k := by
  simp [unquote, hq]

/-- A text that stands between the commas of a list as it is. -/
structure IsEntry (e : Text) : Prop where
  ne_nil : e ≠ []
  trimmed : IsTrimmed e
  depth : (Scan.after {} e).depth = 0
  quote : (Scan.after {} e).quote = none
  /-- A comma in it stands inside brackets or quotes. -/
  comma : ∀ a b, e = a ++ ',' :: b →
    (Scan.after {} a).depth ≠ 0 ∨ (Scan.after {} a).quote ≠ none
  unquoted : ∀ q, isQuote q = true → ¬(e.head? = some q ∧ e.getLast? = some q)

namespace IsEntry

theorem after (h : IsEntry e) : Scan.after {} e = {} :=
  Scan.after_eq_empty_iff.2 ⟨h.depth, h.quote⟩

theorem undivided (h : IsEntry e) : Undivided [','] {} e := by
  refine undivided_of_open fun a b hab hafter => ?_
  have hcomma := h.comma a b hab
  rw [hafter] at hcomma
  exact hcomma.elim (· rfl) (· rfl)

theorem unquote_eq (h : IsEntry e) : unquote e = e := by
  refine unquote_eq_self fun q k hq hk => h.unquoted q hq ?_
  rw [hk, ← List.cons_append, List.getLast?_concat]
  exact ⟨rfl, rfl⟩

theorem exists_not_blank (h : IsEntry e) : ∃ c ∈ e, isBlank c = false := by
  obtain ⟨c, u, rfl⟩ := List.exists_cons_of_ne_nil h.ne_nil
  exact ⟨c, by simp, h.trimmed.1 c (by simp)⟩

/-- The conditions on an entry position by position, with the scan of what stands before a comma. -/
theorem of_positions (hne : e ≠ []) (htrim : trim e = e) (hafter : Scan.after {} e = {})
    (hcomma : ∀ n < e.length, e[n]? = some ',' → Scan.after {} (e.take n) ≠ {})
    (hquote : ¬(e.head?.any isQuote = true ∧ e.head? = e.getLast?)) : IsEntry e where
  ne_nil := hne
  trimmed := isTrimmed_of_trim_eq htrim
  depth := by rw [hafter]
  quote := by rw [hafter]
  comma a b hab := by
    have hopen : Scan.after {} a ≠ {} := by
      have htake : e.take a.length = a := by simp [hab]
      rw [← htake]
      exact hcomma a.length (by simp [hab]) (by simp [hab])
    rw [ne_eq, Scan.after_eq_empty_iff] at hopen
    exact Decidable.not_and_iff_not_or_not.1 hopen
  unquoted q hq h := hquote ⟨by simpa [h.1] using hq, h.1.trans h.2.symm⟩

end IsEntry

/-- An entry with the white space around it. -/
structure Spaced where
  left : Text
  entry : Text
  right : Text
  left_blank : ∀ c ∈ left, isBlank c = true
  right_blank : ∀ c ∈ right, isBlank c = true
  isEntry : IsEntry entry

namespace Spaced

variable (p : Spaced)

/-- The piece between two commas. -/
def text : Text := p.left ++ (p.entry ++ p.right)

theorem undivided_text : Undivided [','] {} p.text := by
  have hblank {w : Text} (hw : ∀ c ∈ w, isBlank c = true) {s : Scan} : Undivided [','] s w :=
    undivided_of_not_mem fun hm => absurd (hw _ hm) (by decide)
  refine undivided_append.2 ⟨hblank p.left_blank, ?_⟩
  rw [Scan.after_blanks p.left_blank]
  exact undivided_append.2 ⟨p.isEntry.undivided, hblank p.right_blank⟩

theorem after_text : Scan.after {} p.text = {} := by
  rw [text, Scan.after_append, Scan.after_append, Scan.after_blanks p.left_blank, p.isEntry.after,
    Scan.after_blanks p.right_blank]

theorem unquote_trim_text : unquote (trim p.text) = p.entry := by
  rw [text, trim_blanks_append p.left_blank, trim_append_blanks p.isEntry.trimmed p.right_blank,
    p.isEntry.unquote_eq]

end Spaced

/-- What may follow the last entry: nothing, or a comma and white space. -/
inductive Ending : Text → Prop
  | none : Ending []
  | comma {w : Text} : (∀ c ∈ w, isBlank c = true) → Ending (',' :: w)

/-- The brackets of a list. -/
inductive Brackets : Char → Char → Prop
  | square : Brackets '[' ']'
  | round : Brackets '(' ')'

theorem Brackets.body?_eq (h : Brackets o c) (t : Text) :
    body? (trim (o :: (t ++ [c]))) = some t := by
  have hblank : isBlank o = false ∧ isBlank c = false := by cases h <;> decide
  have htrim : IsTrimmed (o :: (t ++ [c])) := by
    constructor
    · simpa using hblank.1
    · rw [← List.cons_append, List.getLast?_concat]
      simpa using hblank.2
  rw [trim_eq_self htrim]
  cases h <;> simp [body?]

/-- With a comma behind the last piece there is one piece more, of white space. -/
theorem exists_pieces_of_ending {ps : List Text} (hne : ps ≠ []) (h : Ending t) :
    ∃ qs, join [','] ps ++ t = join [','] (ps ++ qs) ∧
      (qs = [] ∨ ∃ w, (∀ c ∈ w, isBlank c = true) ∧ qs = [w]) := by
  cases h with
  | none => exact ⟨[], by simp, .inl rfl⟩
  | @comma w hw => exact ⟨[w], (join_concat [','] w hne).symm, .inr ⟨w, hw, rfl⟩⟩

theorem dropEmptyEnd_eq_self {es : List Text} (h : [] ∉ es) : dropEmptyEnd es = es :=
  if_neg fun hlast => h (List.mem_of_getLast? hlast)

theorem dropEmptyEnd_concat (es : List Text) : dropEmptyEnd (es ++ [[]]) = es := by
  simp [dropEmptyEnd]

/-- The entries that were put between brackets are found again, in order, with all that stands in
them. -/
theorem loose?_spaced {ps : List Spaced} (hne : ps ≠ []) (hbrackets : Brackets o c)
    (hend : Ending t) :
    loose? (o :: (join [','] (ps.map Spaced.text) ++ t ++ [c])) = some (ps.map Spaced.entry) := by
  have hps : ps.map Spaced.text ≠ [] := by simpa using hne
  obtain ⟨qs, hjoin, hqs⟩ := exists_pieces_of_ending hps hend
  have hblank : ∀ q ∈ qs, ∀ c ∈ q, isBlank c = true := by
    rcases hqs with rfl | ⟨w, hw, rfl⟩
    · simp
    · simpa using hw
  have hsplit : splitTopLevel [','] (join [','] (ps.map Spaced.text ++ qs)) =
      ps.map Spaced.text ++ qs := by
    refine splitTopLevel_join (by simp [hne]) (by decide) (by decide) (by decide) fun p hp => ?_
    rcases List.mem_append.1 hp with hp | hp
    · obtain ⟨p, -, rfl⟩ := List.mem_map.1 hp
      exact ⟨p.undivided_text, p.after_text⟩
    · exact ⟨undivided_of_not_mem fun hm => absurd (hblank p hp _ hm) (by decide),
        Scan.after_blanks (hblank p hp)⟩
  have hbody : trim (join [','] (ps.map Spaced.text ++ qs)) ≠ [] := by
    obtain ⟨p, hp⟩ := List.exists_mem_of_ne_nil ps hne
    obtain ⟨c, hc, hnot⟩ := p.isEntry.exists_not_blank
    intro hnil
    have hmem : c ∈ join [','] (ps.map Spaced.text ++ qs) :=
      mem_join (List.mem_append_left qs (List.mem_map_of_mem hp)) (by simp [Spaced.text, hc])
    rw [trim_eq_nil_iff.1 hnil c hmem] at hnot
    contradiction
  have hentries : (ps.map Spaced.text).map (fun p => unquote (trim p)) = ps.map Spaced.entry := by
    rw [List.map_map]
    exact List.map_congr_left fun p _ => p.unquote_trim_text
  have hnil : [] ∉ ps.map Spaced.entry := fun hm => by
    obtain ⟨p, -, hp⟩ := List.mem_map.1 hm
    exact p.isEntry.ne_nil hp
  rw [loose?, hjoin, hbrackets.body?_eq, Option.map_some, if_neg (by simpa using hbody), hsplit,
    List.map_append, hentries]
  rcases hqs with rfl | ⟨w, hw, rfl⟩
  · rw [List.map_nil, List.append_nil, dropEmptyEnd_eq_self hnil]
  · have hlast : unquote (trim w) = [] := by rw [trim_eq_nil_iff.2 hw]; rfl
    rw [List.map_singleton, hlast, dropEmptyEnd_concat]

/-- Brackets and commas in quotes, and quotes behind a backslash, stand in their entries. -/
theorem loose?_spaced_nested :
    (∃ ps : List Spaced, ps ≠ [] ∧ ps.map Spaced.entry =
      ["f(b, \x7bc\x7d)".toList, "'x, \\' ]' + z".toList, "[1, 2][0]".toList]) ∧
    Brackets '(' ')' ∧ Ending ", \t".toList ∧
    loose? "( f(b, \x7bc\x7d),'x, \\' ]' + z\n,  [1, 2][0] , \t)".toList =
      some ["f(b, \x7bc\x7d)".toList, "'x, \\' ]' + z".toList, "[1, 2][0]".toList] := by
  have hcall : IsEntry "f(b, \x7bc\x7d)".toList :=
    .of_positions (by decide) (by decide) (by decide) (by decide) (by decide)
  have hsum : IsEntry "'x, \\' ]' + z".toList :=
    .of_positions (by decide) (by decide) (by decide) (by decide) (by decide)
  have hitem : IsEntry "[1, 2][0]".toList :=
    .of_positions (by decide) (by decide) (by decide) (by decide) (by decide)
  have hblank : ∀ c ∈ " ".toList, isBlank c = true := List.all_eq_true.1 (by decide)
  have hblanks : ∀ c ∈ "  ".toList, isBlank c = true := List.all_eq_true.1 (by decide)
  have hfeed : ∀ c ∈ "\n".toList, isBlank c = true := List.all_eq_true.1 (by decide)
  have hnone : ∀ c ∈ ([] : Text), isBlank c = true := List.all_eq_true.1 rfl
  let ps : List Spaced := [⟨_, _, _, hblank, hnone, hcall⟩, ⟨_, _, _, hnone, hfeed, hsum⟩,
    ⟨_, _, _, hblanks, hblank, hitem⟩]
  have hend : Ending ", \t".toList := .comma (List.all_eq_true.1 (by decide))
  have htext : '(' :: (join [','] (ps.map Spaced.text) ++ ", \t".toList ++ [')']) =
      "( f(b, \x7bc\x7d),'x, \\' ]' + z\n,  [1, 2][0] , \t)".toList := rfl
  have hne : ps ≠ [] := List.cons_ne_nil _ _
  rw [← htext]
  exact ⟨⟨ps, hne, rfl⟩, .round, hend, loose?_spaced hne .round hend⟩

end VariableReport.Listing
