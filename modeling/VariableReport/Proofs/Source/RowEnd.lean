import VariableReport.Proofs.Source.Cut
import VariableReport.Proofs.Source.Scan

/-!
# Rows with and without their line feed

The line feed at the end of a row belongs to no lexeme but its own, so the row is lexed alike
without it, and the line feed adds the one token that ends the row (`Scans.rowEnd`). Two rows
are excepted: one that ends with a backslash, which escapes the line feed (`IsRowBody`), and
one with a string that is still open at its end. Each function that reads a lexeme has its own
lemma here.
-/

namespace VariableReport.Source
open Text

/-- Characters of one row, the last of which does not escape the row end. -/
structure IsRowBody (t : Text) : Prop where
  noFeed : '\n' ∉ t
  noReturn : '\r' ∉ t
  last : t.getLast? ≠ some '\\'

variable {t u : Text} {c q : Char} {n : Nat}

theorem IsRowBody.drop (h : IsRowBody t) (n : Nat) : IsRowBody (t.drop n) := by
  refine ⟨fun hm => h.noFeed (List.mem_of_mem_drop hm),
    fun hm => h.noReturn (List.mem_of_mem_drop hm), ?_⟩
  rw [List.getLast?_drop]
  split
  · simp
  · exact h.last

theorem IsRowBody.tail (h : IsRowBody (c :: t)) : IsRowBody t := h.drop 1

theorem takeWhile_rowEnd {p : Char → Bool} (hp : p '\n' = false) (t : Text) :
    (t ++ ['\n']).takeWhile p = t.takeWhile p := by
  induction t with
  | nil => simp [hp]
  | cons c t ih => rw [List.cons_append, List.takeWhile_cons, List.takeWhile_cons, ih]

theorem isPrefixOf_rowEnd (hu : '\n' ∉ u) (t : Text) :
    u.isPrefixOf (t ++ ['\n']) = u.isPrefixOf t := by
  rw [Bool.eq_iff_iff, List.isPrefixOf_iff_prefix, List.isPrefixOf_iff_prefix,
    List.prefix_concat_iff, or_iff_right]
  rintro rfl
  simp at hu

theorem drop_rowEnd (h : n ≤ t.length) : (t ++ ['\n']).drop n = t.drop n ++ ['\n'] :=
  List.drop_append_of_le_length h

/-- What holds no line feed lies before the one at the end. -/
theorem Spans.le_of_rowEnd (h : Spans (t ++ ['\n']) n) : n ≤ t.length := by
  by_contra hn
  have hle := h.le
  rw [List.length_append, List.length_singleton] at hle
  refine h.row ?_
  rw [List.take_of_length_le (by simp; omega)]
  simp

theorem number_rowEnd (t : Text) : number (t ++ ['\n']) = number t :=
  (number_cut (solid_number _).spans.le_of_rowEnd).symm

theorem operator_rowEnd (t : Text) : operator (t ++ ['\n']) = operator t :=
  (operator_cut (solid_operator _).spans.le_of_rowEnd).symm

theorem stringStart?_rowEnd (t : Text) : stringStart? (t ++ ['\n']) = stringStart? t := by
  have hfeed : isQuote '\n' = false := by decide
  rcases t with _ | ⟨a, _ | ⟨b, _ | ⟨c, rest⟩⟩⟩
  · rfl
  · cases ha : isQuote a <;> simp [stringStart?, ha, hfeed]
  · cases ha : isQuote a <;> cases hb : isQuote b <;> simp [stringStart?, ha, hb, hfeed]
  · cases ha : isQuote a <;> cases hb : isQuote b <;> cases hc : isQuote c <;>
      cases rest <;> simp [stringStart?, ha, hb, hc, hfeed]

/-- Behind a character that is no backslash with another one behind it, such a body is none. -/
theorem IsRowBody.ne_backslash (ht : IsRowBody (c :: t))
    (h : ∀ d u, c = '\\' → t = d :: u → False) : c ≠ '\\' := by
  rintro rfl
  cases t with
  | nil => exact ht.last rfl
  | cons d u => exact h d u rfl rfl

theorem stringRest_rowEnd (ht : IsRowBody t) (hq : q ≠ '\n') :
    stringRest q (t ++ ['\n']) = stringRest q t := by
  fun_induction stringRest q t with
  | case1 => simp [stringRest, Ne.symm hq]
  | case2 => exact absurd ht.noFeed (by simp)
  | case3 => exact absurd ht.noFeed (by simp)
  | case4 d cs hd hreturn ih =>
    have hd' : d ≠ '\r' := fun h => ht.noReturn (by simp [h])
    rw [List.cons_append, List.cons_append, stringRest, ih ht.tail.tail]
    · exact fun h => hd h
    · exact fun _ h => absurd h hd'
  | case5 cs _ _ hpair =>
    have hc := ht.ne_backslash hpair
    rw [List.cons_append, stringRest, if_pos rfl] <;> simp [hc]
  | case6 c cs _ _ hpair hne hc =>
    have hc' := ht.ne_backslash hpair
    rw [List.cons_append, stringRest, if_neg hne, if_pos hc] <;> simp [hc']
  | case7 c cs _ _ hpair hne hc ih =>
    have hc' := ht.ne_backslash hpair
    rw [List.cons_append, stringRest, if_neg hne, if_neg hc, ih ht.tail] <;> simp [hc']

theorem tripleRest_rowEnd (ht : IsRowBody t) (hq : q ≠ '\n') (h : tripleRest q t = some n) :
    tripleRest q (t ++ ['\n']) = some n := by
  have hthree : '\n' ∉ [q, q, q] := by simpa using Ne.symm hq
  fun_induction tripleRest q t generalizing n with
  | case1 => contradiction
  | case2 => contradiction
  | case3 d cs hd ih =>
    obtain ⟨k, hk, rfl⟩ := Option.map_eq_some_iff.1 h
    rw [List.cons_append, List.cons_append, tripleRest, if_neg hd, ih ht.tail.tail hk]
    rfl
  | case4 c cs hpair hp =>
    have hc := ht.ne_backslash hpair
    rw [← isPrefixOf_rowEnd hthree] at hp
    rw [List.cons_append] at hp ⊢
    rw [tripleRest, if_pos hp, h]
    simp [hc]
  | case5 => contradiction
  | case6 c cs hpair hp hc ih =>
    obtain ⟨k, hk, rfl⟩ := Option.map_eq_some_iff.1 h
    rw [← isPrefixOf_rowEnd hthree] at hp
    rw [List.cons_append] at hp ⊢
    rw [tripleRest, if_neg hp, if_neg hc, ih ht.tail hk]
    · rfl
    · simp [hc]

theorem word?_rowEnd (t : Text) : lexeme?.word? (t ++ ['\n']) = lexeme?.word? t := by
  simp only [lexeme?.word?, takeWhile_rowEnd (p := Text.isWord) (by decide)]

theorem lexeme?_rowEnd (ht : IsRowBody t) (hne : t ≠ []) : lexeme? (t ++ ['\n']) = lexeme? t := by
  obtain ⟨c, cs, rfl⟩ := List.exists_cons_of_ne_nil hne
  by_cases hc : c = '#'
  · subst hc
    simp only [List.cons_append, lexeme?]
    rw [takeWhile_rowEnd (by decide)]
  have hfeed : c ≠ '\n' := fun h => ht.noFeed (by simp [h])
  have hreturn : c ≠ '\r' := fun h => ht.noReturn (by simp [h])
  have hescape : c = '\\' → ∃ d u, cs = d :: u ∧ d ≠ '\n' ∧ d ≠ '\r' := by
    rintro rfl
    cases cs with
    | nil => exact absurd rfl ht.last
    | cons d u =>
      exact ⟨d, u, rfl, fun h => ht.noFeed (by simp [h]), fun h => ht.noReturn (by simp [h])⟩
  -- Neither text begins with a comment or a row end, so both are compared part by part.
  rw [lexeme?, lexeme?, word?_rowEnd, stringStart?_rowEnd, number_rowEnd, operator_rowEnd]
  · split
    next n q hs =>
      obtain ⟨hn, hq, rest, hd⟩ := stringStart?_eq_some hs
      have hlt : n + 1 ≤ (c :: cs).length := by
        have := congrArg List.length hd
        simp only [List.length_drop, List.length_cons] at this ⊢
        omega
      rw [drop_rowEnd hn.le, isPrefixOf_rowEnd (by simpa using Ne.symm hq), drop_rowEnd hlt,
        stringRest_rowEnd (ht.drop _) hq]
    next => rfl
  all_goals grind

theorem take_rowEnd (h : n ≤ t.length) : (t ++ ['\n']).take n = t.take n :=
  List.take_append_of_le_length h

theorem make_rowEnd {row column : Nat} {kind : TokenKind} (h : n ≤ t.length) :
    stepOf.make row column (t ++ ['\n']) kind n = stepOf.make row column t kind n := by
  rw [stepOf.make, stepOf.make, take_rowEnd h]

theorem wordKind_rowEnd (h : t ≠ []) : wordKind (t ++ ['\n']) = wordKind t := by
  obtain ⟨c, cs, rfl⟩ := List.exists_cons_of_ne_nil h
  rfl

variable {row column skip : Nat} {s s' : LexState} {l : Lexeme} {ts : List Token}

/-- A lexeme makes the same token and leaves the same state, unless it leaves a string open. -/
theorem stepOf_rowEnd (ht : IsRowBody t) (hl : l.Takes t n)
    (hstops : (stepOf row column s t l n).1.stops = false) :
    stepOf row column s (t ++ ['\n']) l n = stepOf row column s t l n := by
  cases l with
  | escapedRowEnd => rfl
  | tripleOpen quote =>
    obtain ⟨hq, hn, hspan⟩ := hl
    simp only [stepOf] at hstops ⊢
    cases hm : tripleRest quote (t.drop n) with
    | none => simp [hm] at hstops
    | some m =>
      have hrest := spans_tripleRest hq (isRow_of_not_mem (ht.drop n).noFeed) hm
      rw [drop_rowEnd hspan.le, tripleRest_rowEnd (ht.drop n) hq hm]
      dsimp only
      rw [make_rowEnd (hspan.add hrest).le]
  | rowEnd => simp only [stepOf, make_rowEnd hl.2]
  | operator => simp only [stepOf, make_rowEnd hl.2.le, take_rowEnd hl.2.le]
  | quotedOpen quote => simp [stepOf] at hstops
  | word =>
    have hne : t ≠ [] := List.ne_nil_of_length_pos (Nat.lt_of_lt_of_le hl.1 hl.2.le)
    simp only [stepOf, make_rowEnd hl.2.le, wordKind_rowEnd hne]
  | _ => simp only [stepOf, make_rowEnd hl.2.le]

theorem dropWhile_rowEnd {p : Char → Bool} (hp : p '\n' = false) (t : Text) :
    (t ++ ['\n']).dropWhile p = t.dropWhile p ++ ['\n'] := by
  induction t with
  | nil => simp [hp]
  | cons c t ih =>
    rw [List.cons_append, List.dropWhile_cons, List.dropWhile_cons, ih]
    split <;> rfl

theorem goesOn_rowEnd (ht : IsRowBody t) : goesOn (t ++ ['\n']) = goesOn t := by
  have hbody : IsRowBody (t.dropWhile isGap) := by
    rw [List.suffix_iff_eq_drop.1 (List.dropWhile_suffix isGap)]
    exact ht.drop _
  rw [goesOn, goesOn, dropWhile_rowEnd (by decide)]
  generalize t.dropWhile isGap = u at hbody
  cases u with
  | nil => rfl
  | cons c u =>
    rw [lexeme?_rowEnd hbody (by simp)]
    rfl

theorem IsStray.rowEnd (h : IsStray c t) (ht : IsRowBody (c :: t)) : IsStray c (t ++ ['\n']) := by
  have hlexeme := lexeme?_rowEnd ht (by simp)
  rw [List.cons_append] at hlexeme
  rwa [IsStray, goesOn_rowEnd ht.tail, hlexeme]

/-- The token that ends a row. -/
def rowEndToken (s : LexState) (row column : Nat) : Token :=
  ⟨if 0 < s.brackets then .rowEnd else .lineEnd, ['\n'], ⟨row, column⟩, ⟨row, column + 1⟩⟩

/-- A line feed at the end of a row makes one more token, if no string is open there. -/
theorem Scans.rowEnd (h : Scans row s column skip t ts s') (ht : IsRowBody t)
    (hskip : skip ≤ t.length) (hend : s'.string = none) :
    Scans row s column skip (t ++ ['\n']) (ts ++ [rowEndToken s' row (column + t.length)]) s' := by
  have hcolumn {column : Nat} {c : Char} {t : Text} :
      column + 1 + t.length = column + (c :: t).length := by
    rw [List.length_cons]
    omega
  induction h with
  | done s column skip =>
    obtain rfl : skip = 0 := Nat.le_zero.1 hskip
    have hgap : isGap '\n' = false := by decide
    exact Scans.lexeme hgap rfl rfl (.done s (column + 1) 0)
  | skip _ ih =>
    rw [← hcolumn]
    exact .skip (ih ht.tail (Nat.le_of_succ_le_succ hskip) hend)
  | gap hgap hon _ ih =>
    rw [← hcolumn]
    exact .gap hgap ((goesOn_rowEnd ht.tail).trans hon) (ih ht.tail (Nat.zero_le _) hend)
  | stray hstray _ ih =>
    rw [← hcolumn]
    exact .stray (hstray.rowEnd ht) (ih ht.tail (Nat.zero_le _) hend)
  | @stop s column n c t l hgap hl hstops =>
    have hout := @stepOutcome_of_lexeme? row column n s t c l ht.noFeed hl
    generalize stepOf row column s (c :: t) l n = r at hout hstops hend
    cases hout with
    | opens _ hstring => exact absurd hend hstring
    | token => contradiction
  | @lexeme s s' column n c t l ts hgap hl hstops _ ih =>
    have hstep := stepOf_rowEnd ht (takes_lexeme? hl) hstops
    have hlexeme := lexeme?_rowEnd ht (by simp)
    have hle : (stepOf row column s (c :: t) l n).2 - 1 ≤ t.length := by
      have hout := @stepOutcome_of_lexeme? row column n s t c l ht.noFeed hl
      generalize stepOf row column s (c :: t) l n = r at hout hstops
      cases hout with
      | opens => contradiction
      | token _ _ _ _ hle => exact Nat.sub_le_of_le_add hle
    have hrest := ih ht.tail hle hend
    rw [hcolumn, ← hstep] at hrest
    rw [← hstep] at hstops ⊢
    rw [hl] at hlexeme
    rw [List.append_assoc]
    exact .lexeme hgap hlexeme hstops hrest

end VariableReport.Source
