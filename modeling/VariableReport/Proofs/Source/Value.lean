import VariableReport.Proofs.Notebook.Expression
import VariableReport.Proofs.Source.Extent
import VariableReport.Proofs.Source.Flow
import VariableReport.Proofs.Source.Reading

/-!
# The value of an assignment, lexed on its own

An assignment is read from the tokens of its cell, and the names in its value are found by lexing
the value as a text of its own. Both see the same tokens of code, in the same order
(`codes_rhs_of_mem_statements`), if no semicolon of the cell stands inside brackets, the value
closes the brackets that it opens, and no token of the statement is stray. The value then is a
piece of one logical line that begins outside brackets, whatever rows, strings over several rows
and comments it goes over.
-/

namespace VariableReport.Source
open Text

/-- The runs of tokens that the statements of a text are read from: its own, or those of the lines
that can be lexed on their own. -/
def tokenRuns (t : Text) : List (List Token) :=
  match maskMagics? t with
  | none => []
  | some masked =>
    match tokens? masked with
    | some ts => [ts]
    | none => (lines masked).filterMap fun line => tokens? (bareLine line)

/-- No semicolon stands inside brackets. -/
def SemicolonsOutside (ts : List Token) : Prop :=
  ∀ before t after, ts = before ++ t :: after → isSemicolon t = true → level (codes before) ≤ 0

/-- The tokens of an assignment behind its equal sign. -/
def valueTokens (s : Statement) : List Token := s.tokens.drop ((valueFrom? s.tokens).getD 0)

instance (ts : List Token) : Decidable (SemicolonsOutside ts) :=
  decidable_of_iff (∀ i < ts.length, ∀ t ∈ ts[i]?, isSemicolon t = true →
    level (codes (ts.take i)) ≤ 0) <| by
    refine ⟨fun h before t after hts ht => ?_, fun h i _ t ht hsemicolon => ?_⟩
    · subst hts
      have := h before.length (by simp) t (by simp) ht
      rwa [List.take_left] at this
    · obtain ⟨hi, rfl⟩ := List.getElem?_eq_some_iff.1 ht
      refine h _ ts[i] (ts.drop (i + 1)) ?_ hsemicolon
      rw [← List.drop_eq_getElem_cons hi, List.take_append_drop]

variable {t u v name rhs : Text} {ts : List Token} {s : Statement} {n : Nat}

/-- A statement is read from one run of tokens, of the masked text or of a piece of it. -/
theorem exists_run_of_mem_statements (hb : ∀ c ∈ t, isLineBreak c = true → c = '\n')
    (hs : s ∈ statements t) : ∃ source n ts, tokens? source = some ts ∧ ts ∈ tokenRuns t ∧
      s ∈ statementsOf source n ts ∧ ∀ c ∈ source, isLineBreak c = true → c = '\n' := by
  unfold statements at hs
  split at hs
  · contradiction
  next masked hm =>
    have hmasked := isLineBreak_of_mem_masked hb hm
    split at hs
    next ts hts =>
      have hruns : tokenRuns t = [ts] := by simp only [tokenRuns, hm, hts]
      exact ⟨masked, 0, ts, hts, hruns ▸ List.mem_singleton_self ts, hs, hmasked⟩
    next hnone =>
      obtain ⟨line, hline, ts, k, hts, hs⟩ := mem_statementsByLine hs
      have hruns : tokenRuns t = (lines masked).filterMap fun line => tokens? (bareLine line) := by
        simp only [tokenRuns, hm, hnone]
      have hpiece := infix_bareLine hmasked hline
      exact ⟨bareLine line, k, ts, hts, hruns ▸ List.mem_filterMap.2 ⟨line, hline, hts⟩, hs,
        fun c hc => hmasked c (hpiece.mem hc)⟩

/-- The ends of logical lines stand outside brackets in every run. -/
theorem SemicolonsOutside.separatesOutside (h : SemicolonsOutside ts) (hts : tokens? t = some ts) :
    SeparatesOutside ts := by
  intro before tok after hsplit hsep
  rw [separates, Bool.or_eq_true] at hsep
  rcases hsep with hend | hsemicolon
  · simpa using (lexes_of_tokens? hts).outside hsplit hend
  · exact h before tok after hsplit hsemicolon

/-- Between the positions in front of a piece and behind it stands the piece. -/
theorem segment_advance (hb : ∀ c ∈ t ++ (u ++ v), isLineBreak c = true → c = '\n') :
    segment (t ++ (u ++ v)) ((⟨1, 0⟩ : Position).advance t)
      (((⟨1, 0⟩ : Position).advance t).advance u) = u := by
  obtain ⟨hstart, hstop⟩ := offset_piece t u v hb
  rw [segment, hstart, hstop, List.length_append]
  have hslice := @slice_append t u v 0 u.length (Nat.zero_le _) (Nat.le_refl _)
  rw [Nat.add_zero] at hslice
  rw [hslice, slice, List.drop_zero, Nat.sub_zero, List.take_length]

/-- The value of an assignment has a first token, and the right-hand side reaches from there to the
end of the statement. -/
theorem value_of_assignment? (h : assignment? s = some (name, rhs)) : ∃ front first rest last,
    s.tokens = front ++ first :: rest ∧ valueTokens s = first :: rest ∧ level (codes front) ≤ 0 ∧
      s.tokens.getLast? = some last ∧ rhs = trim (s.segment first.start last.stop) := by
  unfold assignment? at h
  split at h
  · contradiction
  simp only [Option.bind_eq_bind, Option.bind_eq_some_iff] at h
  obtain ⟨target, -, i, hi, first, hfirst, last, hlast, h⟩ := h
  split at h
  · contradiction
  obtain ⟨-, rfl⟩ := Prod.mk.inj (Option.some.inj h)
  obtain ⟨hlt, hget⟩ := List.getElem?_eq_some_iff.1 hfirst
  have hdrop : s.tokens.drop i = first :: s.tokens.drop (i + 1) := by
    rw [List.drop_eq_getElem_cons hlt, hget]
  refine ⟨s.tokens.take i, first, s.tokens.drop (i + 1), last, ?_, ?_, ?_, hlast, rfl⟩
  · rw [← hdrop, List.take_append_drop]
  · rw [valueTokens, hi, Option.getD_some, hdrop]
  · exact level_take_valueFrom? hi

/-- From one token of code in a logical line to another one the text has the same tokens of code on
its own, if it begins outside brackets and closes the brackets that it opens. -/
theorem tokens?_of_piece {before rest inside after : List Token} {first last : Token}
    (hts : tokens? t = some (before ++ first :: rest))
    (hrest : first :: rest = inside ++ last :: after)
    (hfirst : isCode first = true ∧ first.kind ≠ .stray)
    (hlast : isCode last = true ∧ last.kind ≠ .stray)
    (hinside : ∀ tok ∈ inside, tok.kind ≠ .stray ∧ endsLine tok = false)
    (hlevel : level (codes before) ≤ 0) (hclosed : level (codes inside ++ [last.shape]) = 0) :
    ∃ x u v, t = x ++ (u ++ v) ∧ (⟨1, 0⟩ : Position).advance x = first.start ∧
      last.stop = first.start.advance u ∧ IsTrimmed u ∧
      ∃ us, tokens? u = some us ∧ codes us = codes inside ++ [last.shape] := by
  obtain ⟨x, u, rfl, hstart, hline, hpass, -⟩ :=
    (lexes_of_tokens? hts).exists_at rfl hfirst.1 hfirst.2
  obtain ⟨w, v, rfl, hstop, htrim, hlastText, hflows⟩ :=
    hline.flows hrest rfl hinside hlast.1 hlast.2
  have hne : w ++ last.text ≠ [] := by simp [hlastText]
  have hhead : ∀ c ∈ (w ++ last.text).head?, isBlank c = false ∧ c ≠ '#' := by
    intro c hc
    exact hpass.head c (by rwa [List.head?_append_of_ne_nil _ hne])
  have htrim : IsTrimmed (w ++ last.text) :=
    htrim.append (fun c hc => (hhead c hc).1) hlastText
  have hcut := hflows.cut (d := -(0 + level (codes before))) (by omega)
  rw [Int.add_right_neg] at hcut
  refine ⟨x, w ++ last.text, v, rfl, hstart, hstop, htrim, ?_⟩
  exact tokens?_of_flows hcut hclosed htrim (fun hc => (hhead _ hc).2 rfl) hne

/-- The right-hand side of an assignment has the tokens of code that the statement has behind its
equal sign. -/
theorem codes_rhs_of_mem_statementsOf (hb : ∀ c ∈ t, isLineBreak c = true → c = '\n')
    (hts : tokens? t = some ts) (houtside : SeparatesOutside ts) (hs : s ∈ statementsOf t n ts)
    (h : assignment? s = some (name, rhs)) (hstray : ∀ tok ∈ s.tokens, tok.kind ≠ .stray)
    (hclosed : level ((valueTokens s).map Token.shape) = 0) :
    ∃ us, tokens? rhs = some us ∧ codes us = (valueTokens s).map Token.shape := by
  have hextent := extent_of_mem_statementsOf houtside hs
  obtain ⟨front, first, rest, last, hsplit, hvalue, hfront, hlast, rfl⟩ := value_of_assignment? h
  obtain ⟨before, line, inner, after, rfl, hline, hlevel, hshapes, hinner⟩ :=
    hextent.split hsplit hlast
  rw [hvalue, hshapes] at hclosed ⊢
  have hcode : ∀ tok ∈ s.tokens, isCode tok = true ∧ tok.kind ≠ .stray :=
    fun tok htok => ⟨hextent.isCode tok htok, hstray tok htok⟩
  have hquiet : ∀ tok ∈ inner, tok.kind ≠ .stray ∧ endsLine tok = false := by
    intro tok htok
    refine ⟨fun hk => ?_, (hinner tok htok).1⟩
    exact hstray tok ((hinner tok htok).2 (by simp [isCode, Token.isLayout, hk])) hk
  obtain ⟨x, u, v, rfl, hstart, hstop, htrim, hread⟩ :=
    tokens?_of_piece hts hline (hcode first (by simp [hsplit]))
      (hcode last (List.mem_of_getLast? hlast)) hquiet (Int.le_trans hlevel hfront) hclosed
  rw [Statement.segment, source_of_mem_statementsOf hs, hstop, ← hstart, segment_advance hb,
    trim_eq_self htrim]
  exact hread

/-- Extraction and substitution see the same code in the value of an assignment. -/
theorem codes_rhs_of_mem_statements (hb : ∀ c ∈ t, isLineBreak c = true → c = '\n')
    (houtside : ∀ ts ∈ tokenRuns t, SemicolonsOutside ts) (hs : s ∈ statements t)
    (h : assignment? s = some (name, rhs)) (hstray : ∀ tok ∈ s.tokens, tok.kind ≠ .stray)
    (hclosed : level ((valueTokens s).map Token.shape) = 0) :
    ∃ us, tokens? rhs = some us ∧ codes us = (valueTokens s).map Token.shape := by
  obtain ⟨source, n, ts, hts, hrun, hs, hbreak⟩ := exists_run_of_mem_statements hb hs
  have houtside := (houtside ts hrun).separatesOutside hts
  exact codes_rhs_of_mem_statementsOf hbreak hts houtside hs h hstray hclosed

/-- A value behind a semicolon, with a comment and a string on two rows inside brackets. -/
def wrappedSource : Text :=
  "w = 1; v = f(x, # y\n  \x27\x27\x27p\n)\x27\x27\x27) + \\\n  c # z\n".toList

def wrappedValue : Text := "f(x, # y\n  \x27\x27\x27p\n)\x27\x27\x27) + \\\n  c".toList

theorem codes_rhs_wrapped : ∃ s ∈ statements wrappedSource,
    assignment? s = some ("v".toList, wrappedValue) ∧
      ∃ us, tokens? wrappedValue = some us ∧ codes us =
        [(.name, "f".toList), (.operator, "(".toList), (.name, "x".toList),
          (.operator, ",".toList), (.string, "\x27\x27\x27p\n)\x27\x27\x27".toList),
          (.operator, ")".toList), (.operator, "+".toList), (.name, "c".toList)] := by
  have hall : wrappedSource.all (fun c => !isLineBreak c || c = '\n') = true := by decide +kernel
  have hb : ∀ c ∈ wrappedSource, isLineBreak c = true → c = '\n' := by
    simpa [imp_iff_not_or] using hall
  have houtside : ∀ ts ∈ tokenRuns wrappedSource, SemicolonsOutside ts := by decide +kernel
  obtain ⟨s, hs, h, hstray, hclosed, hvalue⟩ : ∃ s ∈ statements wrappedSource,
      assignment? s = some ("v".toList, wrappedValue) ∧
      (∀ tok ∈ s.tokens, tok.kind ≠ .stray) ∧ level ((valueTokens s).map Token.shape) = 0 ∧
      (valueTokens s).map Token.shape =
        [(.name, "f".toList), (.operator, "(".toList), (.name, "x".toList),
          (.operator, ",".toList), (.string, "\x27\x27\x27p\n)\x27\x27\x27".toList),
          (.operator, ")".toList), (.operator, "+".toList), (.name, "c".toList)] := by
    decide +kernel
  have hlexed := codes_rhs_of_mem_statements hb houtside hs h hstray hclosed
  exact ⟨s, hs, h, hvalue ▸ hlexed⟩

end VariableReport.Source
