import VariableReport.Proofs.Source.Partition

/-!
# Comments behind a semicolon

A comment takes the rest of its row up to a carriage return or a line feed, so behind it the row
ends, unless a carriage return stands there that belongs to no line feed. A logical line of several
rows begins with code, so a comment in front of which it holds semicolons and nothing else is
followed by no code on it (`settled_of_tokens?`), again but for such a carriage return. What is
carried from row to row is said in `Ready`. With it the comments that belong to no statement are
known, and the statements of a text account for all its other tokens (`statementsOf_divides`).
-/

namespace VariableReport.Source
open Text

/-- Behind a comment of a line that holds semicolons and nothing else in front of it, the line holds
no code, or a carriage return is the next token. -/
def Settles (before after : List Token) : Prop :=
  hasPart before = false → hasSemicolon before = true →
    (∀ t ∈ after.takeWhile fun t => !endsLine t, isPart t = false) ∨
      ∃ t rest, after = t :: rest ∧ t.kind = .stray ∧ t.text = ['\r']

/-- Every comment of the tokens behind `before` settles its line. -/
def Settled (before ts : List Token) : Prop :=
  ∀ front c back, ts = front ++ c :: back → c.kind = .comment → Settles (before ++ front) back

/-- What is known between two rows: brackets are open only on a line that holds code, and a row
that begins a logical line comes after semicolons only if it comes after code. -/
structure Ready (s : LexState) (before : List Token) : Prop where
  brackets : 0 < s.brackets → hasPart before = true
  start : s.atLineStart = true → hasSemicolon before = true → hasPart before = true

variable {before ts us : List Token} {t : Text} {tok : Token} {s s' : LexState}
  {row column n : Nat} {c : Char} {l : Lexeme} {last : Text}

theorem Settled.cons (htok : tok.kind = .comment → Settles before ts)
    (h : Settled (before ++ [tok]) ts) : Settled before (tok :: ts) := by
  intro front c back hsplit hc
  rcases cons_eq_split hsplit with ⟨front, rfl, hts⟩ | ⟨rfl, rfl, rfl⟩
  · simpa using h front c back hts hc
  · simpa using htok hc

theorem settled_of_quiet (h : ∀ t ∈ ts, isPart t = false) : Settled before ts := by
  intro front c back hsplit _ _ _
  refine .inl fun t ht => h t ?_
  rw [hsplit]
  simp [(List.takeWhile_prefix _).subset ht]

theorem hasPart_append_part (hpart : isPart tok = true) : hasPart (before ++ [tok]) = true := by
  rw [hasPart_concat (endsLine_of_isPart hpart), hpart, Bool.or_true]

theorem ready_of_hasPart (h : hasPart before = true) : Ready s before := ⟨fun _ => h, fun _ _ => h⟩

/-- At a carriage return or a line feed a row ends, or nothing is read. -/
theorem eq_rowEnd_of_lexeme? (hc : c = '\r' ∨ c = '\n') (h : lexeme? (c :: t) = some (l, n)) :
    l = .rowEnd := by
  have hblank : isBlank c = true := by rcases hc with rfl | rfl <;> decide
  have hbegins := begins_lexeme? (c :: t)
  rw [h] at hbegins
  generalize hr : some (l, n) = r at hbegins
  generalize hu : c :: t = u at hbegins
  cases hbegins with
  | feed => exact (Prod.mk.inj (Option.some.inj hr)).1
  | returnFeed => exact (Prod.mk.inj (Option.some.inj hr)).1
  | plain =>
    have hhead := (plainLexeme_of_eq_some hr.symm).head c (by rw [← hu]; rfl)
    rw [hblank] at hhead
    contradiction
  | nothing => contradiction
  | comment | escaped | escapedReturn =>
    obtain ⟨rfl, -⟩ := List.cons.inj hu
    simp at hc

/-- Behind a comment nothing is left of the row, or a carriage return or line feed comes next. -/
theorem comment_rest (h : lexeme? t = some (.comment, n)) :
    ∀ c ∈ (t.drop n).head?, c = '\r' ∨ c = '\n' := by
  have hbegins := begins_lexeme? t
  rw [h] at hbegins
  generalize hr : some (Lexeme.comment, n) = r at hbegins
  cases hbegins with
  | comment t =>
    obtain ⟨-, rfl⟩ := Prod.mk.inj (Option.some.inj hr)
    intro c hc
    rw [List.drop_succ_cons, ← dropWhile_eq_drop] at hc
    have hstop := List.head?_dropWhile_not (fun c => c ≠ '\r' && c ≠ '\n') t
    rw [Option.mem_def.1 hc] at hstop
    by_contra hne
    rw [not_or] at hne
    simp [hne] at hstop
  | plain =>
    cases plainLexeme_of_eq_some hr.symm with
    | solid hl => simp at hl
  | _ => simp at hr

/-- Behind some characters within the row the row still ends as it did. -/
theorem getLast?_drop (h : Spans t n) (hlast : t.getLast? = some '\n') :
    (t.drop n).getLast? = some '\n' := by
  rw [← List.take_append_drop n t, List.getLast?_append] at hlast
  cases hdrop : (t.drop n).getLast? with
  | some d => rwa [hdrop, Option.some_or] at hlast
  | none =>
    rw [hdrop, Option.none_or] at hlast
    exact absurd (List.mem_of_getLast? hlast) h.row

/-- Either no statement comes behind the row, or one has begun, or the row ends with a line
feed. -/
def Closing (before us : List Token) (t : Text) : Prop :=
  (∀ tok ∈ us, isPart tok = false) ∨ hasPart before = true ∨ t.getLast? = some '\n'

theorem Closing.next {before' : List Token} {t' : Text} (h : Closing before us t)
    (hpart : hasPart before = true → hasPart before' = true)
    (hrow : t.getLast? = some '\n' → hasPart before' = true ∨ t'.getLast? = some '\n') :
    Closing before' us t' := by
  rcases h with h | h | h
  · exact .inl h
  · exact .inr (.inl (hpart h))
  · exact .inr (hrow h)

theorem hasPart_concat_of_hasPart (htok : endsLine tok = false) (h : hasPart before = true) :
    hasPart (before ++ [tok]) = true := by
  rw [hasPart_concat htok, h, Bool.true_or]

/-- Behind a comment the row ends or a carriage return is stray. -/
theorem settles_scans (h : Scans row s column 0 t ts s')
    (hopen : 0 < s.brackets → hasPart before = true)
    (hhead : ∀ c ∈ t.head?, c = '\r' ∨ c = '\n') (hend : Closing before us t) :
    Settles before (ts ++ us) := by
  intro hno _
  have hrowEnd {c : Char} (hc : c = '\r' ∨ c = '\n') : isGap c = false := by
    rcases hc with rfl | rfl <;> decide
  cases h with
  | done =>
    rcases hend with hend | hend | hend
    · exact .inl fun t ht => hend t ((List.takeWhile_prefix _).subset ht)
    · rw [hno] at hend
      cases hend
    · cases hend
  | @gap _ _ _ c _ _ hgap =>
    rw [hrowEnd (hhead c rfl)] at hgap
    cases hgap
  | @stray _ _ _ c t ts hstray =>
    refine .inr ⟨_, ts ++ us, rfl, rfl, ?_⟩
    rcases hhead c rfl with rfl | rfl
    · rfl
    · simp [IsStray, isGap, lexeme?] at hstray
  | @stop _ _ n c t l _ hl hstops =>
    obtain rfl := eq_rowEnd_of_lexeme? (hhead c rfl) hl
    simp [stepOf] at hstops
  | @lexeme _ _ _ n c t l ts _ hl =>
    obtain rfl := eq_rowEnd_of_lexeme? (hhead c rfl) hl
    have hbrackets : ¬0 < s.brackets := fun hpos => by
      rw [hopen hpos] at hno
      contradiction
    left
    simp [stepOf, stepOf.make, hbrackets, endsLine]

/-- A lexeme within a row leaves no part open that it does not make: brackets are opened only by
code. -/
theorem hasPart_of_change {kind : TokenKind} {t : Text} {stop : Position} {start : Position}
    (hkind : kind = .name ∨ kind = .number ∨ kind = .string ∨ kind = .operator)
    (hopen : 0 < s.brackets → hasPart before = true) (h : 0 < s.brackets + change kind t) :
    hasPart (before ++ [⟨kind, t, start, stop⟩]) = true := by
  have hend : endsLine ⟨kind, t, start, stop⟩ = false := by
    rcases hkind with rfl | rfl | rfl | rfl <;> rfl
  cases hpart : isPart ⟨kind, t, start, stop⟩ with
  | true => exact hasPart_append_part hpart
  | false =>
    refine hasPart_concat_of_hasPart hend (hopen ?_)
    have hsemicolon : isSemicolon ⟨kind, t, start, stop⟩ = true := by
      rcases hkind with rfl | rfl | rfl | rfl <;>
        simpa [isPart, isCode, Token.isLayout] using hpart
    have hzero := change_of_separates (separates_of_isSemicolon hsemicolon)
    rwa [hzero, Int.add_zero] at h

/-- A lexeme that leaves a string open makes no token. -/
theorem stepOf_stops (h : (stepOf row column s t l n).1.stops = true) :
    (stepOf row column s t l n).1.token = none ∧
      (stepOf row column s t l n).1.state.brackets = s.brackets ∧
      (stepOf row column s t l n).1.state.string ≠ none := by
  cases l with
  | tripleOpen q =>
    cases hrest : tripleRest q (t.drop n) with
    | some m => simp [stepOf, hrest] at h
    | none => simp [stepOf, hrest]
  | quotedOpen q => simp [stepOf]
  | _ => simp [stepOf] at h

/-- At the end of a row the comments below are looked at. -/
theorem settled_rowEnd (hl : lexeme? t = some (l, n)) (hend : l = .rowEnd ∨ l = .escapedRowEnd)
    (hrow : IsRow t) (hopen : 0 < s.brackets → hasPart before = true)
    (hrest : Scans row (stepOf row column s t l n).1.state (column + (stepOf row column s t l n).2) 0
      (t.drop (stepOf row column s t l n).2) ts s')
    (hnext : Ready s' (before ++ ((stepOf row column s t l n).1.token.toList ++ ts)) →
      Settled (before ++ ((stepOf row column s t l n).1.token.toList ++ ts)) us) :
    Settled before ((stepOf row column s t l n).1.token.toList ++ ts ++ us) := by
  obtain ⟨hlen, -⟩ := length_rowEnd hl hend hrow
  rcases hend with rfl | rfl
  · simp only [stepOf, hlen, List.drop_length] at hrest
    obtain ⟨rfl, hs'⟩ := hrest.of_nil
    rw [hs'] at hnext
    simp only [stepOf, Option.toList_some, List.append_nil, List.singleton_append] at hnext ⊢
    by_cases hb : 0 < s.brackets
    · rw [if_pos hb] at hnext ⊢
      refine .cons (by simp [stepOf.make]) (hnext (ready_of_hasPart ?_))
      exact hasPart_concat_of_hasPart rfl (hopen hb)
    · rw [if_neg hb] at hnext ⊢
      refine .cons (by simp [stepOf.make]) (hnext ⟨fun h => absurd h hb, fun _ h => ?_⟩)
      rw [hasSemicolon_concat_of_endsLine rfl] at h
      contradiction
  · simp only [stepOf, hlen, List.drop_length] at hrest
    obtain ⟨rfl, hs'⟩ := hrest.of_nil
    rw [hs'] at hnext
    simp only [stepOf, Option.toList_none, List.append_nil, List.nil_append] at hnext ⊢
    exact hnext ⟨hopen, fun hstart => by simp [LexState.atLineStart] at hstart⟩

/-- The comments of the rest of a row settle their line, if those below do. -/
theorem settled_scans (hrow : IsRow t) (h : Scans row s column 0 t ts s')
    (hopen : 0 < s.brackets → hasPart before = true) (hend : Closing before us t)
    (hnext : Ready s' (before ++ ts) → Settled (before ++ ts) us) : Settled before (ts ++ us) := by
  induction hn : t.length using Nat.strong_induction_on generalizing t s column before ts with
  | _ N ih =>
    -- One token, behind which the row goes on.
    have htoken {tok : Token} {k : Nat} {s₁ : LexState} {ts : List Token}
        (hspan : Spans t k) (hk : 0 < k) (hline : endsLine tok = false)
        (htok : tok.kind = .comment → Settles before (ts ++ us))
        (hopen : 0 < s₁.brackets → hasPart (before ++ [tok]) = true)
        (h : Scans row s₁ (column + k) 0 (t.drop k) ts s')
        (hnext : Ready s' (before ++ tok :: ts) → Settled (before ++ tok :: ts) us) :
        Settled before (tok :: (ts ++ us)) := by
      refine .cons htok ?_
      have hlt : (t.drop k).length < N := by
        have := hspan.le
        rw [List.length_drop]
        omega
      refine ih _ hlt (hrow.drop k) h hopen ?_ ?_ rfl
      · exact hend.next (hasPart_concat_of_hasPart hline) fun hlast => .inr (getLast?_drop hspan hlast)
      · rwa [List.append_assoc, List.singleton_append]
    cases h with
    | done =>
      rw [List.append_nil] at hnext
      rcases hend with hend | hend | hend
      · exact settled_of_quiet hend
      · exact hnext (ready_of_hasPart hend)
      · contradiction
    | @gap _ _ _ c t ts hgap _ hrest =>
      have hc : c ≠ '\n' := by
        rintro rfl
        contradiction
      have hspan : Spans (c :: t) 1 := .cons hc (.zero t)
      refine ih t.length (by rw [← hn]; exact Nat.lt_succ_self _) hrow.tail hrest hopen ?_ hnext rfl
      exact hend.next id fun hlast => .inr (getLast?_drop hspan hlast)
    | @stray _ _ _ c t ts hstray hrest =>
      have hc : c ≠ '\n' := by
        rintro rfl
        simp [IsStray, isGap, lexeme?] at hstray
      have hpart : isPart (strayAt row column c) = true := rfl
      exact htoken (.cons hc (.zero t)) Nat.one_pos rfl (fun hk => by simp [strayAt] at hk)
        (fun _ => hasPart_append_part hpart) hrest hnext
    | @stop _ _ n c t l _ hl hstops =>
      obtain ⟨hnone, hbrackets, hstring⟩ := stepOf_stops hstops
      rw [hnone] at hnext ⊢
      rw [Option.toList_none, List.append_nil] at hnext
      refine hnext ⟨by rwa [hbrackets], fun hstart => ?_⟩
      simp only [LexState.atLineStart, Bool.and_eq_true, Option.isNone_iff_eq_none] at hstart
      exact absurd hstart.1.1 hstring
    | @lexeme _ _ _ n c t l ts _ hl hstops hrest =>
      have hmakes := makes_stepOf hrow hl hstops
      replace hrest := hrest.rest (c := c) hmakes.pos
      clear hstops
      generalize stepOf row column s (c :: t) l n = r at hmakes hrest hnext ⊢
      cases hmakes with
      | token hk hpos hspan =>
        refine htoken hspan hpos ?_ ?_ (hasPart_of_change (kind_of_tokenKind? hk) hopen) hrest hnext
        · rcases kind_of_tokenKind? hk with rfl | rfl | rfl | rfl <;> rfl
        · rcases kind_of_tokenKind? hk with rfl | rfl | rfl | rfl <;> simp [stepOf.make]
      | string _ hpos hspan =>
        exact htoken hspan hpos rfl (by simp [stepOf.make]) (fun _ => hasPart_append_part rfl)
          hrest hnext
      | comment hpos hspan =>
        have hclosing : Closing before us ((c :: t).drop n) :=
          hend.next id fun hlast => .inr (getLast?_drop hspan hlast)
        refine htoken hspan hpos rfl (fun _ => ?_) ?_ hrest hnext
        · exact settles_scans hrest hopen (comment_rest hl) hclosing
        · exact fun hb => hasPart_concat_of_hasPart rfl (hopen hb)
      | rowEnd hends _ => exact settled_rowEnd hl hends hrow hopen hrest hnext

/-- Tokens that end no line and are no semicolons leave what has begun on the line. -/
theorem hasPart_append_of_hasPart (hts : ∀ t ∈ ts, endsLine t = false)
    (h : hasPart before = true) : hasPart (before ++ ts) = true := by
  have hline : ¬ts.any endsLine = true := by simpa using hts
  rw [hasPart, openLine_append, if_neg hline, List.any_append]
  rw [hasPart] at h
  rw [h, Bool.true_or]

theorem hasSemicolon_append (hts : ∀ t ∈ ts, endsLine t = false ∧ isSemicolon t = false) :
    hasSemicolon (before ++ ts) = hasSemicolon before := by
  have hline : ¬ts.any endsLine = true := by simpa using fun t ht => (hts t ht).1
  have hsemicolons : ts.any isSemicolon = false := by simpa using fun t ht => (hts t ht).2
  rw [hasSemicolon, openLine_append, if_neg hline, List.any_append, hsemicolons, Bool.or_false]
  rfl

/-- A string or what is left of one begins a statement. -/
theorem settled_stringRow {o : OpenString} (hrow : IsRow t) (hready : Ready s before)
    (hnext : Ready (stringRow row s o t).2 (before ++ (stringRow row s o t).1) →
      Settled (before ++ (stringRow row s o t).1) us) :
    Settled before ((stringRow row s o t).1 ++ us) := by
  simp only [stringRow] at hnext ⊢
  generalize (if o.triple then tripleRest o.quote t else continuedRest o.quote t) = rest at hnext ⊢
  cases rest with
  | some n =>
    have hpart : hasPart (before ++ [⟨.string, o.text ++ t.take n, o.start, ⟨row, n⟩⟩]) = true :=
      hasPart_append_part rfl
    refine .cons (by simp) (settled_scans (hrow.drop n) scans_scanRow (fun _ => hpart)
      (.inr (.inl hpart)) ?_)
    simpa using hnext
  | none =>
    dsimp only at hnext ⊢
    split at hnext
    next hgoes =>
      rw [if_pos hgoes]
      rw [List.append_nil] at hnext
      exact hnext ⟨hready.brackets, fun hstart => by simp [LexState.atLineStart] at hstart⟩
    next hgoes =>
      rw [if_neg hgoes]
      exact .cons (by simp) (hnext (ready_of_hasPart (hasPart_append_part rfl)))

/-- Behind no semicolon or behind code any comment settles its line, and so do those after tokens
that are neither. -/
theorem settled_append {e : List Token}
    (hbefore : hasSemicolon before = true → hasPart before = true)
    (he : ∀ tok ∈ e, endsLine tok = false ∧ isSemicolon tok = false)
    (h : Settled (before ++ e) ts) : Settled before (e ++ ts) := by
  induction e generalizing before with
  | nil => rwa [List.append_nil] at h
  | cons tok e ih =>
    rw [List.forall_mem_cons] at he
    refine .cons (fun _ hno hsemicolon => ?_) (ih (fun hsemicolon => ?_) he.2 (by simpa using h))
    · rw [hbefore hsemicolon] at hno
      contradiction
    · rw [hasSemicolon_concat he.1.1, he.1.2, Bool.or_false] at hsemicolon
      exact hasPart_concat_of_hasPart he.1.1 (hbefore hsemicolon)

/-- A row without code leaves what has begun on its line. -/
theorem settled_blankRow (hready : Ready s before) (hstart : s.atLineStart = true)
    (hnext : Ready s (before ++ blankRow row column t) → Settled (before ++ blankRow row column t) us) :
    Settled before (blankRow row column t ++ us) := by
  have hquiet : ∀ tok ∈ blankRow row column t, endsLine tok = false ∧ isSemicolon tok = false := by
    intro tok htok
    simp only [blankRow, List.mem_append, List.mem_singleton, List.mem_ite_nil_left] at htok
    rcases htok with ⟨-, rfl⟩ | rfl <;> simp [endsLine, isSemicolon, Token.isOperator]
  refine settled_append (hready.start hstart) hquiet (hnext ⟨fun h => ?_, fun _ h => ?_⟩)
  · rw [LexState.brackets_eq_zero hstart] at h
    exact absurd h (Int.lt_irrefl 0)
  · rw [hasSemicolon_append hquiet] at h
    exact hasPart_append_of_hasPart (fun tok htok => (hquiet tok htok).1) (hready.start hstart h)

/-- The tokens of blocks in front of a row make no difference. -/
theorem settled_blocks {e : List Token} (hrow : IsRow t) (h : Scans row s column 0 t ts s')
    (he : ∀ tok ∈ e, tok.kind = .indent ∨ tok.kind = .dedent) (hzero : s.brackets = 0)
    (hbefore : hasSemicolon before = true → hasPart before = true)
    (hend : Closing before us t) (hnext : Ready s' (before ++ (e ++ ts)) →
      Settled (before ++ (e ++ ts)) us) : Settled before (e ++ ts ++ us) := by
  have hquiet : ∀ tok ∈ e, endsLine tok = false ∧ isSemicolon tok = false := by
    intro tok htok
    rcases he tok htok with h | h <;> simp [endsLine, isSemicolon, Token.isOperator, h]
  rw [List.append_assoc]
  refine settled_append hbefore hquiet (settled_scans hrow h (fun hb => ?_) ?_ ?_)
  · rw [hzero] at hb
    exact absurd hb (Int.lt_irrefl 0)
  · exact hend.next (hasPart_append_of_hasPart fun tok htok => (hquiet tok htok).1) .inr
  · rwa [List.append_assoc]

theorem settled_startRow (hrow : IsRow t) (hready : Ready s before) (hstart : s.atLineStart = true)
    (h : startRow row s t = some (ts, s')) (hend : Closing before us t)
    (hnext : Ready s' (before ++ ts) → Settled (before ++ ts) us) : Settled before (ts ++ us) := by
  have hzero := LexState.brackets_eq_zero hstart
  have hsuffix := List.dropWhile_suffix isGap (l := t)
  simp only [startRow] at h
  split at h
  next hnil =>
    obtain ⟨rfl, rfl⟩ := Prod.mk.inj (Option.some.inj h)
    rw [List.append_nil] at hnext
    exact hnext hready
  next c cs hcs =>
    have hbody : IsRow (t.dropWhile isGap) ∧ Closing before us (t.dropWhile isGap) := by
      obtain ⟨gap, hgap⟩ := hsuffix
      have hne : t.dropWhile isGap ≠ [] := by simp [hcs]
      have hlast := List.getLast?_append_of_ne_nil gap hne
      rw [hgap] at hlast
      refine ⟨?_, hend.next id fun h => .inr (hlast ▸ h)⟩
      have hdrop := congrArg (List.drop gap.length) hgap
      rw [List.drop_left] at hdrop
      exact hdrop ▸ hrow.drop gap.length
    split at h
    next =>
      obtain ⟨rfl, rfl⟩ := Prod.mk.inj (Option.some.inj h)
      exact settled_blankRow hready hstart hnext
    next =>
      split at h
      next =>
        obtain ⟨rfl, rfl⟩ := Prod.mk.inj (Option.some.inj h)
        exact @settled_blocks before _ us _ _ _ row _ [_] hbody.1 scans_scanRow (by simp) hzero
          (hready.start hstart) hbody.2 hnext
      next =>
        obtain ⟨⟨count, blocks⟩, -, h⟩ := Option.bind_eq_some_iff.1 h
        obtain ⟨rfl, rfl⟩ := Prod.mk.inj (Option.some.inj h)
        exact settled_blocks hbody.1 scans_scanRow
          (fun tok htok => by simp [List.eq_of_mem_replicate htok]) hzero (hready.start hstart)
          hbody.2 hnext

theorem settled_lexRow (hrow : IsRow t) (hready : Ready s before)
    (h : lexRow row s t = some (ts, s')) (hend : Closing before us t)
    (hnext : Ready s' (before ++ ts) → Settled (before ++ ts) us) : Settled before (ts ++ us) := by
  unfold lexRow at h
  split at h
  next o ho =>
    obtain ⟨rfl, rfl⟩ := Prod.mk.inj (Option.some.inj h)
    exact settled_stringRow hrow hready hnext
  next =>
    split at h
    next hstart => exact settled_startRow hrow hready hstart h hend hnext
    next =>
      have hscan := @scans_scanRow row 0 0 { s with continued := false } t
      rw [Option.some.inj h] at hscan
      exact settled_scans hrow hscan hready.brackets hend hnext

theorem isPart_finish : ∀ tok ∈ finish row s last, isPart tok = false := by
  intro tok htok
  rw [isPart, isCode_finish tok htok, Bool.false_and]

theorem isPart_of_lexRows_nil (h : lexRows row s last [] = some ts) :
    ∀ tok ∈ ts, isPart tok = false := by
  rw [lexRows] at h
  split at h
  · rw [← Option.some.inj h]
    exact isPart_finish
  · contradiction

/-- The comments of rows settle their lines. -/
theorem settled_lexRows {rows : List Text} (hrows : AreRows rows) (hready : Ready s before)
    (h : lexRows row s last rows = some ts) : Settled before ts := by
  induction hrows generalizing row s last before ts with
  | nil => exact settled_of_quiet (isPart_of_lexRows_nil h)
  | @last line hline =>
    rw [lexRows] at h
    split at h
    · rw [← Option.some.inj h]
      exact settled_of_quiet isPart_finish
    · obtain ⟨⟨tokens, s'⟩, hrow, h⟩ := Option.bind_eq_some_iff.1 h
      obtain ⟨rest, hrest, h⟩ := Option.bind_eq_some_iff.1 h
      obtain rfl := Option.some.inj h
      have hquiet := isPart_of_lexRows_nil hrest
      exact settled_lexRow (isRow_of_not_mem hline) hready hrow (.inl hquiet)
        fun _ => settled_of_quiet hquiet
  | @cons line rows hline _ ih =>
    rw [lexRows] at h
    split at h
    · rw [← Option.some.inj h]
      exact settled_of_quiet isPart_finish
    · obtain ⟨⟨tokens, s'⟩, hrow, h⟩ := Option.bind_eq_some_iff.1 h
      obtain ⟨rest, hrest, h⟩ := Option.bind_eq_some_iff.1 h
      obtain rfl := Option.some.inj h
      exact settled_lexRow (isRow_append hline) hready hrow
        (.inr (.inr (List.getLast?_concat ..))) fun hready => ih hready hrest

theorem settled_of_tokens? (h : tokens? t = some ts) : Settled [] ts :=
  settled_lexRows (areRows_rows t)
    ⟨fun h => absurd h (Int.lt_irrefl 0), fun _ h => absurd h (by decide)⟩ h

/-- The statements of a text divide its tokens, none of them is empty, and they have all tokens of
code but the semicolons, in order. They have every comment once, in order, but for those below the
last statement, and those in front of which their line holds semicolons and nothing else: such a
line holds no code at all, unless a stray carriage return stands right behind the comment. -/
theorem statementsOf_divides (h : tokens? t = some ts) (source : Text) (n : Nat) :
    Divided source n [] ts (statementsOf source n ts) ∧
    (∀ s ∈ statementsOf source n ts, s.tokens ≠ []) ∧
    (statementsOf source n ts).flatMap Statement.tokens = ts.filter isPart ∧
    ((statementsOf source n ts).flatMap fun s => s.leading ++ s.trailing) =
      commentsWhere attached [] ts ∧
    ∀ before c after, ts = before ++ c :: after → c.kind = .comment →
      attached before after = false → hasPart before = false ∧
        (hasSemicolon before = false ∧ (∀ tok ∈ after, isPart tok = false) ∨
          hasSemicolon before = true ∧
            ((∀ tok ∈ after.takeWhile fun t => !endsLine t, isPart tok = false) ∨
              ∃ tok rest, after = tok :: rest ∧ tok.kind = .stray ∧ tok.text = ['\r'])) := by
  have hdivided := divided_statementsOf h source n
  refine ⟨hdivided, hdivided.tokens_ne, hdivided.flatMap_tokens,
    hdivided.flatMap_comments (.inl rfl), fun before c after hts hc hlost => ?_⟩
  obtain ⟨hno, hlost⟩ := Bool.or_eq_false_iff.1 hlost
  refine ⟨hno, ?_⟩
  cases hsemicolon : hasSemicolon before with
  | true =>
    have hsettles : Settles ([] ++ before) after := settled_of_tokens? h before c after hts hc
    exact .inr ⟨rfl, hsettles hno hsemicolon⟩
  | false =>
    rw [hsemicolon, Bool.not_false, Bool.true_and, List.any_eq_false] at hlost
    exact .inl ⟨rfl, by simpa using hlost⟩

/-- Comments above, behind and within statements, behind a lone semicolon and at the end. -/
def commentedSource : Text :=
  "# a\nx = (1, # b\n2); # c\n; # d\nif x: # e\n  # f\n  y = 3; z = 4\n# g".toList

theorem statementsOf_divides_commented : ∃ ts, tokens? commentedSource = some ts ∧
    ((statementsOf commentedSource 0 ts).flatMap fun s => s.leading ++ s.trailing) =
      ["# a", "# b", "# c", "# e", "# f"].map String.toList ∧
    ((statementsOf commentedSource 0 ts).flatMap Statement.tokens).map Token.text =
      ["x", "=", "(", "1", ",", "2", ")", "if", "x", ":", "y", "=", "3", "z", "=", "4"].map
        String.toList := by
  have hcomments : (tokens? commentedSource).map (commentsWhere attached []) =
      some (["# a", "# b", "# c", "# e", "# f"].map String.toList) := by decide +kernel
  have hparts : (tokens? commentedSource).map (fun ts => (ts.filter isPart).map Token.text) =
      some (["x", "=", "(", "1", ",", "2", ")", "if", "x", ":", "y", "=", "3", "z", "=", "4"].map
        String.toList) := by decide +kernel
  obtain ⟨ts, hts, hcomments⟩ := Option.map_eq_some_iff.1 hcomments
  rw [hts] at hparts
  obtain ⟨-, -, htokens, htexts, -⟩ := statementsOf_divides hts commentedSource 0
  exact ⟨ts, hts, by rw [htexts, hcomments], by rw [htokens, ← Option.some.inj hparts]⟩

/-- A comment behind a semicolon is lost although its line goes on with a statement: a carriage
return ends no row, and the comment before it belongs to no statement. -/
theorem statementsOf_loses_comment : ∃ before c after,
    tokens? "; # c\rx = 1".toList = some (before ++ c :: after) ∧
    c.kind = .comment ∧ c.text = "# c".toList ∧
    (∃ tok ∈ after.takeWhile fun t => !endsLine t, isPart tok = true) ∧
    ((statementsOf "; # c\rx = 1".toList 0 (before ++ c :: after)).flatMap fun s =>
      s.leading ++ s.trailing) = [] :=
  ⟨[⟨.operator, [';'], ⟨1, 0⟩, ⟨1, 1⟩⟩], ⟨.comment, "# c".toList, ⟨1, 2⟩, ⟨1, 5⟩⟩,
    [⟨.stray, ['\r'], ⟨1, 5⟩, ⟨1, 6⟩⟩, ⟨.name, ['x'], ⟨1, 6⟩, ⟨1, 7⟩⟩,
      ⟨.operator, ['='], ⟨1, 8⟩, ⟨1, 9⟩⟩, ⟨.number, ['1'], ⟨1, 10⟩, ⟨1, 11⟩⟩,
      ⟨.lineEnd, [], ⟨1, 11⟩, ⟨1, 12⟩⟩, ⟨.endMarker, [], ⟨2, 0⟩, ⟨2, 0⟩⟩],
    by decide +kernel, rfl, rfl, by decide +kernel, by decide +kernel⟩

end VariableReport.Source
