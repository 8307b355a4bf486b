import VariableReport.Proofs.Source.Line
import VariableReport.Proofs.Source.Stream

/-!
# A piece of a logical line, lexed on its own

From one token of a logical line to another one the lexer meets only what passes within the line
(`Flows`). Such a piece of a text can be cut out, and with its brackets counted from zero it is
read alike (`Flows.cut`). If it closes the brackets that it opens, it has tokens as a text of its
own, and the tokens of code are the same (`tokens?_of_flows`): the piece ends within a row, and
each of its rows but the last is left inside brackets, inside a string or behind an escaped row
end, so that no row of it starts a logical line.
-/

namespace VariableReport.Source
open Text

/-- What passes from a text with some brackets open until `rest` is left, by the kinds and texts of
the tokens of code. -/
inductive Flows (rest : Text) : Int → Text → List (TokenKind × Text) → Prop
  | done (b : Int) : Flows rest b rest []
  | silent {b : Int} {t : Text} {n : Nat} {ts : List (TokenKind × Text)} : Passes b t n none →
      Flows rest b (t.drop n) ts → Flows rest b t ts
  | token {b : Int} {t : Text} {n : Nat} {kind : TokenKind} {ts : List (TokenKind × Text)} :
      Passes b t n (some kind) → Flows rest (b + change kind (t.take n)) (t.drop n) ts →
      Flows rest b t ((kind, t.take n) :: ts)

variable {t u v : Text} {b d : Int} {row column n m k : Nat} {s s' : LexState} {l : Lexeme} {c q : Char}
  {triple : Bool}

/-- From a point in a logical line to the end of one of its tokens only such things pass. -/
theorem Lexes.flows {new : Bool} {p : Position} {ts before after : List Token} {tok : Token}
    (h : Lexes new p b t ts) (hts : ts = before ++ tok :: after) (hnew : new = false)
    (hbefore : ∀ u ∈ before, u.kind ≠ .stray ∧ endsLine u = false) (hcode : isCode tok = true)
    (hkind : tok.kind ≠ .stray) : ∃ w v, t = w ++ tok.text ++ v ∧
      tok.stop = p.advance (w ++ tok.text) ∧ IsTrimmed tok.text ∧ tok.text ≠ [] ∧
      Flows v b t (codes before ++ [tok.shape]) := by
  induction h generalizing before with
  | finish hquiet =>
    rw [hquiet tok (by simp [hts])] at hcode
    contradiction
  | between => contradiction
  | @lineEnd _ _ _ _ _ first _ hend =>
    rcases cons_eq_split hts with ⟨v, rfl, -⟩ | ⟨-, rfl, -⟩
    · have := (hbefore first (by simp)).2
      simp [endsLine, hend] at this
    · simp [isCode, Token.isLayout, hend] at hcode
  | @stray _ _ _ _ _ first _ hstray =>
    rcases cons_eq_split hts with ⟨v, rfl, -⟩ | ⟨-, rfl, -⟩
    · exact absurd hstray (hbefore first (by simp)).1
    · exact absurd hstray hkind
  | @silent p b t n e ts hpass hquiet _ ih =>
    rcases append_eq_split hts with ⟨v, rfl, hv⟩ | ⟨v, rfl⟩
    · obtain ⟨w, v, ht, hstop, htrim, hne, hflows⟩ := ih hv rfl fun u hu => hbefore u (by simp [hu])
      refine ⟨t.take n ++ w, v, ?_, ?_, htrim, hne, ?_⟩
      · rw [List.append_assoc, List.append_assoc, ← List.append_assoc w, ← ht,
          List.take_append_drop]
      · rw [hstop, List.append_assoc, Position.advance_append p]
      · rw [codes_append_of_quiet fun u hu => (hquiet u hu).1]
        exact .silent hpass hflows
    · rw [(hquiet tok (by simp)).1] at hcode
      contradiction
  | @token p b t n first ts hpass htext hstart hstop hrest ih =>
    have hlen : first.text.length = n := by rw [htext, List.length_take_of_le hpass.bounds.2]
    rcases cons_eq_split hts with ⟨v, rfl, hv⟩ | ⟨rfl, rfl, rfl⟩
    · obtain ⟨w, v, ht, hend, htrim, hne, hflows⟩ := ih hv rfl fun u hu => hbefore u (by simp [hu])
      refine ⟨t.take n ++ w, v, ?_, ?_, htrim, hne, ?_⟩
      · rw [List.append_assoc, List.append_assoc, ← List.append_assoc w, ← ht,
          List.take_append_drop]
      · rw [hend, List.append_assoc, Position.advance_append p]
      · rw [codes_cons hpass.isCode.1, Token.shape, htext]
        rw [htext] at hflows
        exact .token hpass hflows
    · refine ⟨[], t.drop n, ?_, ?_, ?_, ?_, ?_⟩
      · rw [List.nil_append, htext, List.take_append_drop]
      · rw [hstop, List.nil_append, htext]
      · rw [htext]
        exact hpass.isTrimmed
      · rw [← List.length_pos_iff, hlen]
        exact hpass.bounds.1
      · rw [Token.shape, htext]
        exact .token hpass (.done _)

theorem Flows.length_le {ts : List (TokenKind × Text)} (h : Flows v b t ts) :
    v.length ≤ t.length := by
  induction h with
  | done => exact Nat.le_refl _
  | silent _ _ ih =>
    rw [List.length_drop] at ih
    omega
  | token _ _ ih =>
    rw [List.length_drop] at ih
    omega

/-- A piece is read alike when it is cut out, and with more open brackets. -/
theorem Flows.cut {ts : List (TokenKind × Text)} (h : Flows v b (u ++ v) ts) (hd : 0 ≤ d) :
    Flows [] (b + d) u ts := by
  generalize hw : u ++ v = w at h
  -- What passes in front of the rest lies within the piece.
  have hpiece {n : Nat} {u : Text} (hn : n ≤ (u ++ v).length)
      (hle : v.length ≤ ((u ++ v).drop n).length) : n ≤ u.length := by
    rw [List.length_drop, List.length_append] at hle
    rw [List.length_append] at hn
    omega
  induction h generalizing u with
  | done b =>
    obtain rfl : u = [] := by simpa using hw
    exact .done (b + d)
  | silent hpass hrest ih =>
    subst hw
    have hnu := hpiece hpass.bounds.2 hrest.length_le
    exact .silent ((hpass.cut hnu).raise hd) (ih (List.drop_append_of_le_length hnu).symm)
  | token hpass hrest ih =>
    subst hw
    have hnu := hpiece hpass.bounds.2 hrest.length_le
    have hrest' := ih (List.drop_append_of_le_length hnu).symm
    rw [List.take_append_of_le_length hnu] at hrest' ⊢
    rw [Int.add_right_comm] at hrest'
    exact .token ((hpass.cut hnu).raise hd) hrest'

/-- Behind gaps that pass there is a lexeme or nothing. -/
theorem Flows.goesOn {ts : List (TokenKind × Text)} (h : Flows [] b t ts) :
    Source.goesOn (firstRow t) = true := by
  have hstarts {t : Text} {l : Lexeme} {n : Nat} (hs : Starts t l n) :
      Source.goesOn (firstRow t) = true := by
    have hself : (firstRow t).dropWhile isGap = firstRow t := by
      have hgap := hs.noGap
      rw [← head?_firstRow] at hgap
      cases hr : firstRow t with
      | nil => rfl
      | cons c r =>
        rw [hr] at hgap
        rw [List.dropWhile_cons, if_neg (by simp [hgap c rfl])]
    rw [Source.goesOn, hself, hs.lexeme]
    simp
  induction h with
  | done => rfl
  | silent hpass _ ih =>
    cases hpass with
    | @gap c t hc =>
      have hfeed : c ≠ '\n' := by
        rintro rfl
        contradiction
      rw [firstRow, if_neg hfeed, Source.goesOn, List.dropWhile_cons, if_pos hc]
      exact ih
    | silent hs => exact hstarts hs
  | token hpass =>
    cases hpass with
    | token hs => exact hstarts hs
    | triple hs => exact hstarts hs
    | quoted hs => exact hstarts hs

/-! ### The tokens of such a piece -/

/-- What a lexeme takes besides its first character is passed over. -/
theorem Scans.of_dropped {ts : List Token} (h : Scans row s (column + k) 0 (t.drop k) ts s') :
    Scans row s column k t ts s' := by
  induction k generalizing t column with
  | zero => exact h
  | succ k ih =>
    cases t with
    | nil =>
      rw [List.drop_nil] at h
      obtain ⟨rfl, rfl⟩ := h.of_nil
      exact .done _ _ _
    | cons c t =>
      have hcolumn : column + (k + 1) = column + 1 + k := by omega
      rw [hcolumn, List.drop_succ_cons] at h
      exact .skip (ih h)

theorem Scans.cons {ts : List Token} (h : Scans row s (column + n) 0 ((c :: t).drop n) ts s')
    (hn : 0 < n) : Scans row s (column + 1) (n - 1) t ts s' := by
  obtain ⟨k, rfl⟩ := Nat.exists_eq_succ_of_ne_zero (Nat.ne_of_gt hn)
  refine Scans.of_dropped ?_
  rwa [Nat.add_assoc, Nat.add_comm 1]

/-- Reading the rest of a text from a point in a row gives these tokens of code. -/
def Resumes (row column : Nat) (s : LexState) (t : Text) (ts : List (TokenKind × Text)) : Prop :=
  ∃ us s', Scans row s column 0 (firstRow t) us s' ∧
    ∀ last, ∃ vs, lexRows (row + 1) s' last (rows (below t)) = some vs ∧ codes (us ++ vs) = ts

section
variable {ts : List (TokenKind × Text)} {tok : Option Token}

/-- A lexeme in front of the rest of its row. -/
theorem Starts.scans {us : List Token} {s₁ : LexState} (hs : Starts t l n)
    (hstep : stepOf row column s (firstRow t) l n = (⟨tok, s', false⟩, k)) (hk : 0 < k)
    (h : Scans row s' (column + k) 0 ((firstRow t).drop k) us s₁) :
    Scans row s column 0 (firstRow t) (tok.toList ++ us) s₁ := by
  have hgap := hs.noGap
  have hlexeme := hs.lexeme
  rw [← head?_firstRow] at hgap
  cases hrow : firstRow t with
  | nil =>
    rw [hrow] at hlexeme
    contradiction
  | cons c r =>
    rw [hrow] at hstep hlexeme hgap h
    have hstops : (stepOf row column s (c :: r) l n).1.stops = false := by rw [hstep]
    have hrest : Scans row (stepOf row column s (c :: r) l n).1.state (column + 1)
        ((stepOf row column s (c :: r) l n).2 - 1) r us s₁ := by
      rw [hstep]
      exact h.cons hk
    have hscan := Scans.lexeme (hgap c rfl) hlexeme hstops hrest
    rwa [hstep] at hscan

/-- A lexeme that leaves a string open. -/
theorem Starts.scans_stop {o : OpenString} (hs : Starts t l n)
    (hstep : (stepOf row column s (firstRow t) l n).1 = ⟨none, { s with string := some o }, true⟩) :
    Scans row s column 0 (firstRow t) [] { s with string := some o } := by
  have hgap := hs.noGap
  have hlexeme := hs.lexeme
  rw [← head?_firstRow] at hgap
  cases hrow : firstRow t with
  | nil =>
    rw [hrow] at hlexeme
    contradiction
  | cons c r =>
    rw [hrow] at hstep hlexeme hgap
    have hstops : (stepOf row column s (c :: r) l n).1.stops = true := by rw [hstep]
    have hscan := Scans.stop (hgap c rfl) hlexeme hstops
    rwa [hstep] at hscan

theorem Resumes.lexeme (hs : Starts t l n)
    (hstep : stepOf row column s (firstRow t) l n = (⟨tok, s', false⟩, k))
    (hspan : Spans (firstRow t) k) (hk : 0 < k) (h : Resumes row (column + k) s' (t.drop k) ts) :
    Resumes row column s t (codes tok.toList ++ ts) := by
  obtain ⟨us, s₁, hscan, hrest⟩ := h
  obtain ⟨hfirst, hbelow⟩ := firstRow_drop hspan
  rw [hbelow] at hrest
  rw [hfirst] at hscan
  refine ⟨tok.toList ++ us, s₁, hs.scans hstep hk hscan, fun last => ?_⟩
  obtain ⟨vs, hvs, hcodes⟩ := hrest last
  exact ⟨vs, hvs, by rw [List.append_assoc, codes_append, hcodes]⟩

/-- A row that starts no logical line is read from its first character. -/
theorem lexRows_of_resumes {last : Text} (hne : t ≠ []) (hstring : s.string = none)
    (hstart : s.atLineStart = false) (h : Resumes row 0 { s with continued := false } t ts) :
    ∃ vs, lexRows row s last (rows t) = some vs ∧ codes vs = ts := by
  obtain ⟨us, s₁, hscan, hrest⟩ := h
  obtain ⟨vs, hvs, hcodes⟩ := hrest (firstRow t)
  refine ⟨us ++ vs, ?_, hcodes⟩
  have hrow : lexRow row s (firstRow t) = some (us, s₁) := by
    unfold lexRow
    split
    next o ho =>
      rw [hstring] at ho
      contradiction
    next => rw [hstart, if_neg (by simp), hscan.scanRow_eq]
  rw [rows_eq_cons hne, lexRows, hstart, Bool.false_and, if_neg (by simp), hrow]
  simp only [Option.bind_eq_bind, Option.bind_some, hvs]

theorem Resumes.rowEnd (hs : Starts t l n) (hl : l = .rowEnd ∨ l = .escapedRowEnd)
    (hstep : stepOf row column s (firstRow t) l n = (⟨tok, s', false⟩, n))
    (hstring : s'.string = none) (hstart : s'.atLineStart = false) (hne : below t ≠ [])
    (h : Resumes (row + 1) 0 { s' with continued := false } (below t) ts) :
    Resumes row column s t (codes tok.toList ++ ts) := by
  obtain ⟨hn, -, -, -⟩ := hs.rowEnd hl
  have hdone : Scans row s' (column + n) 0 ((firstRow t).drop n) [] s' := by
    rw [hn, List.drop_length]
    exact .done _ _ _
  have hpos : 0 < n := (hs.bounds (by rcases hl with rfl | rfl <;> simp)).1
  refine ⟨_, s', hs.scans hstep hpos hdone, fun last => ?_⟩
  obtain ⟨vs, hvs, hcodes⟩ := lexRows_of_resumes hne hstring hstart h
  exact ⟨vs, hvs, by rw [List.append_nil, codes_append, hcodes]⟩

theorem lexRows_string {o : OpenString} {last : Text} (hne : t ≠ []) (ho : s.string = some o) :
    lexRows row s last (rows t) =
      (lexRows (row + 1) (stringRow row s o (firstRow t)).2 (firstRow t) (rows (below t))).map
        ((stringRow row s o (firstRow t)).1 ++ ·) := by
  have hstart : s.atLineStart = false := by simp [LexState.atLineStart, ho]
  rw [rows_eq_cons hne, lexRows, hstart, Bool.false_and, if_neg (by simp)]
  simp only [lexRow, ho, Option.bind_eq_bind, Option.bind_some]
  cases lexRows (row + 1) (stringRow row s o (firstRow t)).2 (firstRow t) (rows (below t)) <;> rfl

/-- A string that is open in front of a text and ends in it becomes a token. -/
theorem lexRows_of_closes {o : OpenString} {last : Text} (h : Closes o.triple o.quote t n)
    (hq : o.quote ≠ '\n') (ho : s.string = some o)
    (hrest : ∀ row column, Resumes row column { s with string := none } (t.drop n) ts) :
    ∃ vs, lexRows row s last (rows t) = some vs ∧
      codes vs = (.string, o.text ++ t.take n) :: ts := by
  have hnil {t : Text} {n : Nat} (h : Closes o.triple o.quote t n) : t ≠ [] :=
    List.ne_nil_of_length_pos (Nat.lt_of_lt_of_le (h.pos hq) (h.le hq))
  generalize htriple : o.triple = triple at h hnil
  generalize hquote : o.quote = q at h hq hnil
  have hend (t : Text) : (if o.triple then tripleRest o.quote (firstRow t)
      else continuedRest o.quote (firstRow t)) = stringEnd? triple q (firstRow t) := by
    rw [htriple, hquote]
    rfl
  induction h generalizing o s row last with
  | @here t n hn =>
    have hspan := spans_stringEnd? hq hn
    obtain ⟨us, s₁, hscan, hvs⟩ := hrest row n
    obtain ⟨hfirst, hbelow⟩ := firstRow_drop hspan
    obtain ⟨vs, hvs, hcodes⟩ := hvs (firstRow t)
    rw [hfirst] at hscan
    rw [hbelow] at hvs
    have hrow : stringRow row s o (firstRow t) =
        (⟨.string, o.text ++ t.take n, o.start, ⟨row, n⟩⟩ :: us, s₁) := by
      simp only [stringRow, hend, hn, hscan.scanRow_eq, take_firstRow hspan.le]
    rw [lexRows_string (hnil (.here hn)) ho, hrow, hvs]
    refine ⟨_, rfl, ?_⟩
    dsimp only
    rw [List.cons_append, codes_cons (by simp [isCode, Token.isLayout]), hcodes]
    rfl
  | @beneath t n hn hgoes hc ih =>
    have hrow : stringRow row s o (firstRow t) =
        ([], { s with string := some { o with text := o.text ++ firstRow t } }) := by
      have hgoes' : o.triple || endsWith (firstRow t) ['\\', '\n'] ||
          endsWith (firstRow t) ['\\', '\r', '\n'] := htriple ▸ hgoes
      simp only [stringRow, hend, hn, hgoes', if_true]
    obtain ⟨vs, hvs, hcodes⟩ : ∃ vs, lexRows (row + 1)
        { s with string := some { o with text := o.text ++ firstRow t } } (firstRow t)
        (rows (below t)) = some vs ∧
          codes vs = (.string, o.text ++ firstRow t ++ (below t).take n) :: ts := by
      refine ih (o := { o with text := o.text ++ firstRow t })
        (s := { s with string := some { o with text := o.text ++ firstRow t } }) rfl
        (fun row column => ?_) htriple hquote hend
      rw [← drop_below]
      exact hrest row column
    refine ⟨vs, ?_, by rw [hcodes, take_below, List.append_assoc]⟩
    rw [lexRows_string (hnil (.beneath hn hgoes hc)) ho, hrow, hvs]
    rfl

theorem Resumes.opened {o : OpenString} (hs : Starts t l n)
    (hstep : (stepOf row column s (firstRow t) l n).1 = ⟨none, { s with string := some o }, true⟩)
    (ho : o.text = firstRow t) (hq : o.quote ≠ '\n') (hc : Closes o.triple o.quote (below t) m)
    (hrest : ∀ row column, Resumes row column { s with string := none }
      (t.drop ((firstRow t).length + m)) ts) :
    Resumes row column s t ((.string, t.take ((firstRow t).length + m)) :: ts) := by
  refine ⟨[], _, hs.scans_stop hstep, fun last => ?_⟩
  obtain ⟨vs, hvs, hcodes⟩ : ∃ vs, lexRows (row + 1) { s with string := some o } last
      (rows (below t)) = some vs ∧ codes vs = (.string, o.text ++ (below t).take m) :: ts := by
    refine lexRows_of_closes hc hq rfl fun row column => ?_
    rw [← drop_below]
    exact hrest row column
  exact ⟨vs, hvs, by rw [List.nil_append, hcodes, take_below, ho]⟩

/-- The lexer stands between two lexemes of a row, with some brackets open. -/
structure LexState.Idle (s : LexState) (b : Int) : Prop where
  string : s.string = none
  continued : s.continued = false
  brackets : s.brackets = b

/-- What passes without a token of code leaves the rest to be read. -/
theorem Passes.resumes_of_none (h : Passes b t n none) (hend : t.getLast? ≠ some '\n')
    (hgoes : Source.goesOn (firstRow (t.drop n)) = true) (hs : s.Idle b)
    (hrest : ∀ {row column : Nat} {s : LexState}, s.Idle b → Resumes row column s (t.drop n) ts) :
    Resumes row column s t ts := by
  cases h with
  | @gap c t hc =>
    have hfeed : c ≠ '\n' := by
      rintro rfl
      contradiction
    obtain ⟨us, s₁, hscan, hrows⟩ := hrest hs
    have hbelow : Text.below (c :: t) = Text.below t :=
      below_append_of_not_mem (t := [c]) (by simpa using Ne.symm hfeed) t
    refine ⟨us, s₁, ?_, by rwa [hbelow]⟩
    rw [firstRow, if_neg hfeed]
    exact .gap hc hgoes hscan
  | @silent _ l _ hstarts hl =>
    rcases hl with rfl | hl
    · exact Resumes.lexeme hstarts rfl hstarts.takes.2 hstarts.takes.1 (hrest hs)
    · have hl' : l = .rowEnd ∨ l = .escapedRowEnd := hl.symm.imp_left And.left
      obtain ⟨-, -, hdrop, r, -, hr⟩ := hstarts.rowEnd hl'
      have hne : Text.below t ≠ [] := by
        intro hnil
        have happend := firstRow_append_below t
        rw [hnil, List.append_nil, hr] at happend
        rw [← happend] at hend
        simp at hend
      rw [hdrop] at hrest
      have hbelow := @hrest (row + 1) 0 { s with continued := false } ⟨hs.string, rfl, hs.brackets⟩
      rcases hl with rfl | ⟨rfl, hpos⟩
      · have hstart : ({ s with continued := true } : LexState).atLineStart = false := by
          simp [LexState.atLineStart]
        exact Resumes.rowEnd hstarts hl' rfl hs.string hstart hne hbelow
      · have hstart : s.atLineStart = false := by
          have : s.brackets ≠ 0 := by
            rw [hs.brackets]
            omega
          simp [LexState.atLineStart, this]
        have hresumes : Resumes row column s t (codes (Option.toList (some
            (stepOf.make row column (firstRow t) (if 0 < s.brackets then .rowEnd else .lineEnd) n))) ++
              ts) := Resumes.rowEnd hstarts hl' rfl hs.string hstart hne hbelow
        rwa [codes_eq_nil, List.nil_append] at hresumes
        simp [stepOf.make, Source.isCode, Token.isLayout, hs.brackets, hpos]

/-- A token that lies within its row. -/
theorem Passes.resumes_row {kind : TokenKind} (h : Passes b t n (some kind)) (hstarts : Starts t l m)
    (hspan : Spans (firstRow t) n)
    (hstep : stepOf row column s (firstRow t) l m = (⟨some (stepOf.make row column (firstRow t) kind n),
      { s with brackets := s.brackets + change kind (t.take n) }, false⟩, n))
    (hrest : Resumes row (column + n) { s with brackets := s.brackets + change kind (t.take n) }
      (t.drop n) ts) : Resumes row column s t ((kind, t.take n) :: ts) := by
  have hresumes := Resumes.lexeme hstarts hstep hspan h.bounds.1 hrest
  have hcode := (@Passes.isCode _ _ _ (stepOf.make row column (firstRow t) kind n) h).1
  rw [Option.toList_some, codes_cons hcode] at hresumes
  rwa [Token.shape, stepOf.make, take_firstRow hspan.le] at hresumes

/-- A token of code is read, and leaves the rest to be read. -/
theorem Passes.resumes_of_some {kind : TokenKind} (h : Passes b t n (some kind)) (hs : s.Idle b)
    (hrest : ∀ {row column : Nat} {s : LexState}, s.Idle (b + change kind (t.take n)) →
      Resumes row column s (t.drop n) ts) : Resumes row column s t ((kind, t.take n) :: ts) := by
  have hpass := h
  have hnext : ({ s with brackets := s.brackets + change kind (t.take n) } : LexState).Idle
      (b + change kind (t.take n)) := ⟨hs.string, hs.continued, by rw [hs.brackets]⟩
  have hclosed (hkind : kind = .string) :
      ({ s with string := none } : LexState).Idle (b + change kind (t.take n)) :=
    ⟨rfl, hs.continued, by simp [hkind, change, hs.brackets]⟩
  cases h with
  | token hstarts hk =>
    have hspan := hstarts.spans hk
    refine hpass.resumes_row hstarts hspan ?_ (hrest hnext)
    rw [stepOf_token hstarts.lexeme (tokenKind?_firstRow.trans hk), take_firstRow hspan.le]
  | @triple _ q n m hstarts hc =>
    have hquote := isQuote_of_starts hstarts (.inl rfl)
    have hspan := hstarts.takes.2.2
    obtain ⟨hfirst, hbelow⟩ := firstRow_drop hspan
    cases hc with
    | here hend =>
      have hrow : tripleRest q ((firstRow t).drop n) = some m := by rwa [← hfirst]
      have hspan' : Spans (firstRow t) (n + m) := by
        refine hspan.add ?_
        rw [← hfirst]
        exact spans_stringEnd? (ne_rowEnd_of_isQuote hquote) hend
      refine hpass.resumes_row hstarts hspan' ?_ (hrest hnext)
      simp [stepOf, hrow, change]
    | @beneath _ k hnone _ hc =>
      have hrow : tripleRest q ((firstRow t).drop n) = none := by rwa [← hfirst]
      have hlength : (firstRow t).length + k = n + ((firstRow (t.drop n)).length + k) := by
        rw [hfirst, List.length_drop, ← Nat.add_assoc, Nat.add_sub_cancel' hspan.le]
      rw [hbelow] at hc
      rw [← hlength] at hrest hclosed ⊢
      refine Resumes.opened (o := ⟨⟨row, column⟩, firstRow t, q, true⟩) hstarts ?_ rfl
        (ne_rowEnd_of_isQuote hquote) hc fun row column => hrest (hclosed rfl)
      simp [stepOf, hrow]
  | @quoted _ q n m hstarts hc =>
    have hquote := isQuote_of_starts hstarts (.inr rfl)
    exact Resumes.opened (o := ⟨⟨row, column⟩, firstRow t, q, false⟩) hstarts rfl rfl
      (ne_rowEnd_of_isQuote hquote) hc fun row column => hrest (hclosed rfl)

/-- A piece that ends within a row, with all its brackets closed, is read to its end. -/
theorem Flows.resumes (h : Flows [] b t ts) (hzero : b + level ts = 0)
    (hend : t.getLast? ≠ some '\n') (hs : s.Idle b) : Resumes row column s t ts := by
  have hdrop {t : Text} {n : Nat} (hend : t.getLast? ≠ some '\n') :
      (t.drop n).getLast? ≠ some '\n' := by
    rw [List.getLast?_drop]
    split
    · simp
    · exact hend
  induction h generalizing row column s with
  | done b =>
    have hstart : s.atLineStart = true := by
      have : b = 0 := by simpa [level] using hzero
      simp [LexState.atLineStart, hs.string, hs.continued, hs.brackets, this]
    refine ⟨[], s, .done _ _ _, fun last => ⟨finish (row + 1) s last, ?_, ?_⟩⟩
    · rw [below_eq_nil (by simp), rows, lexRows, if_pos hstart]
    · exact codes_eq_nil isCode_finish
  | silent hpass hflows ih =>
    exact hpass.resumes_of_none hend hflows.goesOn hs fun hs => ih hzero (hdrop hend) hs
  | token hpass _ ih =>
    rw [level_cons, ← Int.add_assoc] at hzero
    exact hpass.resumes_of_some hs fun hs => ih hzero (hdrop hend) hs

end

/-- A piece of a logical line that closes its brackets has the same tokens of code on its own. -/
theorem tokens?_of_flows {ts : List (TokenKind × Text)} (h : Flows [] 0 t ts) (hzero : level ts = 0)
    (htrim : IsTrimmed t) (hhead : t.head? ≠ some '#') (hne : t ≠ []) :
    ∃ us, tokens? t = some us ∧ codes us = ts := by
  have hend : t.getLast? ≠ some '\n' := fun hlast => absurd (htrim.2 _ hlast) (by decide)
  obtain ⟨us, s, hscan, hrows⟩ : Resumes 1 0 {} t ts := h.resumes (by omega) hend ⟨rfl, rfl, rfl⟩
  obtain ⟨c, t, rfl⟩ := List.exists_cons_of_ne_nil hne
  have hblank := htrim.1 c rfl
  have hgap : isGap c = false := by
    by_contra hgap
    rw [isBlank_of_isGap (by simpa using hgap)] at hblank
    contradiction
  have hfeed : c ≠ '\n' := by
    rintro rfl
    contradiction
  have hreturn : c ≠ '\r' := by
    rintro rfl
    contradiction
  have hmark : c ≠ '#' := by simpa using hhead
  obtain ⟨vs, hvs, hcodes⟩ := hrows (firstRow (c :: t))
  have hrow : firstRow (c :: t) = c :: firstRow t := by rw [firstRow, if_neg hfeed]
  have hlexed : lexRow 1 {} (firstRow (c :: t)) = some (us, s) := by
    rw [hrow] at hscan ⊢
    rw [lexRow_of_not_isGap hgap, if_neg (by simp [hmark, hreturn, hfeed]), hscan.scanRow_eq]
  have hall : (firstRow (c :: t)).all isGap = false := by rw [hrow, List.all_cons, hgap]; rfl
  refine ⟨us ++ vs, ?_, hcodes⟩
  rw [tokens?, rows_eq_cons hne, lexRows, hall, Bool.and_false, if_neg (by simp), hlexed]
  simp only [Option.bind_eq_bind, Option.bind_some, hvs]

end VariableReport.Source
