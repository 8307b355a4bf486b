import VariableReport.Proofs.Source.Layout
import VariableReport.Proofs.Source.Pass
import VariableReport.Proofs.Source.Scan

/-!
# Lexing as one pass over a text

The lexer goes row by row and keeps a string that is open between two rows in its state. Its
tokens are stated here as a relation on the text that is left (`Lexes`), where a string is one
lexeme: within a logical line the text begins with what passes (`Passes`), with the end of the
logical line or with a stray piece, and between logical lines some tokens that are no code come
first. What a lexeme does that leaves no string open is said once (`makes_stepOf`), and every run of
tokens is such a pass (`lexes_of_tokens?`). A token of code is found again in it with the brackets
that are open there, the tokens that end logical lines stand outside brackets, and between two of
these what passes is all there is.
-/

namespace VariableReport.Source
open Text

/-- A token that ends a logical line. -/
def endsLine (t : Token) : Bool := t.kind = .lineEnd || t.kind = .endMarker

/-- The tokens of the rest of a text, read from a position with some brackets open. The first
argument is whether the text begins between two logical lines. -/
inductive Lexes : Bool → Position → Int → Text → List Token → Prop
  | finish {new : Bool} {p : Position} {b : Int} {t : Text} {ts : List Token} :
      (∀ tok ∈ ts, isCode tok = false) → b ≤ 0 → Lexes new p b t ts
  | between {new : Bool} {p : Position} {b : Int} {t : Text} {n : Nat} {e ts : List Token} :
      (∀ tok ∈ e, isCode tok = false) → b ≤ 0 →
      Lexes new (p.advance (t.take n)) b (t.drop n) ts → Lexes true p b t (e ++ ts)
  | lineEnd {new : Bool} {p : Position} {b : Int} {t : Text} {n : Nat} {tok : Token}
      {ts : List Token} : tok.kind = .lineEnd → b ≤ 0 →
      Lexes new (p.advance (t.take n)) b (t.drop n) ts → Lexes false p b t (tok :: ts)
  | stray {new : Bool} {p : Position} {b : Int} {t : Text} {n : Nat} {tok : Token}
      {ts : List Token} : tok.kind = .stray →
      Lexes new (p.advance (t.take n)) b (t.drop n) ts → Lexes false p b t (tok :: ts)
  | silent {p : Position} {b : Int} {t : Text} {n : Nat} {e ts : List Token} :
      Passes b t n none → (∀ tok ∈ e, isCode tok = false ∧ endsLine tok = false) →
      Lexes false (p.advance (t.take n)) b (t.drop n) ts → Lexes false p b t (e ++ ts)
  | token {p : Position} {b : Int} {t : Text} {n : Nat} {tok : Token} {ts : List Token} :
      Passes b t n (some tok.kind) → tok.text = t.take n → tok.start = p →
      tok.stop = p.advance (t.take n) →
      Lexes false (p.advance (t.take n)) (b + change tok.kind tok.text) (t.drop n) ts →
      Lexes false p b t (tok :: ts)

/-- The tokens of a text in front of which a string is open: the string and what follows it, or a
stray piece if the string does not end. -/
inductive LexesString (o : OpenString) (b : Int) (p : Position) (t : Text) : List Token → Prop
  | closes {n : Nat} {tok : Token} {ts : List Token} : Closes o.triple o.quote t n →
      tok.kind = .string → tok.text = o.text ++ t.take n → tok.start = o.start →
      tok.stop = p.advance (t.take n) →
      Lexes false (p.advance (t.take n)) b (t.drop n) ts → LexesString o b p t (tok :: ts)
  | stray {new : Bool} {n : Nat} {tok : Token} {ts : List Token} : tok.kind = .stray →
      Lexes new (p.advance (t.take n)) b (t.drop n) ts → LexesString o b p t (tok :: ts)

/-- The lexer goes over a text as one pass, from the start of a row, from within a row, and from
the start of a row in front of which a string is open. -/
structure IsStream (t : Text) : Prop where
  rows {row : Nat} {s : LexState} {last : Text} {ts : List Token} : s.string = none →
    lexRows row s last (rows t) = some ts → Lexes s.atLineStart ⟨row, 0⟩ s.brackets t ts
  scans {row column : Nat} {s s' : LexState} {last : Text} {ts us : List Token} :
    s.string = none → Scans row s column 0 (firstRow t) ts s' →
    lexRows (row + 1) s' last (Text.rows (below t)) = some us →
    Lexes false ⟨row, column⟩ s.brackets t (ts ++ us)
  string {row : Nat} {s : LexState} {o : OpenString} {last : Text} {ts : List Token} :
    s.string = some o → o.quote ≠ '\n' → lexRows row s last (Text.rows t) = some ts →
    LexesString o s.brackets ⟨row, 0⟩ t ts

variable {t u : Text} {row column n m : Nat} {s s' : LexState} {ts us : List Token} {l : Lexeme}
  {c : Char} {last : Text}

/-- What a lexeme takes besides its first character is passed over. -/
theorem Scans.dropped {skip : Nat} (h : Scans row s column skip t ts s') :
    Scans row s (column + skip) 0 (t.drop skip) ts s' := by
  induction h with
  | done s column skip =>
    rw [List.drop_nil]
    exact .done s _ 0
  | @skip s s' column skip c t ts _ ih =>
    rwa [Nat.add_right_comm, Nat.add_assoc] at ih
  | gap hgap hon hrest _ => exact .gap hgap hon hrest
  | stray hstray hrest _ => exact .stray hstray hrest
  | stop hgap hl hstops => exact .stop hgap hl hstops
  | lexeme hgap hl hstops hrest _ => exact .lexeme hgap hl hstops hrest

theorem Scans.rest (h : Scans row s (column + 1) (n - 1) t ts s') (hn : 0 < n) :
    Scans row s (column + n) 0 ((c :: t).drop n) ts s' := by
  obtain ⟨k, rfl⟩ := Nat.exists_eq_succ_of_ne_zero (Nat.ne_of_gt hn)
  have hrest := h.dropped
  rwa [Nat.add_assoc, Nat.add_comm 1] at hrest

theorem Scans.of_nil (h : Scans row s column 0 [] ts s') : ts = [] ∧ s' = s := by
  cases h with
  | done => exact ⟨rfl, rfl⟩

/-- Behind what lies within the first row stands the rest of the row. -/
theorem firstRow_drop (h : Spans (firstRow t) n) :
    firstRow (t.drop n) = (firstRow t).drop n ∧ below (t.drop n) = below t := by
  have htake := take_firstRow h.le
  have hfeed := htake ▸ h.row
  have hle := Nat.le_trans h.le (length_firstRow_le t)
  have hfirst := firstRow_append_of_not_mem hfeed (t.drop n)
  have hbelow := below_append_of_not_mem hfeed (t.drop n)
  rw [List.take_append_drop] at hfirst hbelow
  refine ⟨?_, hbelow.symm⟩
  rw [hfirst, List.drop_left' (List.length_take_of_le hle)]

theorem advance_spans (h : Spans (firstRow t) n) :
    (⟨row, column⟩ : Position).advance (t.take n) = ⟨row, column + n⟩ := by
  have hle := Nat.le_trans h.le (length_firstRow_le t)
  rw [Position.advance_of_not_mem (take_firstRow h.le ▸ h.row), List.length_take_of_le hle]

/-- Behind the first row the next one begins. -/
theorem advance_take_below (h : '\n' ∈ t) (n : Nat) :
    (⟨row, column⟩ : Position).advance (t.take ((firstRow t).length + n)) =
      (⟨row + 1, 0⟩ : Position).advance ((below t).take n) := by
  obtain ⟨r, u, rfl, hr⟩ := List.eq_append_cons_of_mem h
  rw [take_below, Position.advance_append, firstRow_rowEnd hr, Position.advance_row hr]

theorem Lexes.beneath {new : Bool} {b : Int} (h : Lexes new ((⟨row + 1, 0⟩ : Position).advance
    ((Text.below t).take n)) b ((Text.below t).drop n) ts) (ht : '\n' ∈ t) :
    Lexes new ((⟨row, column⟩ : Position).advance (t.take ((firstRow t).length + n))) b
      (t.drop ((firstRow t).length + n)) ts := by
  rw [advance_take_below ht, drop_below]
  exact h

/-- A token of the first characters, all of which lie within the row. -/
theorem Lexes.of_make {kind : TokenKind} {b : Int} (hpass : Passes b t n (some kind))
    (hspan : Spans (firstRow t) n)
    (hrest : Lexes false ((⟨row, column⟩ : Position).advance (t.take n))
      (b + change kind (t.take n)) (t.drop n) ts) :
    Lexes false ⟨row, column⟩ b t (stepOf.make row column (firstRow t) kind n :: ts) := by
  have htext := take_firstRow hspan.le
  refine .token hpass htext rfl (advance_spans hspan).symm ?_
  rw [stepOf.make, htext]
  exact hrest

/-- A lexeme that ends its row takes all of it. -/
theorem length_rowEnd (h : lexeme? t = some (l, n)) (hl : l = .rowEnd ∨ l = .escapedRowEnd)
    (ht : IsRow t) : n = t.length ∧ ∃ r, '\n' ∉ r ∧ t = r ++ ['\n'] := by
  have hbegins := begins_lexeme? t
  rw [h] at hbegins
  generalize hr : some (l, n) = r at hbegins
  cases hbegins with
  | nothing => contradiction
  | plain =>
    have hplain := plainLexeme_of_eq_some hr.symm
    rcases hl with rfl | rfl <;> cases hplain with
    | solid hl => simp at hl
  | comment =>
    obtain ⟨rfl, rfl⟩ := Prod.mk.inj (Option.some.inj hr)
    simp at hl
  | escaped u =>
    obtain ⟨rfl, rfl⟩ := Prod.mk.inj (Option.some.inj hr)
    obtain rfl : u = [] := ht ['\\'] u rfl
    exact ⟨rfl, ['\\'], by decide, rfl⟩
  | escapedReturn u =>
    obtain ⟨rfl, rfl⟩ := Prod.mk.inj (Option.some.inj hr)
    obtain rfl : u = [] := ht ['\\', '\r'] u rfl
    exact ⟨rfl, ['\\', '\r'], by decide, rfl⟩
  | feed u =>
    obtain ⟨rfl, rfl⟩ := Prod.mk.inj (Option.some.inj hr)
    obtain rfl : u = [] := ht [] u rfl
    exact ⟨rfl, [], by decide, rfl⟩
  | returnFeed u =>
    obtain ⟨rfl, rfl⟩ := Prod.mk.inj (Option.some.inj hr)
    obtain rfl : u = [] := ht ['\r'] u rfl
    exact ⟨rfl, ['\r'], by decide, rfl⟩

/-- Behind a lexeme that ends its row the text below is left. -/
theorem Starts.rowEnd (h : Starts t l n) (hl : l = .rowEnd ∨ l = .escapedRowEnd) :
    n = (firstRow t).length ∧ t.take n = firstRow t ∧ t.drop n = below t ∧
      ∃ r, '\n' ∉ r ∧ firstRow t = r ++ ['\n'] := by
  obtain ⟨hn, hrow⟩ := length_rowEnd h.lexeme hl (isRow_firstRow t)
  exact ⟨hn, by rw [hn, take_length_firstRow], by rw [hn]; rfl, hrow⟩

theorem word_of_lexeme? (h : lexeme? t = some (.word, n)) :
    n = (t.takeWhile isWord).length ∧ n ≠ 0 := by
  have hbegins := begins_lexeme? t
  rw [h] at hbegins
  generalize hr : some (Lexeme.word, n) = r at hbegins
  cases hbegins with
  | plain =>
    have hword : lexeme?.word? t = some (.word, n) := by
      rw [plainLexeme?] at hr
      grind
    exact (word?_eq_some_iff.1 hword).2
  | _ => simp at hr

/-- A word is no bracket. -/
theorem bracketChange_word (h : lexeme? t = some (.word, n)) : bracketChange (t.take n) = 0 := by
  obtain ⟨rfl, -⟩ := word_of_lexeme? h
  have hword : ∀ c ∈ t.take (t.takeWhile isWord).length, isWord c = true := by
    rw [← List.prefix_iff_eq_take.1 (List.takeWhile_prefix isWord)]
    exact fun c hc => List.mem_takeWhile_imp hc
  have hbracket : "()[]\x7b\x7d".toList.all (fun c => !isWord c) = true := by decide +kernel
  have hne {c : Char} (hc : c ∈ "()[]\x7b\x7d".toList) :
      t.take (t.takeWhile isWord).length ≠ [c] := by
    intro heq
    have hno := List.all_eq_true.1 hbracket c hc
    rw [hword c (by simp [heq])] at hno
    contradiction
  rw [bracketChange]
  simp only [hne (c := '(') (by decide), hne (c := '[') (by decide), hne (c := '\x7b') (by decide),
    hne (c := ')') (by decide), hne (c := ']') (by decide), hne (c := '\x7d') (by decide)]
  rfl

/-- A lexeme that is a token as a whole changes nothing but the open brackets. -/
theorem stepOf_token {kind : TokenKind} (hl : lexeme? t = some (l, n))
    (h : tokenKind? t l = some kind) : stepOf row column s t l n =
      (⟨some (stepOf.make row column t kind n),
        { s with brackets := s.brackets + change kind (t.take n) }, false⟩, n) := by
  cases l with
  | number =>
    obtain rfl := Option.some.inj h
    simp [stepOf, change]
  | operator =>
    obtain rfl := Option.some.inj h
    simp [stepOf, change]
  | quoted =>
    obtain rfl := Option.some.inj h
    simp [stepOf, change]
  | word =>
    obtain rfl := Option.some.inj h
    simp [stepOf, change, bracketChange_word hl]
  | _ => contradiction

theorem tokenKind?_firstRow : tokenKind? (firstRow t) l = tokenKind? t l := by
  cases t with
  | nil => rfl
  | cons c t =>
    rw [firstRow]
    split <;> cases l <;> rfl

/-- What a lexeme of a row does that leaves no string open: it makes a token of code, a string in
triple quotes or a comment, all within the row, or it ends the row. -/
inductive Makes (row column : Nat) (s : LexState) (t : Text) (n : Nat) : Lexeme → Step × Nat → Prop
  | token {l : Lexeme} {kind : TokenKind} : tokenKind? t l = some kind → 0 < n → Spans t n →
      Makes row column s t n l (⟨some (stepOf.make row column t kind n),
        { s with brackets := s.brackets + change kind (t.take n) }, false⟩, n)
  | string {q : Char} {m : Nat} : tripleRest q (t.drop n) = some m → 0 < n + m →
      Spans t (n + m) → Makes row column s t n (.tripleOpen q)
        (⟨some (stepOf.make row column t .string (n + m)), s, false⟩, n + m)
  | comment : 0 < n → Spans t n →
      Makes row column s t n .comment (⟨some (stepOf.make row column t .comment n), s, false⟩, n)
  | rowEnd {l : Lexeme} : l = .rowEnd ∨ l = .escapedRowEnd → 0 < n →
      Makes row column s t n l (stepOf row column s t l n)

theorem makes_stepOf (ht : IsRow t) (hl : lexeme? t = some (l, n))
    (hstops : (stepOf row column s t l n).1.stops = false) :
    Makes row column s t n l (stepOf row column s t l n) := by
  have htakes := takes_lexeme? hl
  cases hk : tokenKind? t l with
  | some kind =>
    obtain ⟨hpos, hspan⟩ := htakes.of_tokenKind? hk
    rw [stepOf_token hl hk]
    exact .token hk hpos hspan
  | none =>
    cases l with
    | escapedRowEnd => exact .rowEnd (.inr rfl) htakes.1
    | comment => exact .comment htakes.1 htakes.2
    | tripleOpen q =>
      obtain ⟨hq, hn, hspan⟩ := htakes
      cases hrest : tripleRest q (t.drop n) with
      | none => simp [stepOf, hrest] at hstops
      | some m =>
        have hspan' := hspan.add (spans_tripleRest hq (ht.drop n) hrest)
        simp only [stepOf, hrest]
        exact .string hrest (Nat.add_pos_left hn m) hspan'
    | rowEnd => exact .rowEnd (.inl rfl) htakes.1
    | quotedOpen q => simp [stepOf] at hstops
    | _ => contradiction

/-- A lexeme that leaves no string open takes some characters. -/
theorem Makes.pos {r : Step × Nat} (h : Makes row column s t n l r) : 0 < r.2 := by
  cases h with
  | token _ hpos => exact hpos
  | string _ hpos => exact hpos
  | comment hpos => exact hpos
  | rowEnd hl hpos => rcases hl with rfl | rfl <;> exact hpos

/-! ### The lexer as a pass -/

theorem isCode_finish : ∀ tok ∈ finish row s last, isCode tok = false := by
  intro tok htok
  have hvisible := List.filter_eq_nil_iff.1 (visible_finish row s last) tok htok
  simp only [Bool.not_eq_true', Bool.not_eq_false] at hvisible
  simp [isCode, hvisible]

theorem LexState.brackets_eq_zero (h : s.atLineStart = true) : s.brackets = 0 := by
  simp only [atLineStart, Bool.and_eq_true, decide_eq_true_eq] at h
  exact h.1.2

theorem lexes_end {new : Bool} {p : Position} (h : lexRows row s last [] = some ts) :
    Lexes new p s.brackets t ts := by
  rw [lexRows] at h
  split at h
  next hstart =>
    obtain rfl := Option.some.inj h
    exact .finish isCode_finish (Int.le_of_eq (LexState.brackets_eq_zero hstart))
  next => contradiction

theorem length_below_lt (hne : t ≠ []) : (below t).length < t.length := by
  have hlen := congrArg List.length (firstRow_append_below t)
  have hpos := List.length_pos_iff.2 (firstRow_ne_nil hne)
  rw [List.length_append] at hlen
  omega

/-- Below a row with a string that stays open there is another row. -/
theorem mem_of_lexRows_below (hs : s.string ≠ none)
    (h : lexRows row s last (rows (below t)) = some ts) : '\n' ∈ t := by
  by_contra hm
  rw [below_eq_nil hm, rows, lexRows] at h
  cases hstring : s.string with
  | none => exact hs hstring
  | some o => simp [LexState.atLineStart, hstring] at h

/-- A text of at least one row has tokens if its first row and the rows below it have. -/
theorem exists_of_lexRows (hne : t ≠ []) (hrow : (s.atLineStart && (firstRow t).all isGap) = false)
    (h : lexRows row s last (rows t) = some ts) : ∃ us vs s', lexRow row s (firstRow t) = some (us, s') ∧
      lexRows (row + 1) s' (firstRow t) (rows (below t)) = some vs ∧ ts = us ++ vs := by
  rw [rows_eq_cons hne, lexRows, hrow] at h
  simp only [Bool.false_eq_true, if_false, Option.bind_eq_bind, Option.bind_eq_some_iff] at h
  obtain ⟨⟨us, s'⟩, hus, vs, hvs, h⟩ := h
  exact ⟨us, vs, s', hus, hvs, (Option.some.inj h).symm⟩

theorem isCode_blankRow : ∀ tok ∈ blankRow row column t, isCode tok = false := by
  intro tok htok
  simp only [blankRow, List.mem_append, List.mem_singleton, List.mem_ite_nil_left] at htok
  rcases htok with ⟨-, rfl⟩ | rfl <;> simp [isCode, Token.isLayout]

section
variable {N : Nat} (ih : ∀ u : Text, u.length < N → IsStream u)
include ih

/-- Behind a row the lexer goes on with the rows below it. -/
theorem lexes_below (hne : t ≠ []) (ht : t.length ≤ N) (hs : s.string = none)
    (h : lexRows (row + 1) s last (rows (below t)) = some ts) :
    Lexes s.atLineStart ((⟨row, column⟩ : Position).advance (firstRow t)) s.brackets (below t) ts := by
  have hlt := Nat.lt_of_lt_of_le (length_below_lt hne) ht
  rcases firstRow_cases t with hm | ⟨r, u, hr, rfl⟩
  · rw [below_eq_nil hm] at h ⊢
    exact lexes_end h
  · rw [below_rowEnd hr] at h hlt ⊢
    rw [firstRow_rowEnd hr, Position.advance_row hr]
    exact (ih u hlt).rows hs h

/-- Behind a lexeme within a row the lexer goes on with the rest of the row. -/
theorem lexes_rest (ht : t.length ≤ N) (hspan : Spans (firstRow t) n) (hn : 0 < n)
    (hs : s.string = none) (h : Scans row s (column + n) 0 ((firstRow t).drop n) ts s')
    (hus : lexRows (row + 1) s' last (rows (below t)) = some us) :
    Lexes false ((⟨row, column⟩ : Position).advance (t.take n)) s.brackets (t.drop n)
      (ts ++ us) := by
  obtain ⟨hfirst, hbelow⟩ := firstRow_drop hspan
  have hle := Nat.le_trans hspan.le (length_firstRow_le t)
  rw [advance_spans hspan]
  rw [← hfirst] at h
  rw [← hbelow] at hus
  exact (ih (t.drop n) (by rw [List.length_drop]; omega)).scans hs h hus

/-- Behind a row with a string that stays open the string goes on. -/
theorem lexes_opened {q : Char} {triple : Bool} (hne : t ≠ []) (ht : t.length ≤ N)
    (hq : q ≠ '\n') (hpass : ∀ m, Closes triple q (below t) m →
      Passes s.brackets t ((firstRow t).length + m) (some .string))
    (hus : lexRows (row + 1) { s with string := some ⟨⟨row, column⟩, firstRow t, q, triple⟩ } last
      (rows (below t)) = some us) : Lexes false ⟨row, column⟩ s.brackets t us := by
  have hlt := Nat.lt_of_lt_of_le (length_below_lt hne) ht
  have hopen : '\n' ∈ t := mem_of_lexRows_below (by simp) hus
  have hstring := (ih _ hlt).string rfl hq hus
  cases hstring with
  | @closes m tok ts hcloses hkind htext hstart hstop hrest =>
    refine .token (hkind ▸ hpass m hcloses) (by rw [take_below]; exact htext) hstart
      (by rw [advance_take_below hopen]; exact hstop) ?_
    have hchange : change tok.kind tok.text = 0 := by simp [change, hkind]
    rw [hchange, Int.add_zero]
    exact hrest.beneath hopen
  | stray hkind hrest => exact .stray hkind (hrest.beneath hopen)

theorem lexes_rowEnd {new : Bool} {l : Lexeme} (hs : Starts t l n)
    (hl : l = .rowEnd ∨ l = .escapedRowEnd) (ht : t.length ≤ N) (hstring : s.string = none)
    (hnew : s.atLineStart = new) (h : Scans row s (column + n) 0 ((firstRow t).drop n) ts s')
    (hus : lexRows (row + 1) s' last (rows (below t)) = some us) :
    Lexes new ((⟨row, column⟩ : Position).advance (t.take n)) s.brackets (t.drop n) (ts ++ us) := by
  obtain ⟨hn, htake, hdrop, r, -, hr⟩ := hs.rowEnd hl
  rw [hn, List.drop_length] at h
  obtain ⟨rfl, rfl⟩ := h.of_nil
  have hne : t ≠ [] := by
    rintro rfl
    simp [firstRow] at hr
  rw [htake, hdrop, ← hnew]
  exact lexes_below ih hne ht hstring hus

/-- Behind a lexeme that leaves a string open. -/
theorem lexes_stop (hs : Starts t l n) (hne : t ≠ []) (ht : t.length ≤ N)
    (hstops : (stepOf row column s (firstRow t) l n).1.stops = true)
    (hus : lexRows (row + 1) (stepOf row column s (firstRow t) l n).1.state last
      (rows (below t)) = some us) :
    Lexes false ⟨row, column⟩ s.brackets t
      ((stepOf row column s (firstRow t) l n).1.token.toList ++ us) := by
  cases l with
  | tripleOpen q =>
    have hq := ne_rowEnd_of_isQuote (isQuote_of_starts hs (.inl rfl))
    obtain ⟨hfirst, hbelow⟩ := firstRow_drop hs.takes.2.2
    cases hrest : tripleRest q ((firstRow t).drop n) with
    | some m => simp [stepOf, hrest] at hstops
    | none =>
      simp only [stepOf, hrest] at hus ⊢
      refine lexes_opened ih hne ht hq (fun m hm => ?_) hus
      have hcloses : Closes true q (t.drop n) ((firstRow (t.drop n)).length + m) :=
        .beneath (by rwa [hfirst]) rfl (by rwa [hbelow])
      have hpass : Passes s.brackets t (n + ((firstRow (t.drop n)).length + m)) (some .string) :=
        .triple hs hcloses
      rwa [← Nat.add_assoc, hfirst, List.length_drop,
        Nat.add_sub_cancel' hs.takes.2.2.le] at hpass
  | quotedOpen q =>
    have hq := ne_rowEnd_of_isQuote (isQuote_of_starts hs (.inr rfl))
    exact lexes_opened ih hne ht hq (fun m hm => .quoted hs hm) hus
  | _ => simp [stepOf] at hstops

/-- Behind a lexeme that leaves no string open. -/
theorem lexes_lexeme {r : Step × Nat} (hs : Starts t l n) (ht : t.length ≤ N)
    (hstring : s.string = none) (hmakes : Makes row column s (firstRow t) n l r)
    (h : Scans row r.1.state (column + r.2) 0 ((firstRow t).drop r.2) ts s')
    (hus : lexRows (row + 1) s' last (rows (below t)) = some us) :
    Lexes false ⟨row, column⟩ s.brackets t (r.1.token.toList ++ (ts ++ us)) := by
  cases hmakes with
  | @token _ kind hk hpos hspan =>
    rw [tokenKind?_firstRow] at hk
    have hstring' : ({ s with brackets := s.brackets + change kind ((firstRow t).take n) } :
        LexState).string = none := hstring
    have hrest := lexes_rest ih ht hspan hpos hstring' h hus
    rw [take_firstRow hspan.le] at hrest
    exact .of_make (.token hs hk) hspan hrest
  | @string q m hend hpos hspan =>
    obtain ⟨hfirst, -⟩ := firstRow_drop hs.takes.2.2
    have hcloses : Closes true q (t.drop n) m := .here (by rwa [hfirst])
    have hrest := lexes_rest ih ht hspan hpos hstring h hus
    refine .of_make (.triple hs hcloses) hspan ?_
    rwa [change, if_neg (by simp), Int.add_zero]
  | comment hpos hspan =>
    have hrest := lexes_rest ih ht hspan hpos hstring h hus
    refine .silent (e := [_]) (.silent hs (.inl rfl)) ?_ hrest
    simp [stepOf.make, isCode, endsLine]
  | rowEnd hl _ =>
    rcases hl with rfl | rfl
    · by_cases hb : 0 < s.brackets
      · have hnew : s.atLineStart = false := by
          have : s.brackets ≠ 0 := by omega
          simp [LexState.atLineStart, this]
        have hrest := lexes_rowEnd ih hs (.inl rfl) ht hstring hnew h hus
        refine .silent (e := [_]) (.silent hs (.inr (.inr ⟨rfl, hb⟩))) ?_ hrest
        simp [stepOf.make, isCode, endsLine, Token.isLayout, hb]
      · have hrest := lexes_rowEnd ih hs (.inl rfl) ht hstring rfl h hus
        exact .lineEnd (by simp [stepOf.make, hb]) (Int.not_lt.1 hb) hrest
    · have hnew : ({ s with continued := true } : LexState).atLineStart = false := by
        simp [LexState.atLineStart]
      have hstring' : ({ s with continued := true } : LexState).string = none := hstring
      have hrest := lexes_rowEnd ih hs (.inr rfl) ht hstring' hnew h hus
      exact .silent (e := []) (.silent hs (.inr (.inl rfl))) (by simp) hrest

theorem lexes_scans (ht : t.length ≤ N) (hstring : s.string = none)
    (h : Scans row s column 0 (firstRow t) ts s')
    (hus : lexRows (row + 1) s' last (rows (below t)) = some us) :
    Lexes false ⟨row, column⟩ s.brackets t (ts ++ us) := by
  cases t with
  | nil =>
    obtain ⟨rfl, rfl⟩ := h.of_nil
    exact lexes_end hus
  | cons c t =>
    have hne : c :: t ≠ [] := List.cons_ne_nil c t
    have hhead := head?_firstRow (c :: t)
    cases hrow : firstRow (c :: t) with
    | nil => exact absurd hrow (firstRow_ne_nil hne)
    | cons d r =>
      rw [hrow] at h hhead
      obtain rfl : d = c := by simpa using hhead
      -- One character of the row, and the rest of it.
      have hone {s₁ : LexState} {ts : List Token} (hd : d ≠ '\n') (hs₁ : s₁.string = none)
          (hrest : Scans row s₁ (column + 1) 0 r ts s') :
          Lexes false ((⟨row, column⟩ : Position).advance ((d :: t).take 1)) s₁.brackets
            ((d :: t).drop 1) (ts ++ us) := by
        refine lexes_rest ih ht ?_ Nat.one_pos hs₁ ?_ hus
        · rw [hrow]
          exact .cons hd (.zero r)
        · rw [hrow]
          exact hrest
      cases h with
      | gap hgap hon hrest =>
        have hd : d ≠ '\n' := by
          rintro rfl
          contradiction
        exact .silent (e := []) (.gap hgap) (by simp) (hone hd hstring hrest)
      | stray hstray hrest =>
        have hd : d ≠ '\n' := by
          rintro rfl
          simp [IsStray, isGap, lexeme?] at hstray
        exact .stray rfl (hone hd hstring hrest)
      | @stop _ _ n _ _ l hgap hl hstops =>
        have hs : Starts (d :: t) l n := ⟨by simpa using hgap, by rw [hrow, hl]⟩
        rw [← hrow] at hstops hus ⊢
        exact lexes_stop ih hs hne ht hstops hus
      | @lexeme _ _ _ n _ _ l ts hgap hl hstops hrest =>
        have hs : Starts (d :: t) l n := ⟨by simpa using hgap, by rw [hrow, hl]⟩
        have hmakes := makes_stepOf (hrow ▸ isRow_firstRow (d :: t)) hl hstops
        have hrest := hrest.rest (c := d) hmakes.pos
        rw [← hrow] at hmakes hrest ⊢
        rw [List.append_assoc]
        exact lexes_lexeme ih hs ht hstring hmakes hrest hus

theorem lexes_string {o : OpenString} (ht : t.length ≤ N) (ho : s.string = some o)
    (hq : o.quote ≠ '\n') (h : lexRows row s last (rows t) = some ts) :
    LexesString o s.brackets ⟨row, 0⟩ t ts := by
  have hstart : s.atLineStart = false := by simp [LexState.atLineStart, ho]
  have hne : t ≠ [] := by
    rintro rfl
    simp [rows, lexRows, hstart] at h
  obtain ⟨us, vs, s', hrow, hvs, rfl⟩ := exists_of_lexRows hne (by rw [hstart]; rfl) h
  simp only [lexRow, ho, Option.some_inj] at hrow
  have hlt := Nat.lt_of_lt_of_le (length_below_lt hne) ht
  have hend : (if o.triple then tripleRest o.quote (firstRow t)
      else continuedRest o.quote (firstRow t)) = stringEnd? o.triple o.quote (firstRow t) := rfl
  simp only [stringRow, hend] at hrow
  split at hrow
  next n hn =>
    obtain ⟨rfl, rfl⟩ := Prod.mk.inj hrow
    have hspan := spans_stringEnd? hq hn
    have hpos : 0 < n := Closes.pos hq (.here hn)
    have hscan : Scans row { s with string := none } (0 + n) 0 ((firstRow t).drop n)
        (scanRow row { s with string := none } n 0 ((firstRow t).drop n)).1
        (scanRow row { s with string := none } n 0 ((firstRow t).drop n)).2 := by
      rw [Nat.zero_add]
      exact scans_scanRow
    refine .closes (.here hn) rfl ?_ rfl ?_
      (lexes_rest (s := { s with string := none }) ih ht hspan hpos rfl hscan hvs)
    · rw [take_firstRow hspan.le]
    · rw [advance_spans hspan, Nat.zero_add]
  next hnone =>
    split at hrow
    next hgoes =>
      obtain ⟨rfl, rfl⟩ := Prod.mk.inj hrow
      have hopen : '\n' ∈ t := mem_of_lexRows_below (by simp) hvs
      have hstring := (ih _ hlt).string (o := { o with text := o.text ++ firstRow t }) rfl hq hvs
      rw [List.nil_append]
      cases hstring with
      | closes hcloses hkind htext hfrom hto hrest =>
        refine .closes (.beneath hnone hgoes hcloses) hkind ?_ hfrom
          (by rw [advance_take_below hopen]; exact hto) (hrest.beneath hopen)
        rw [take_below, ← List.append_assoc]
        exact htext
      | stray hkind hrest => exact .stray hkind (hrest.beneath hopen)
    next =>
      obtain ⟨rfl, rfl⟩ := Prod.mk.inj hrow
      have hrest : Lexes _ ((⟨row, 0⟩ : Position).advance (firstRow t)) s.brackets (below t) vs :=
        lexes_below (s := { s with string := none }) ih hne ht rfl hvs
      rw [← take_length_firstRow t] at hrest
      exact .stray rfl hrest

theorem lexes_startRow (hne : t ≠ []) (ht : t.length ≤ N) (hs : s.string = none)
    (hstart : s.atLineStart = true) (hblank : (firstRow t).all isGap = false)
    (h : startRow row s (firstRow t) = some (ts, s'))
    (hus : lexRows (row + 1) s' last (rows (below t)) = some us) :
    Lexes true ⟨row, 0⟩ s.brackets t (ts ++ us) := by
  have hzero := Int.le_of_eq (LexState.brackets_eq_zero hstart)
  have hspan : Spans (firstRow t) ((firstRow t).takeWhile isGap).length :=
    spans_takeWhile (by decide) _
  have hbody := dropWhile_eq_drop isGap (firstRow t)
  simp only [startRow] at h
  generalize (firstRow t).takeWhile isGap = gap at h hspan hbody
  -- Behind the gap the row is code, whatever blocks are open then.
  have hcode {s₁ : LexState} {e vs : List Token} (hs₁ : s₁.string = none)
      (hb : s₁.brackets = s.brackets) (he : ∀ tok ∈ e, isCode tok = false)
      (hscan : scanRow row s₁ gap.length 0 ((firstRow t).dropWhile isGap) = (vs, s')) :
      Lexes true ⟨row, 0⟩ s.brackets t (e ++ vs ++ us) := by
    obtain ⟨hfirst, hbelow⟩ := firstRow_drop hspan
    have hscan' := @scans_scanRow row (0 + gap.length) 0 s₁ (firstRow (t.drop gap.length))
    rw [Nat.zero_add, hfirst, ← hbody, hscan, hbody, ← hfirst] at hscan'
    have hrest := lexes_scans (t := t.drop gap.length) ih
      (by rw [List.length_drop]; omega) hs₁ hscan' (by rwa [hbelow])
    rw [hb, ← Nat.zero_add gap.length, ← advance_spans hspan, Nat.zero_add] at hrest
    rw [List.append_assoc]
    exact .between he hzero hrest
  split at h
  next hnil =>
    rw [List.dropWhile_eq_nil_iff] at hnil
    rw [List.all_eq_true.2 hnil] at hblank
    contradiction
  next c cs hcs =>
    split at h
    next =>
      obtain ⟨rfl, rfl⟩ := Prod.mk.inj (Option.some.inj h)
      have hrest : Lexes s.atLineStart ((⟨row, 0⟩ : Position).advance (firstRow t)) s.brackets
        (below t) us := lexes_below ih hne ht hs hus
      rw [← take_length_firstRow t] at hrest
      exact .between isCode_blankRow hzero hrest
    next =>
      split at h
      next =>
        obtain ⟨rfl, rfl⟩ := Prod.mk.inj (Option.some.inj h)
        exact @hcode { s with blocks := indentation 0 gap :: s.blocks } [_] _ hs rfl
          (by simp [isCode, Token.isLayout]) rfl
      next =>
        obtain ⟨⟨count, blocks⟩, -, h⟩ := Option.bind_eq_some_iff.1 h
        obtain ⟨rfl, rfl⟩ := Prod.mk.inj (Option.some.inj h)
        exact @hcode { s with blocks } _ _ hs rfl (by simp [isCode, Token.isLayout]) rfl

theorem lexes_rows (ht : t.length ≤ N) (hs : s.string = none)
    (h : lexRows row s last (rows t) = some ts) :
    Lexes s.atLineStart ⟨row, 0⟩ s.brackets t ts := by
  by_cases hne : t = []
  · subst hne
    exact lexes_end h
  cases hblank : s.atLineStart && (firstRow t).all isGap with
  | true =>
    rw [rows_eq_cons hne, lexRows, hblank, if_pos rfl] at h
    obtain rfl := Option.some.inj h
    have hstart := (Bool.and_eq_true _ _ ▸ hblank).1
    exact .finish isCode_finish (Int.le_of_eq (LexState.brackets_eq_zero hstart))
  | false =>
    obtain ⟨us, vs, s', hrow, hvs, rfl⟩ := exists_of_lexRows hne hblank h
    unfold lexRow at hrow
    split at hrow
    next o ho =>
      rw [hs] at ho
      contradiction
    cases hstart : s.atLineStart with
    | false =>
      rw [hstart, if_neg (by simp)] at hrow
      have hscan := @scans_scanRow row 0 0 { s with continued := false } (firstRow t)
      rw [Option.some.inj hrow] at hscan
      exact lexes_scans (s := { s with continued := false }) ih ht hs hscan hvs
    | true =>
      rw [hstart, if_pos rfl] at hrow
      rw [hstart, Bool.true_and] at hblank
      exact lexes_startRow ih hne ht hs hstart hblank hrow hvs

end

/-- The lexer goes over every text as one pass. -/
theorem isStream (t : Text) : IsStream t := by
  induction hn : t.length using Nat.strong_induction_on generalizing t with
  | _ n ih =>
    have ih' : ∀ u : Text, u.length < n → IsStream u := fun u hu => ih u.length hu u rfl
    exact ⟨lexes_rows ih' (Nat.le_of_eq hn), lexes_scans ih' (Nat.le_of_eq hn),
      lexes_string ih' (Nat.le_of_eq hn)⟩

theorem lexes_of_tokens? (h : tokens? t = some ts) : Lexes true ⟨1, 0⟩ 0 t ts :=
  (isStream t).rows rfl h

/-! ### Tokens of a pass -/

variable {new : Bool} {p : Position} {b : Int} {tok : Token} {before after : List Token}

theorem Passes.isCode (h : Passes b t n (some tok.kind)) :
    Source.isCode tok = true ∧ endsLine tok = false := by
  rcases h.kind_eq with h | h | h | h <;> simp [Source.isCode, Token.isLayout, endsLine, h]

theorem level_codes_cons (tok : Token) (ts : List Token) :
    level (codes (tok :: ts)) = change tok.kind tok.text + level (codes ts) := by
  cases hcode : isCode tok with
  | true =>
    rw [codes_cons hcode, level_cons]
    rfl
  | false =>
    have hkind : tok.kind ≠ .operator := by
      intro hk
      simp [isCode, Token.isLayout, hk] at hcode
    rw [← List.singleton_append, codes_append, codes_eq_nil (by simpa using hcode),
      List.nil_append, change, if_neg hkind, Int.zero_add]

theorem codes_append_of_quiet (h : ∀ tok ∈ ts, isCode tok = false) : codes (ts ++ us) = codes us := by
  rw [codes_append, codes_eq_nil h, List.nil_append]

/-- A member of two lists in a row stands in the second one or in the first one. -/
theorem append_eq_split {α : Type} {xs ys zs us : List α} {x : α} (h : xs ++ ys = zs ++ x :: us) :
    (∃ v, zs = xs ++ v ∧ ys = v ++ x :: us) ∨ ∃ v, xs = zs ++ x :: v := by
  rcases List.append_eq_append_iff.1 h with ⟨v, rfl, hv⟩ | ⟨v, rfl, hv⟩
  · exact .inl ⟨v, rfl, hv⟩
  · cases v with
    | nil => exact .inl ⟨[], by simp, hv.symm⟩
    | cons y v =>
      obtain ⟨rfl, -⟩ := List.cons.inj hv
      exact .inr ⟨v, rfl⟩

theorem cons_eq_split {α : Type} {y : α} {ys zs us : List α} {x : α}
    (h : y :: ys = zs ++ x :: us) :
    (∃ v, zs = y :: v ∧ ys = v ++ x :: us) ∨ zs = [] ∧ y = x ∧ ys = us := by
  cases zs with
  | nil =>
    obtain ⟨rfl, rfl⟩ := List.cons.inj h
    exact .inr ⟨rfl, rfl, rfl⟩
  | cons z zs =>
    obtain ⟨rfl, hys⟩ := List.cons.inj h
    exact .inl ⟨zs, rfl, hys⟩

/-- A token that ends a logical line stands outside brackets. -/
theorem Lexes.outside (h : Lexes new p b t ts) (hts : ts = before ++ tok :: after)
    (hend : endsLine tok = true) : b + level (codes before) ≤ 0 := by
  induction h generalizing before with
  | finish hquiet hb =>
    rw [codes_eq_nil fun u hu => hquiet u (by simp [hts, hu])]
    simpa [level] using hb
  | between hquiet hb _ ih =>
    rcases append_eq_split hts with ⟨v, rfl, hv⟩ | ⟨v, rfl⟩
    · rw [codes_append_of_quiet hquiet]
      exact ih hv
    · rw [codes_eq_nil fun u hu => hquiet u (by simp [hu])]
      simpa [level] using hb
  | @lineEnd _ _ _ _ _ first _ hkind hb _ ih =>
    rcases cons_eq_split hts with ⟨v, rfl, hv⟩ | ⟨rfl, -, -⟩
    · have hquiet : ∀ u ∈ [first], isCode u = false := by simp [isCode, Token.isLayout, hkind]
      rw [← List.singleton_append, codes_append_of_quiet hquiet]
      exact ih hv
    · simpa [codes, level] using hb
  | @stray _ _ _ _ _ first _ hkind _ ih =>
    rcases cons_eq_split hts with ⟨v, rfl, hv⟩ | ⟨-, rfl, -⟩
    · rw [level_codes_cons, change, if_neg (by simp [hkind]), Int.zero_add]
      exact ih hv
    · simp [endsLine, hkind] at hend
  | silent _ hquiet _ ih =>
    rcases append_eq_split hts with ⟨v, rfl, hv⟩ | ⟨v, rfl⟩
    · rw [codes_append_of_quiet fun u hu => (hquiet u hu).1]
      exact ih hv
    · rw [(hquiet tok (by simp)).2] at hend
      contradiction
  | token hpass _ _ _ _ ih =>
    rcases cons_eq_split hts with ⟨v, rfl, hv⟩ | ⟨-, rfl, -⟩
    · rw [level_codes_cons, ← Int.add_assoc]
      exact ih hv
    · rw [hpass.isCode.2] at hend
      contradiction

/-- Where a token of code stands, the rest of the text is read from the brackets that are open
there. -/
theorem Lexes.exists_at (h : Lexes new p b t ts) (hts : ts = before ++ tok :: after)
    (hcode : isCode tok = true) (hkind : tok.kind ≠ .stray) : ∃ x u, t = x ++ u ∧
      p.advance x = tok.start ∧ Lexes false tok.start (b + level (codes before)) u (tok :: after) ∧
      Passes (b + level (codes before)) u tok.text.length (some tok.kind) ∧ tok.text <+: u := by
  -- A piece in front of the rest that adds nothing to the open brackets.
  have hbehind {t : Text} {n : Nat} {p : Position} {b b' d : Int} (hb : b + d = b')
      (h : ∃ x u, t.drop n = x ++ u ∧ (p.advance (t.take n)).advance x = tok.start ∧
        Lexes false tok.start (b + d) u (tok :: after) ∧
        Passes (b + d) u tok.text.length (some tok.kind) ∧ tok.text <+: u) :
      ∃ x u, t = x ++ u ∧ p.advance x = tok.start ∧ Lexes false tok.start b' u (tok :: after) ∧
        Passes b' u tok.text.length (some tok.kind) ∧ tok.text <+: u := by
    subst hb
    obtain ⟨x, u, ht, hp, hrest⟩ := h
    refine ⟨t.take n ++ x, u, ?_, ?_, hrest⟩
    · rw [List.append_assoc, ← ht, List.take_append_drop]
    · rw [Position.advance_append, hp]
  induction h generalizing before with
  | finish hquiet => 
    rw [hquiet tok (by simp [hts])] at hcode
    contradiction
  | between hquiet _ _ ih =>
    rcases append_eq_split hts with ⟨v, rfl, hv⟩ | ⟨v, rfl⟩
    · exact hbehind (by rw [codes_append_of_quiet hquiet]) (ih hv)
    · rw [hquiet tok (by simp)] at hcode
      contradiction
  | @lineEnd _ _ _ _ _ first _ hend _ _ ih =>
    have hquiet : ∀ u ∈ [first], isCode u = false := by simp [isCode, Token.isLayout, hend]
    rcases cons_eq_split hts with ⟨v, rfl, hv⟩ | ⟨-, rfl, -⟩
    · refine hbehind ?_ (ih hv)
      rw [← List.singleton_append, codes_append_of_quiet hquiet]
    · rw [hquiet first (by simp)] at hcode
      contradiction
  | @stray _ _ _ _ _ first _ hstray _ ih =>
    rcases cons_eq_split hts with ⟨v, rfl, hv⟩ | ⟨-, rfl, -⟩
    · refine hbehind ?_ (ih hv)
      rw [level_codes_cons, change, if_neg (by simp [hstray]), Int.zero_add]
    · exact absurd hstray hkind
  | silent _ hquiet _ ih =>
    rcases append_eq_split hts with ⟨v, rfl, hv⟩ | ⟨v, rfl⟩
    · exact hbehind (by rw [codes_append_of_quiet fun u hu => (hquiet u hu).1]) (ih hv)
    · rw [(hquiet tok (by simp)).1] at hcode
      contradiction
  | @token p b t n first ts hpass htext hstart hstop hrest ih =>
    rcases cons_eq_split hts with ⟨v, rfl, hv⟩ | ⟨rfl, rfl, rfl⟩
    · refine hbehind ?_ (ih hv)
      rw [level_codes_cons, ← Int.add_assoc]
    · have hlen : first.text.length = n := by rw [htext, List.length_take_of_le hpass.bounds.2]
      have hlevel : b + level (codes []) = b := by simp [codes, level]
      refine ⟨[], t, rfl, hstart.symm, ?_, ?_, ?_⟩
      · rw [hlevel, hstart]
        exact .token hpass htext hstart hstop hrest
      · rwa [hlevel, hlen]
      · rw [htext]
        exact List.take_prefix n t

end VariableReport.Source
