import VariableReport.Proofs.Source.Lexeme

/-!
# Tokens lie in their text

The tokens that are no layout follow one another in the text, in order, without overlap and
with nothing but gaps between them, and each one stands where its positions say
(`laid_of_tokens?`). Reading a piece of a row is stated as one step from a lexer state to the
next (`Covers`), and the steps of a row compose. A string that is open between two rows is
held by the state: what is laid out then begins where the string began.

A stray piece may hold the line feed of its row, and only its start is spoken of. Offsets
are counted along lines and positions along rows, so a position gives the offset of its
text where the line feed is the only line boundary (`offset_advance`).
-/

namespace VariableReport.Source
open Text

/-- The position after a text that starts at a position. -/
def Position.advance (p : Position) : Text → Position
  | [] => p
  | c :: cs => advance (if c = '\n' then ⟨p.row + 1, 0⟩ else ⟨p.row, p.column + 1⟩) cs

/-- Tokens that stand in a text one after the other, the text starting at a position. -/
inductive Laid : Position → Text → List Token → Prop
  | done (p : Position) (t : Text) : Laid p t []
  | token {p : Position} {gap t : Text} {tok : Token} {ts : List Token} :
      tok.start = p.advance gap →
      (tok.kind ≠ .stray → tok.stop = tok.start.advance tok.text) →
      Laid (tok.start.advance tok.text) t ts → Laid p (gap ++ (tok.text ++ t)) (tok :: ts)

variable {p : Position} {t u : Text} {ts us : List Token} {s s' s'' : LexState}

theorem Position.advance_append (p : Position) (t u : Text) :
    p.advance (t ++ u) = (p.advance t).advance u := by
  induction t generalizing p with
  | nil => rfl
  | cons c t ih => exact ih _

theorem Position.advance_of_not_mem (h : '\n' ∉ t) :
    p.advance t = ⟨p.row, p.column + t.length⟩ := by
  induction t generalizing p with
  | nil => rfl
  | cons c t ih =>
    simp only [List.mem_cons, not_or] at h
    rw [advance, if_neg (Ne.symm h.1), ih h.2, List.length_cons]
    simp only [Position.mk.injEq, true_and]
    omega

theorem Position.advance_row (h : '\n' ∉ t) : p.advance (t ++ ['\n']) = ⟨p.row + 1, 0⟩ := by
  rw [advance_append, advance_of_not_mem h]
  simp [advance]

/-- A position moves with every character. -/
theorem Position.advance_le (p : Position) (t : Text) :
    p.row ≤ (p.advance t).row ∧ ((p.advance t).row = p.row →
      (p.advance t).column = p.column + t.length) := by
  induction t generalizing p with
  | nil => exact ⟨Nat.le_refl _, fun _ => rfl⟩
  | cons c t ih =>
    rw [advance, List.length_cons]
    split
    · have := (ih ⟨p.row + 1, 0⟩).1
      dsimp only at this
      exact ⟨by omega, fun h => by omega⟩
    · obtain ⟨h1, h2⟩ := ih ⟨p.row, p.column + 1⟩
      dsimp only at h1 h2
      exact ⟨h1, fun h => by rw [h2 h]; omega⟩

theorem Position.eq_nil_of_advance_eq {p : Position} {t : Text} (h : p.advance t = p) : t = [] := by
  have hcolumn := (p.advance_le t).2 (by rw [h])
  rw [h] at hcolumn
  exact List.length_eq_zero_iff.1 (by omega)

/-- A position determines the text before it. -/
theorem Position.advance_cancel {p : Position} {a a' b b' : Text} (h : a ++ b = a' ++ b')
    (hp : p.advance a = p.advance a') : a = a' ∧ b = b' := by
  rcases List.append_eq_append_iff.1 h with ⟨d, rfl, rfl⟩ | ⟨d, rfl, rfl⟩
  · rw [advance_append] at hp
    obtain rfl := eq_nil_of_advance_eq hp.symm
    simp
  · rw [advance_append] at hp
    obtain rfl := eq_nil_of_advance_eq hp
    simp

namespace Laid

theorem skip (h : Laid (p.advance t) u ts) : Laid p (t ++ u) ts := by
  generalize hq : p.advance t = q at h
  cases h with
  | done => exact .done p _
  | @token _ gap v tok ts hstart hstop h =>
    have hstart' : tok.start = p.advance (t ++ gap) := by
      rw [Position.advance_append, hq, hstart]
    have := Laid.token hstart' hstop h
    rwa [List.append_assoc] at this

theorem filter (h : Laid p t ts) (f : Token → Bool) : Laid p t (ts.filter f) := by
  induction h with
  | done p t => exact .done p t
  | @token p gap t tok ts hstart hstop _ ih =>
    rw [List.filter_cons]
    split
    · exact .token hstart hstop ih
    · rw [hstart, ← Position.advance_append] at ih
      rw [← List.append_assoc]
      exact ih.skip

end Laid

/-- The tokens that are no layout. -/
def visible (ts : List Token) : List Token := ts.filter fun t => !t.isLayout

theorem visible_append (ts us : List Token) : visible (ts ++ us) = visible ts ++ visible us :=
  List.filter_append ..

namespace LexState

/-- Where the text that is not laid out yet begins: at the open string, or here. -/
def mark (s : LexState) (p : Position) : Position := (s.string.map OpenString.start).getD p

/-- The text of the open string so far. -/
def held (s : LexState) : Text := (s.string.map OpenString.text).getD []

/-- The state fits a position: an open string reaches from its start to here. -/
structure Fits (s : LexState) (p : Position) : Prop where
  reaches : (s.mark p).advance s.held = p
  quote : ∀ o, s.string = some o → o.quote ≠ '\n'

theorem mark_of_none (h : s.string = none) : s.mark p = p := by simp [mark, h]

theorem held_of_none (h : s.string = none) : s.held = [] := by simp [held, h]

theorem fits_of_none (h : s.string = none) : s.Fits p :=
  ⟨by rw [mark_of_none h, held_of_none h]; rfl, by simp [h]⟩

end LexState

/-- Reading a text at a position brings the lexer from one state to the next and lays out the
tokens in front of those that follow. -/
structure Covers (s : LexState) (p : Position) (t : Text) (ts : List Token) (s' : LexState) :
    Prop where
  fits : s'.Fits (p.advance t)
  laid : ∀ u us, Laid (s'.mark (p.advance t)) (s'.held ++ u) us →
    Laid (s.mark p) (s.held ++ (t ++ u)) (visible ts ++ us)

namespace Covers

theorem append (h : Covers s p t ts s') (k : Covers s' (p.advance t) u us s'') :
    Covers s p (t ++ u) (ts ++ us) s'' := by
  have hp := p.advance_append t u
  refine ⟨hp ▸ k.fits, fun v vs hv => ?_⟩
  rw [hp] at hv
  rw [visible_append, List.append_assoc, List.append_assoc]
  exact h.laid _ _ (k.laid v vs hv)

/-- Nothing is laid out. -/
theorem plain (hs : s.string = none) (hs' : s'.string = none) (h : visible ts = []) :
    Covers s p t ts s' := by
  refine ⟨LexState.fits_of_none hs', fun u us hu => ?_⟩
  rw [LexState.mark_of_none hs', LexState.held_of_none hs'] at hu
  rw [LexState.mark_of_none hs, LexState.held_of_none hs, h]
  exact hu.skip

/-- One token is laid out, after what the state holds. -/
theorem token {tok : Token} (hs : s.Fits p) (hs' : s'.string = none)
    (hl : tok.isLayout = false) (hstart : tok.start = s.mark p) (htext : tok.text = s.held ++ t)
    (hstop : tok.kind ≠ .stray → tok.stop = p.advance t) : Covers s p t [tok] s' := by
  have hend : tok.start.advance tok.text = p.advance t := by
    rw [hstart, htext, Position.advance_append, hs.reaches]
  refine ⟨LexState.fits_of_none hs', fun u us hu => ?_⟩
  rw [LexState.mark_of_none hs', LexState.held_of_none hs', List.nil_append, ← hend] at hu
  have hgap : tok.start = (s.mark p).advance [] := hstart
  have := Laid.token hgap (fun hk => (hstop hk).trans hend.symm) hu
  simpa [visible, hl, htext] using this

/-- The text is held back for an open string. -/
theorem hold {o : OpenString} (hs : s.Fits p) (hs' : s'.string = some o) (hq : o.quote ≠ '\n')
    (hstart : o.start = s.mark p) (htext : o.text = s.held ++ t) : Covers s p t [] s' := by
  have hmark (q : Position) : s'.mark q = s.mark p := by simp [LexState.mark, hs', hstart]
  have hheld : s'.held = s.held ++ t := by simp [LexState.held, hs', htext]
  refine ⟨⟨?_, ?_⟩, fun u us hu => ?_⟩
  · rw [hmark, hheld, Position.advance_append, hs.reaches]
  · intro o' ho
    rw [hs'] at ho
    rwa [← Option.some.inj ho]
  · rw [hmark, hheld, List.append_assoc] at hu
    exact hu

end Covers

/-- One lexeme covers what it takes, or the whole rest of the row when a string stays open. -/
theorem covers_stepOf (row column : Nat) {l : Lexeme} {n : Nat} (ht : IsRow t)
    (hs : s.string = none) (hl : l.Takes t n) :
    let r := stepOf row column s t l n
    (r.1.stops = true → Covers s ⟨row, column⟩ t r.1.token.toList r.1.state) ∧
    (r.1.stops = false → 0 < r.2 ∧ r.1.state.string = none ∧
      Covers s ⟨row, column⟩ (t.take r.2) r.1.token.toList r.1.state) := by
  have hfits : s.Fits ⟨row, column⟩ := LexState.fits_of_none hs
  have hmark : s.mark ⟨row, column⟩ = ⟨row, column⟩ := LexState.mark_of_none hs
  have hheld := LexState.held_of_none hs
  -- A token that is made of `n` characters of the row.
  have hmake {k : TokenKind} {n : Nat} {s' : LexState} (hs' : s'.string = none)
      (hk : (stepOf.make row column t k n).isLayout = false) (hn : Spans t n) :
      Covers s ⟨row, column⟩ (t.take n) [stepOf.make row column t k n] s' := by
    refine .token hfits hs' hk hmark.symm (by rw [hheld]; rfl) fun _ => ?_
    have hlen : (t.take n).length = n := List.length_take_of_le hn.le
    rw [Position.advance_of_not_mem hn.row, hlen]
    rfl
  have hopen {q : Char} {b : Bool} (hq : q ≠ '\n') :
      Covers s ⟨row, column⟩ t [] { s with string := some ⟨⟨row, column⟩, t, q, b⟩ } := by
    exact .hold hfits rfl hq hmark.symm (by rw [hheld]; rfl)
  cases l with
  | escapedRowEnd => exact ⟨by simp [stepOf], fun _ => ⟨hl.1, hs, .plain hs hs rfl⟩⟩
  | comment => exact ⟨by simp [stepOf], fun _ => ⟨hl.1, hs, hmake hs rfl hl.2⟩⟩
  | tripleOpen q =>
    obtain ⟨hq, hn, hspan⟩ := hl
    simp only [stepOf]
    split
    next m hm =>
      have hm := spans_tripleRest hq (ht.drop n) hm
      exact ⟨by simp, fun _ => ⟨by omega, hs, hmake hs rfl (hspan.add hm)⟩⟩
    next => exact ⟨fun _ => hopen hq, by simp⟩
  | number => exact ⟨by simp [stepOf], fun _ => ⟨hl.1, hs, hmake hs rfl hl.2⟩⟩
  | rowEnd =>
    refine ⟨by simp [stepOf], fun _ => ⟨hl.1, hs, .plain hs hs ?_⟩⟩
    simp only [stepOf]
    split <;> rfl
  | operator => exact ⟨by simp [stepOf], fun _ => ⟨hl.1, hs, hmake hs rfl hl.2⟩⟩
  | quoted => exact ⟨by simp [stepOf], fun _ => ⟨hl.1, hs, hmake hs rfl hl.2⟩⟩
  | quotedOpen q => exact ⟨fun _ => hopen hl, by simp [stepOf]⟩
  | word =>
    refine ⟨by simp [stepOf], fun _ => ⟨hl.1, hs, hmake hs ?_ hl.2⟩⟩
    rcases wordKind_eq t with h | h <;> rw [h] <;> rfl

theorem covers_strayAt (row column : Nat) (c : Char) (hs : s.string = none) :
    Covers s ⟨row, column⟩ [c] [strayAt row column c] s := by
  refine .token (LexState.fits_of_none hs) hs rfl (LexState.mark_of_none hs).symm ?_ ?_
  · rw [LexState.held_of_none hs]
    rfl
  · exact fun h => absurd rfl h

/-- The rest of a row, of which `skip` characters belong to a lexeme already. -/
theorem covers_scanRow (row column : Nat) (ht : IsRow t) (hs : s.string = none) (skip : Nat) :
    Covers s ((⟨row, column⟩ : Position).advance (t.take skip)) (t.drop skip)
      (scanRow row s column skip t).1 (scanRow row s column skip t).2 := by
  induction t generalizing s column skip with
  | nil =>
    have hnil : scanRow row s column skip [] = ([], s) := by cases skip <;> rfl
    rw [hnil]
    exact .plain hs hs rfl
  | cons c t ih =>
    -- Behind the first character the induction hypothesis speaks of the next column.
    have hrest {s' : LexState} (hs' : s'.string = none) (k : Nat) :
        Covers s' ((⟨row, column⟩ : Position).advance ((c :: t).take (k + 1))) (t.drop k)
          (scanRow row s' (column + 1) k t).1 (scanRow row s' (column + 1) k t).2 := by
      by_cases hc : c = '\n'
      · subst hc
        have hnil : t = [] := ht.eq_nil
        have hscan : scanRow row s' (column + 1) k [] = ([], s') := by cases k <;> rfl
        rw [hnil, hscan]
        exact .plain hs' hs' (by rfl)
      · have := ih (column + 1) ht.tail hs' k
        rw [List.take_succ_cons, Position.advance, if_neg hc]
        exact this
    cases skip with
    | succ k => exact hrest hs k
    | zero =>
      rw [scanRow]
      split
      next hg =>
        have hgap : Covers s ⟨row, column⟩ [c] [] s := .plain hs hs rfl
        dsimp only
        split
        · exact hgap.append (hrest hs 0)
        · exact (covers_strayAt row column c hs).append (hrest hs 0)
      next hg =>
        split
        next => exact (covers_strayAt row column c hs).append (hrest hs 0)
        next l n hl =>
          obtain ⟨hstop, hgo⟩ := covers_stepOf row column ht hs (takes_lexeme? hl)
          dsimp only
          split
          next h => exact hstop h
          next h =>
            obtain ⟨hn, hs', hstep⟩ := hgo (by simpa using h)
            generalize stepOf row column s (c :: t) l n = r at hn hs' hstep ⊢
            obtain ⟨k, hk⟩ := Nat.exists_eq_succ_of_ne_zero (Nat.ne_of_gt hn)
            rw [hk] at hstep ⊢
            have := hstep.append (hrest hs' k)
            rw [List.take_succ_cons, List.cons_append, List.take_append_drop] at this
            exact this

theorem covers_row {tokens : List Token} (row : Nat) (ht : IsRow t) (hs : s.string = none)
    {n : Nat} (h : Covers s' p (t.take n) tokens s)
    (hp : p.advance (t.take n) = ⟨row, n⟩) :
    Covers s' p t (tokens ++ (scanRow row s n 0 (t.drop n)).1)
      (scanRow row s n 0 (t.drop n)).2 := by
  have hscan := covers_scanRow row n (ht.drop n) hs 0
  rw [List.take_zero, Position.advance, List.drop_zero, ← hp] at hscan
  have := h.append hscan
  rwa [List.take_append_drop] at this

theorem covers_blankRow (row column : Nat) (ht : IsRow t) (hs : s.string = none) :
    Covers s ⟨row, column⟩ t (blankRow row column t) s := by
  simp only [blankRow]
  have hbody : ∃ n, (if t.head? = some '#' then
      (t.reverse.dropWhile blankRow.isRowEndChar).reverse else []) = t.take n ∧ Spans t n := by
    split
    · have hp : (t.reverse.dropWhile blankRow.isRowEndChar).reverse <+: t := by
        have := List.reverse_prefix.2 (List.dropWhile_suffix (l := t.reverse) blankRow.isRowEndChar)
        rwa [List.reverse_reverse] at this
      refine ⟨_, List.prefix_iff_eq_take.1 hp, .of_initial hp fun hm => ?_⟩
      obtain ⟨rest, hrest⟩ := hp
      obtain ⟨a, b, hab⟩ := List.append_of_mem hm
      -- Nothing follows a line feed, so one in the comment would be its last character.
      have hb : b ++ rest = [] := by
        refine ht a _ ?_
        rw [← hrest, hab]
        simp
      obtain rfl := (List.append_eq_nil_iff.1 hb).1
      have hlast := List.head?_dropWhile_not blankRow.isRowEndChar t.reverse
      rw [List.reverse_eq_iff.1 hab] at hlast
      simp [blankRow.isRowEndChar] at hlast
    · exact ⟨0, by simp, .zero t⟩
  obtain ⟨n, hn, hspan⟩ := hbody
  rw [hn]
  have hlen : (t.take n).length = n := List.length_take_of_le hspan.le
  have hend : Covers s ((⟨row, column⟩ : Position).advance (t.take n)) (t.drop n)
      [⟨.rowEnd, t.drop (t.take n).length, ⟨row, column + (t.take n).length⟩,
        ⟨row, column + t.length⟩⟩] s := .plain hs hs rfl
  have hcomment : Covers s ⟨row, column⟩ (t.take n)
      (if (t.take n).isEmpty then [] else
        [⟨.comment, t.take n, ⟨row, column⟩, ⟨row, column + (t.take n).length⟩⟩]) s := by
    split
    · exact .plain hs hs rfl
    · refine .token (LexState.fits_of_none hs) hs rfl (LexState.mark_of_none hs).symm ?_ fun _ => ?_
      · rw [LexState.held_of_none hs]
        rfl
      · rw [Position.advance_of_not_mem hspan.row]
  have := hcomment.append hend
  rwa [List.take_append_drop] at this

theorem covers_startRow (row : Nat) (ht : IsRow t) (hs : s.string = none)
    (h : startRow row s t = some (ts, s')) : Covers s ⟨row, 0⟩ t ts s' := by
  have hspan : Spans t (t.takeWhile isGap).length := spans_takeWhile (by decide) t
  have hgap : t.takeWhile isGap = t.take (t.takeWhile isGap).length :=
    List.prefix_iff_eq_take.1 (List.takeWhile_prefix isGap)
  simp only [startRow] at h
  rw [dropWhile_eq_drop] at h
  generalize t.takeWhile isGap = gap at h hspan hgap
  have hp : (⟨row, 0⟩ : Position).advance (t.take gap.length) = ⟨row, gap.length⟩ := by
    rw [Position.advance_of_not_mem hspan.row, ← hgap]
    simp
  have hlayout {tokens : List Token} {s₁ : LexState} (hs₁ : s₁.string = none)
      (hv : visible tokens = []) : Covers s ⟨row, 0⟩ (t.take gap.length) tokens s₁ :=
    .plain hs hs₁ hv
  split at h
  next hnil =>
    obtain ⟨rfl, rfl⟩ := Prod.mk.inj (Option.some.inj h)
    exact .plain hs hs rfl
  next c cs hcs =>
    split at h
    next =>
      obtain ⟨rfl, rfl⟩ := Prod.mk.inj (Option.some.inj h)
      have hblank := covers_blankRow row gap.length (ht.drop gap.length) hs
      rw [← hp] at hblank
      have hnone : visible [] = [] := rfl
      have := (hlayout hs hnone).append hblank
      rwa [List.take_append_drop] at this
    next =>
      split at h
      next =>
        obtain ⟨rfl, rfl⟩ := Prod.mk.inj (Option.some.inj h)
        have hindent : visible [⟨.indent, gap, ⟨row, 0⟩, ⟨row, gap.length⟩⟩] = [] := rfl
        have hs₁ : ({ s with blocks := indentation 0 gap :: s.blocks } : LexState).string = none := hs
        exact covers_row row ht hs₁ (hlayout hs₁ hindent) hp
      next =>
        obtain ⟨⟨count, blocks⟩, -, h⟩ := Option.bind_eq_some_iff.1 h
        obtain ⟨rfl, rfl⟩ := Prod.mk.inj (Option.some.inj h)
        have hdedent : visible (List.replicate count
            ⟨.dedent, [], ⟨row, gap.length⟩, ⟨row, gap.length⟩⟩) = [] := by
          simp [visible, Token.isLayout]
        have hs₁ : ({ s with blocks } : LexState).string = none := hs
        exact covers_row row ht hs₁ (hlayout hs₁ hdedent) hp

theorem covers_stringRow (row : Nat) (ht : IsRow t) {o : OpenString} (ho : s.string = some o)
    (hs : s.Fits ⟨row, 0⟩) :
    Covers s ⟨row, 0⟩ t (stringRow row s o t).1 (stringRow row s o t).2 := by
  have hmark : o.start = s.mark ⟨row, 0⟩ := by simp [LexState.mark, ho]
  have hheld : o.text = s.held := by simp [LexState.held, ho]
  have hq := hs.quote o ho
  simp only [stringRow]
  split
  next n hn =>
    have hspan : Spans t n := by
      split at hn
      · exact spans_tripleRest hq ht hn
      · exact spans_continuedRest hq ht hn
    have hp : (⟨row, 0⟩ : Position).advance (t.take n) = ⟨row, n⟩ := by
      rw [Position.advance_of_not_mem hspan.row, List.length_take_of_le hspan.le, Nat.zero_add]
    have hnone : ({ s with string := none } : LexState).string = none := rfl
    have hstring : Covers s ⟨row, 0⟩ (t.take n)
        [⟨.string, o.text ++ t.take n, o.start, ⟨row, n⟩⟩] { s with string := none } :=
      .token hs rfl rfl hmark (by rw [hheld]) fun _ => hp.symm
    exact covers_row row ht hnone hstring hp
  next =>
    split
    · exact .hold hs rfl hq hmark (by rw [hheld])
    · exact .token hs rfl rfl hmark (by rw [hheld]) fun h => absurd rfl h

theorem covers_lexRow (row : Nat) (ht : IsRow t) (hs : s.Fits ⟨row, 0⟩)
    (h : lexRow row s t = some (ts, s')) : Covers s ⟨row, 0⟩ t ts s' := by
  unfold lexRow at h
  split at h
  next o ho =>
    have := covers_stringRow row ht ho hs
    rwa [Option.some.inj h] at this
  next hnone =>
    split at h
    · exact covers_startRow row ht hnone h
    · have hscan := covers_scanRow row 0 (s := { s with continued := false }) ht hnone 0
      rw [Option.some.inj h] at hscan
      refine ⟨hscan.fits, fun u us hu => ?_⟩
      exact hscan.laid u us hu

theorem visible_finish (row : Nat) (s : LexState) (last : Text) :
    visible (finish row s last) = [] := by
  unfold visible
  rw [List.filter_eq_nil_iff]
  intro t ht
  simp only [finish, List.mem_append, List.mem_singleton, List.mem_ite_nil_right] at ht
  rcases ht with (⟨-, rfl⟩ | ht) | rfl
  · simp [Token.isLayout]
  · rw [List.eq_of_mem_replicate ht]
    simp [Token.isLayout]
  · simp [Token.isLayout]

/-- The tokens of rows lie in the rows, behind what the state holds. -/
theorem laid_of_lexRows {rows : List Text} {last : Text} (row : Nat) (hr : AreRows rows)
    (hs : s.Fits ⟨row, 0⟩) (h : lexRows row s last rows = some ts) :
    Laid (s.mark ⟨row, 0⟩) (s.held ++ rows.flatten) (visible ts) := by
  induction hr generalizing row s last ts with
  | nil =>
    rw [lexRows] at h
    split at h
    · rw [← Option.some.inj h, visible_finish]
      exact .done _ _
    · contradiction
  | @last line hl =>
    rw [lexRows] at h
    split at h
    · rw [← Option.some.inj h, visible_finish]
      exact .done _ _
    · obtain ⟨⟨tokens, s'⟩, hline, h⟩ := Option.bind_eq_some_iff.1 h
      obtain ⟨rest, hrest, h⟩ := Option.bind_eq_some_iff.1 h
      obtain rfl := Option.some.inj h
      have hcover := covers_lexRow row (isRow_of_not_mem hl) hs hline
      have hnone : visible rest = [] := by
        rw [lexRows] at hrest
        split at hrest
        · rw [← Option.some.inj hrest, visible_finish]
        · contradiction
      have := hcover.laid [] [] (.done _ _)
      simpa [visible_append, hnone] using this
  | @cons line rows hl _ ih =>
    rw [lexRows] at h
    split at h
    · rw [← Option.some.inj h, visible_finish]
      exact .done _ _
    · obtain ⟨⟨tokens, s'⟩, hline, h⟩ := Option.bind_eq_some_iff.1 h
      obtain ⟨rest, hrest, h⟩ := Option.bind_eq_some_iff.1 h
      obtain rfl := Option.some.inj h
      have hcover := covers_lexRow row (isRow_append hl) hs hline
      have hnext : (⟨row, 0⟩ : Position).advance (line ++ ['\n']) = ⟨row + 1, 0⟩ :=
        Position.advance_row hl
      have hfits := hcover.fits
      rw [hnext] at hfits
      have htail := ih (row + 1) hfits hrest
      rw [← hnext] at htail
      rw [visible_append, List.flatten_cons]
      exact hcover.laid _ _ htail

/-- The tokens of a text that are no layout stand in it one after the other, where their
positions say. -/
theorem laid_of_tokens? (h : tokens? t = some ts) : Laid ⟨1, 0⟩ t (visible ts) := by
  have hs : ({} : LexState).string = none := rfl
  have := laid_of_lexRows 1 (areRows_rows t) (LexState.fits_of_none hs) h
  rwa [flatten_rows] at this

/-- The rows above a position and its column hold the text before it. -/
theorem length_rows_before (row : Nat) (t u : Text) :
    row ≤ ((⟨row, 0⟩ : Position).advance t).row ∧
    ((rows (t ++ u)).take (((⟨row, 0⟩ : Position).advance t).row - row)).flatten.length +
      ((⟨row, 0⟩ : Position).advance t).column = t.length := by
  induction hn : t.length using Nat.strongRecOn generalizing t row with
  | ind n ih =>
    by_cases hm : '\n' ∈ t
    · obtain ⟨line, rest, rfl, hline⟩ := List.eq_append_cons_of_mem hm
      simp only [List.length_append, List.length_cons] at hn
      obtain ⟨hrow, hlen⟩ := ih rest.length (by omega) (row + 1) rest rfl
      have hp : (⟨row, 0⟩ : Position).advance (line ++ '\n' :: rest) =
          (⟨row + 1, 0⟩ : Position).advance rest := by
        rw [List.append_cons, Position.advance_append, Position.advance_row hline]
      have htake : ((⟨row + 1, 0⟩ : Position).advance rest).row - row =
          ((⟨row + 1, 0⟩ : Position).advance rest).row - (row + 1) + 1 := by omega
      rw [hp, List.append_assoc, List.cons_append, rows_append hline, htake, List.take_succ_cons,
        List.flatten_cons, List.length_append, List.length_append, List.length_singleton]
      omega
    · rw [Position.advance_of_not_mem hm]
      simp [hn]

/-- The offset of a position is the length of the text before it. -/
theorem offset_advance (t u : Text) (h : ∀ c ∈ t ++ u, isLineBreak c = true → c = '\n') :
    offset (t ++ u) ((⟨1, 0⟩ : Position).advance t) = t.length := by
  unfold offset
  rw [lines_eq_rows h]
  exact (length_rows_before 1 t u).2

/-- The offsets of the positions in front of a piece and behind it. -/
theorem offset_piece (t u v : Text) (h : ∀ c ∈ t ++ (u ++ v), isLineBreak c = true → c = '\n') :
    offset (t ++ (u ++ v)) ((⟨1, 0⟩ : Position).advance t) = t.length ∧
      offset (t ++ (u ++ v)) (((⟨1, 0⟩ : Position).advance t).advance u) = (t ++ u).length := by
  refine ⟨offset_advance t (u ++ v) h, ?_⟩
  have hstop := offset_advance (t ++ u) v (by rwa [List.append_assoc])
  rwa [List.append_assoc, Position.advance_append] at hstop

end VariableReport.Source
