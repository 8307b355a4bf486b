import VariableReport.Proofs.Source.Lowering
import VariableReport.Proofs.Source.Magic
import VariableReport.Proofs.Source.RowEnd
import VariableReport.Proofs.Text.Blank
import VariableReport.Source.Statement

/-!
# Lines that stand alone

A line that can be lexed on its own, that is not indented and that does not end with a backslash
leaves the lexer as it found it: nothing is open behind it. Between other such lines it
therefore has the tokens that it has on its own, up to layout at its end (`LineTokens`), and the
tokens of a source of such lines are those of its rows (`lexRows_lines`).
-/

namespace VariableReport.Source
open Text

/-- One line, neither indented nor for the shell. -/
structure IsPlainLine (line : Text) : Prop where
  bare : ∀ c ∈ line, isLineBreak c = false
  first : ∀ c ∈ line.head?, isBlank c = false ∧ c ≠ '%' ∧ c ≠ '!'

/-- The line can be lexed on its own and does not go on on the next one. -/
structure StandsAlone (line : Text) : Prop extends IsPlainLine line where
  last : line.getLast? ≠ some '\\'
  lexes : (tokens? line).isSome

instance (line : Text) : Decidable (StandsAlone line) :=
  decidable_of_iff ((line.all fun c => !isLineBreak c) = true ∧
      (line.head?.toList.all fun c => !isBlank c && c ≠ '%' && c ≠ '!') = true ∧
      line.getLast? ≠ some '\\' ∧ (tokens? line).isSome)
    ⟨fun ⟨hbare, hfirst, hlast, hlexes⟩ =>
        ⟨⟨by simpa using hbare, by simpa [and_assoc] using hfirst⟩, hlast, hlexes⟩,
      fun h => ⟨by simpa using h.bare, by simpa [and_assoc] using h.first, h.last, h.lexes⟩⟩

/-- The tokens that a line has in the first row of a cell, and those that it has on its own. -/
inductive LineTokens (line : Text) : List Token → List Token → Prop
  | blank {e m : Token} : line = [] → e.kind = .rowEnd → m.kind = .endMarker →
      LineTokens line [e] [m]
  | comment {c e e' m : Token} : line.head? = some '#' → c.kind = .comment → c.text = line →
      e.kind = .rowEnd → e'.kind = .rowEnd → m.kind = .endMarker → LineTokens line [c, e] [c, e', m]
  | code {body : List Token} {e e' m : Token} : line ≠ [] → line.head? ≠ some '#' →
      (∀ t ∈ body, t.isLayout = false ∧ t.Within 1 line.length) →
      (∀ t ∈ body.head?, t.kind ≠ .comment) →
      e.kind = .lineEnd → e'.kind = .lineEnd → m.kind = .endMarker →
      LineTokens line (body ++ [e]) (body ++ [e', m])

variable {line : Text} {c : Char} {k row : Nat} {s : LexState}

theorem isBlank_of_isGap (h : isGap c = true) : isBlank c = true := by
  simp only [isGap, Bool.or_eq_true, decide_eq_true_eq] at h
  rcases h with (rfl | rfl) | rfl <;> decide

theorem LexState.eq_empty (h : s.atLineStart = true) (hb : s.blocks = []) : s = {} := by
  obtain ⟨brackets, continued, blocks, string⟩ := s
  simp only [atLineStart, Bool.and_eq_true, Option.isNone_iff_eq_none, decide_eq_true_eq,
    Bool.not_eq_true'] at h
  simp_all

theorem IsPlainLine.not_mem (h : IsPlainLine line) (hc : isLineBreak c = true) : c ∉ line :=
  fun hm => absurd (h.bare c hm) (by simp [hc])

theorem IsPlainLine.isGap_first (h : IsPlainLine line) : ∀ c ∈ line.head?, isGap c = false := by
  intro c hc
  by_contra hgap
  have := isBlank_of_isGap (by simpa using hgap)
  simp [(h.first c hc).1] at this

theorem StandsAlone.isRowBody (h : StandsAlone line) : IsRowBody line :=
  ⟨h.not_mem (by decide), h.not_mem (by decide), h.last⟩

/-- A row that begins with no gap is a comment, a blank row, or code without block tokens. -/
theorem lexRow_of_not_isGap (hgap : isGap c = false) : lexRow row {} (c :: line) =
    if c = '#' || c = '\r' || c = '\n' then some (blankRow row 0 (c :: line), {})
    else some (scanRow row {} 0 0 (c :: line)) := by
  have hnew : (({} : LexState)).atLineStart = true := rfl
  simp [lexRow, startRow, hnew, hgap, indentation, closeBlocks]

theorem blankRow_comment {e : Text} (hc : line.head? = some '#')
    (hline : ∀ d ∈ line, blankRow.isRowEndChar d = false)
    (he : ∀ d ∈ e, blankRow.isRowEndChar d = true) :
    blankRow row 0 (line ++ e) =
      [⟨.comment, line, ⟨row, 0⟩, ⟨row, line.length⟩⟩,
        ⟨.rowEnd, e, ⟨row, line.length⟩, ⟨row, (line ++ e).length⟩⟩] := by
  have hhead : (line ++ e).head? = some '#' := by rw [List.head?_append, hc, Option.some_or]
  have hkeep : line.reverse.dropWhile blankRow.isRowEndChar = line.reverse :=
    List.dropWhile_eq_self_iff.2 fun hl => by
      rw [hline _ (List.mem_reverse.1 (List.getElem_mem hl))]
      simp
  have hbody : ((line ++ e).reverse.dropWhile blankRow.isRowEndChar).reverse = line := by
    rw [List.reverse_append, List.dropWhile_append_of_pos (by simpa using he), hkeep,
      List.reverse_reverse]
  have hne : line.isEmpty = false := by
    cases line with
    | nil => contradiction
    | cons => rfl
  simp only [blankRow, if_pos hhead, hbody, hne]
  simp

/-- Behind a last line without a line feed a line end is made up, unless the line is a comment. -/
theorem finish_of_not_isBlank (hc : isBlank c = false) (hfeed : '\n' ∉ c :: line)
    (hreturn : '\r' ∉ c :: line) :
    finish row {} (c :: line) =
      (if c = '#' then [] else
        [⟨.lineEnd, [], ⟨row - 1, (c :: line).length⟩, ⟨row - 1, (c :: line).length + 1⟩⟩]) ++
      [⟨.endMarker, [], ⟨row, 0⟩, ⟨row, 0⟩⟩] := by
  have hlast := List.getLast_mem (List.cons_ne_nil c line)
  have hd : (c :: line).getLast? = some ((c :: line).getLast (by simp)) :=
    List.getLast?_eq_some_getLast (List.cons_ne_nil c line)
  generalize (c :: line).getLast (by simp) = d at hlast hd
  have hd' : d ≠ '\r' ∧ d ≠ '\n' := by
    constructor <;> rintro rfl
    · exact hreturn hlast
    · exact hfeed hlast
  simp only [finish, hd, head_trim hc]
  by_cases h : c = '#' <;> simp [h, hd']

theorem tokens?_of_not_isGap (hgap : isGap c = false) (h : '\n' ∉ c :: line) :
    tokens? (c :: line) = (lexRow 1 {} (c :: line)).bind fun r =>
      if r.2.atLineStart then some (r.1 ++ finish 2 r.2 (c :: line)) else none := by
  rw [tokens?, rows_of_not_mem (by simp) h]
  simp only [lexRows, List.all_cons, hgap, Bool.false_and, Bool.and_false, Bool.false_eq_true,
    if_false]
  cases lexRow 1 {} (c :: line) with
  | none => rfl
  | some r =>
    simp only [Option.bind_eq_bind, Option.bind_some]
    split <;> rfl

theorem lineTokens_comment (h : StandsAlone ('#' :: line)) :
    ∃ row alone, LineTokens ('#' :: line) row alone ∧
      lexRow 1 {} ('#' :: line ++ ['\n']) = some (row, {}) ∧
      tokens? ('#' :: line) = some alone := by
  have hgap : isGap '#' = false := by decide
  have hend : ∀ d ∈ '#' :: line, blankRow.isRowEndChar d = false := by
    intro d hd
    by_contra hrow
    have := h.bare d hd
    simp only [blankRow.isRowEndChar, Bool.not_eq_false, Bool.or_eq_true, decide_eq_true_eq] at hrow
    rcases hrow with rfl | rfl <;> simp [isLineBreak] at this
  have halone := @blankRow_comment _ 1 [] rfl hend (by simp)
  have hrow := @blankRow_comment _ 1 ['\n'] rfl hend (by simp [blankRow.isRowEndChar])
  have htokens := tokens?_of_not_isGap hgap h.isRowBody.noFeed
  rw [List.append_nil] at halone
  rw [lexRow_of_not_isGap hgap, if_pos (by decide), Option.bind_some, if_pos (by rfl), halone,
    finish_of_not_isBlank (by decide) h.isRowBody.noFeed h.isRowBody.noReturn] at htokens
  rw [List.cons_append] at hrow ⊢
  rw [lexRow_of_not_isGap hgap, if_pos (by decide), hrow]
  refine ⟨_, _, ?_, rfl, htokens⟩
  exact .comment rfl rfl rfl rfl rfl rfl

theorem lineTokens_code (h : StandsAlone (c :: line)) (hc : c ≠ '#') :
    ∃ row alone, LineTokens (c :: line) row alone ∧
      lexRow 1 {} (c :: line ++ ['\n']) = some (row, {}) ∧ tokens? (c :: line) = some alone := by
  have hgap := h.isGap_first c rfl
  have hbody := h.isRowBody
  have hends : ¬(c = '#' || c = '\r' || c = '\n') := by
    have hreturn : c ≠ '\r' := fun hr => hbody.noReturn (by simp [hr])
    have hfeed : c ≠ '\n' := fun hf => hbody.noFeed (by simp [hf])
    simp [hc, hreturn, hfeed]
  have htokens := tokens?_of_not_isGap hgap hbody.noFeed
  have hscans := @scans_scanRow 1 0 0 {} (c :: line)
  rw [lexRow_of_not_isGap hgap, if_neg hends, Option.bind_some] at htokens
  generalize scanRow 1 {} 0 0 (c :: line) = r at htokens hscans
  obtain ⟨body, s⟩ := r
  obtain ⟨hblocks, hwithin⟩ := hscans.within hbody.noFeed
  have hstart : s.atLineStart = true := by
    by_contra hopen
    have hlexes := h.lexes
    simp [htokens, hopen] at hlexes
  obtain rfl : s = {} := LexState.eq_empty hstart hblocks
  have hrow := (hscans.rowEnd hbody (Nat.zero_le _) rfl).scanRow_eq
  rw [if_pos hstart, finish_of_not_isBlank (h.first c rfl).1 hbody.noFeed hbody.noReturn,
    if_neg hc] at htokens
  rw [List.cons_append] at hrow ⊢
  rw [lexRow_of_not_isGap hgap, if_neg hends, hrow]
  refine ⟨_, _, ?_, rfl, htokens⟩
  refine .code (by simp) (by simpa using hc) ?_ (hscans.head hbody.noFeed hgap hc) rfl rfl rfl
  simpa using hwithin

/-- A line that stands alone has the same tokens in a cell, up to layout at its end, and leaves
nothing open there. -/
theorem StandsAlone.lineTokens (h : StandsAlone line) : ∃ row alone, LineTokens line row alone ∧
    lexRow 1 {} (line ++ ['\n']) = some (row, {}) ∧ tokens? line = some alone := by
  cases line with
  | nil => exact ⟨_, _, .blank rfl rfl rfl, rfl, rfl⟩
  | cons c line =>
    by_cases hc : c = '#'
    · subst hc
      exact lineTokens_comment h
    · exact lineTokens_code h hc

/-- The rows of lines that are joined with line feeds, of which `us` are the last ones. -/
theorem rows_join {lines us : List Text} (h : ∀ l ∈ lines, '\n' ∉ l) (hus : us ≠ []) :
    rows (join ['\n'] (lines ++ us)) = lines.map (· ++ ['\n']) ++ rows (join ['\n'] us) := by
  induction lines with
  | nil => rfl
  | cons l lines ih =>
    rw [List.forall_mem_cons] at h
    obtain ⟨u, below, hbelow⟩ : ∃ u below, lines ++ us = u :: below :=
      List.exists_cons_of_ne_nil (by simp [hus])
    rw [List.cons_append, hbelow, join_cons_cons, List.singleton_append, rows_append h.1, ← hbelow,
      ih h.2, List.map_cons, List.cons_append]

/-- The tokens of lines as rows of a cell, the first of them below `k` rows. -/
def rowTokens : Nat → List Text → List Token
  | _, [] => []
  | k, line :: lines =>
    (lexRow (1 + k) {} (line ++ ['\n'])).elim [] Prod.fst ++ rowTokens (k + 1) lines

theorem lexRow_lower_empty {ts : List Token} (h : lexRow 1 {} line = some (ts, {})) (k : Nat) :
    lexRow (1 + k) {} line = some (ts.map (Token.lower k), {}) := by
  have hlower := @lexRow_lower k 1 {} line
  rw [h] at hlower
  exact hlower

/-- The lexer goes over lines that stand alone as if each were the first one. -/
theorem lexRows_lines {lines : List Text} (h : ∀ l ∈ lines, StandsAlone l) (last : Text)
    (below : List Text) :
    lexRows (1 + k) {} last (lines.map (· ++ ['\n']) ++ below) =
      (lexRows (1 + (k + lines.length)) {} ((lines.getLast?.map (· ++ ['\n'])).getD last) below).map
        (rowTokens k lines ++ ·) := by
  induction lines generalizing k last with
  | nil => simp [rowTokens]
  | cons line lines ih =>
    rw [List.forall_mem_cons] at h
    obtain ⟨row, -, -, hrow, -⟩ := h.1.lineTokens
    have hrow := lexRow_lower_empty hrow k
    have hgap : (line ++ ['\n']).all isGap = false := by simp [isGap]
    have hlast : ((line :: lines).getLast?.map (· ++ ['\n'])).getD last =
        (lines.getLast?.map (· ++ ['\n'])).getD (line ++ ['\n']) := by
      rw [List.getLast?_cons]
      cases lines.getLast? <;> rfl
    have hlength : k + (line :: lines).length = k + 1 + lines.length := by
      rw [List.length_cons]
      omega
    rw [List.map_cons, List.cons_append, lexRows, hgap, Bool.and_false, if_neg (by simp), hrow,
      hlast, hlength]
    simp only [Option.bind_eq_bind, Option.bind_some, rowTokens, hrow, Option.elim_some]
    rw [Nat.add_assoc, ih h.2]
    cases lexRows (1 + (k + 1 + lines.length)) {}
      ((lines.getLast?.map (· ++ ['\n'])).getD (line ++ ['\n'])) below <;> simp

/-- The last row is lexed as a text of its own. -/
theorem lexRows_last {last : Text} (hlast : ∀ d ∈ last.getLast?, d = '\n') (hfeed : '\n' ∉ line)
    (hgap : ∀ d ∈ line.head?, isGap d = false) :
    lexRows (1 + k) {} last (rows line) = (tokens? line).map (List.map (Token.lower k)) := by
  cases line with
  | nil =>
    have hfinish : finish (1 + k) {} last = (finish 1 {} []).map (Token.lower k) := by
      cases hd : last.getLast? with
      | none => simp [finish, hd]
      | some d =>
        have hd' : d = '\n' := hlast d hd
        simp [finish, hd, hd']
    have hnew : (({} : LexState)).atLineStart = true := rfl
    simp only [rows, tokens?, lexRows, hnew, if_true, hfinish, Option.map_some]
  | cons c line =>
    have hc : (c :: line).all isGap = false := by simp [hgap c rfl]
    have hlower := @lexRows_lower k 1 {} [c :: line] [] Nat.one_pos
    rw [tokens?, rows_of_not_mem (by simp) hfeed, ← hlower]
    simp only [lexRows, hc, Bool.and_false, Bool.false_eq_true, if_false]
    rfl

/-- The tokens of lines that are joined with line feeds, of which the last one need not stand
alone. -/
theorem tokens?_join {lines : List Text} (h : ∀ l ∈ lines, StandsAlone l) {u : Text}
    (hu : IsPlainLine u) :
    tokens? (join ['\n'] (lines ++ [u])) =
      (tokens? u).map fun ts => rowTokens 0 lines ++ ts.map (Token.lower lines.length) := by
  have hlast : ∀ d ∈ ((lines.getLast?.map (· ++ ['\n'])).getD []).getLast?, d = '\n' := by
    cases lines.getLast? <;> simp [eq_comm]
  rw [tokens?, rows_join (fun l hl => (h l hl).isRowBody.noFeed) (by simp), join_singleton]
  rw [lexRows_lines (k := 0) h, Nat.zero_add,
    lexRows_last hlast (hu.not_mem (by decide)) hu.isGap_first]
  cases tokens? u <;> rfl

end VariableReport.Source
