import VariableReport.Proofs.Source.Layout
import VariableReport.Source.Reference

/-!
# Offsets of positions

Positions count rows and offsets count lines, and a row may hold several lines: a form feed
in a string or in a comment ends a line and no row. Since every row end is a line end too, a
position gives the offset of its text exactly when each of the rows above it is one line
(`offset_advance_eq_iff`). Where that is so, the text between the two positions of a token
is the token's own text, and so is the text between the two offsets of a reference
(`segment_token`).
-/

namespace VariableReport

namespace Text

theorem ne_nil_of_mem_attach {c : Char} {piece : Text} {pieces : List Text}
    (h : ∀ p ∈ pieces, p ≠ []) (hp : piece ∈ attach c pieces) : piece ≠ [] := by
  cases pieces with
  | nil => rw [List.mem_singleton.1 hp]; simp
  | cons q pieces =>
    rcases List.mem_cons.1 hp with rfl | hp
    · simp
    · exact h piece (List.mem_cons_of_mem _ hp)

theorem ne_nil_of_mem_lines {t piece : Text} (h : piece ∈ lines t) : piece ≠ [] := by
  induction t generalizing piece with
  | nil => contradiction
  | cons c t ih =>
    rw [lines] at h
    split at h
    · exact ne_nil_of_mem_attach (fun p hp => ih hp) h
    · split at h
      · rcases List.mem_cons.1 h with rfl | h
        · simp
        · exact ih h
      · exact ne_nil_of_mem_attach (fun p hp => ih hp) h

theorem ne_nil_of_mem_rows {t row : Text} (h : row ∈ rows t) : row ≠ [] := by
  induction t generalizing row with
  | nil => contradiction
  | cons c t ih =>
    rw [rows] at h
    split at h
    · rcases List.mem_cons.1 h with rfl | h
      · simp
      · exact ih h
    · exact ne_nil_of_mem_attach (fun p hp => ih hp) h

theorem lines_ne_nil {t : Text} (h : t ≠ []) : lines t ≠ [] := by
  intro hnil
  have hflat := flatten_lines t
  rw [hnil] at hflat
  exact h hflat.symm

/-- A line feed ends a line, whatever stands before it. -/
theorem lines_append_rowEnd (t u : Text) :
    lines (t ++ '\n' :: u) = lines (t ++ ['\n']) ++ lines u := by
  induction t with
  | nil => simp [lines, isLineBreak]
  | cons c t ih =>
    have hhead : (t ++ '\n' :: u).head? = (t ++ ['\n']).head? := by cases t <;> rfl
    have hne : lines (t ++ ['\n']) ≠ [] := lines_ne_nil (by simp)
    rw [List.cons_append, List.cons_append, lines, lines, hhead, ih]
    split
    · exact attach_append c hne _
    · split
      · rfl
      · exact attach_append c hne _

/-- The lines of a text are the lines of its rows. -/
theorem lines_flatten {rows : List Text} (h : AreRows rows) :
    lines rows.flatten = rows.flatMap lines := by
  induction h with
  | nil => rfl
  | last => simp
  | @cons row rows _ _ ih =>
    rw [List.flatten_cons, List.append_assoc, List.singleton_append, lines_append_rowEnd, ih,
      List.flatMap_cons]

theorem lines_eq_flatMap_rows (t : Text) : lines t = (rows t).flatMap lines := by
  rw [← lines_flatten (areRows_rows t), flatten_rows]

theorem flatten_flatMap_lines (rows : List Text) : (rows.flatMap lines).flatten = rows.flatten := by
  induction rows with
  | nil => rfl
  | cons row rows ih =>
    rw [List.flatMap_cons, List.flatten_append, flatten_lines, ih, List.flatten_cons]

/-- There are at least as many lines as rows, and more unless every row is one line. -/
theorem length_flatMap_lines {rows : List Text} (h : ∀ row ∈ rows, row ≠ []) :
    rows.length ≤ (rows.flatMap lines).length ∧
      ((rows.flatMap lines).length = rows.length ↔ ∀ row ∈ rows, lines row = [row]) := by
  induction rows with
  | nil => simp
  | cons row rows ih =>
    obtain ⟨hle, heq⟩ := ih fun r hr => h r (List.mem_cons_of_mem _ hr)
    have hpos : 0 < (lines row).length := List.length_pos_iff.2 (lines_ne_nil (h row (by simp)))
    have hone : (lines row).length = 1 ↔ lines row = [row] := by
      constructor
      · intro hlen
        obtain ⟨line, hline⟩ := List.length_eq_one_iff.1 hlen
        have hflat := flatten_lines row
        rw [hline] at hflat
        simpa [hline] using hflat
      · intro hrow
        rw [hrow]
        rfl
    rw [List.flatMap_cons, List.length_append, List.length_cons, List.forall_mem_cons, ← hone,
      ← heq]
    omega

/-- Some of the pieces make up the whole text only when they are all of them. -/
theorem length_flatten_take {pieces : List Text} (h : ∀ p ∈ pieces, p ≠ []) (n : Nat) :
    (pieces.take n).flatten.length = pieces.flatten.length ↔ pieces.length ≤ n := by
  have hsplit : pieces.flatten.length =
      (pieces.take n).flatten.length + (pieces.drop n).flatten.length := by
    rw [← List.length_append, ← List.flatten_append, List.take_append_drop]
  have hrest : (pieces.drop n).flatten.length = 0 ↔ pieces.drop n = [] := by
    rw [List.length_eq_zero_iff, List.flatten_eq_nil_iff]
    constructor
    · intro hall
      refine List.eq_nil_iff_forall_not_mem.2 fun p hp => ?_
      exact h p (List.mem_of_mem_drop hp) (hall p hp)
    · intro hnil
      simp [hnil]
  rw [← List.drop_eq_nil_iff, ← hrest, hsplit]
  omega

/-- The first `n` lines have the length of the first `n` rows exactly when these rows are lines. -/
theorem length_take_lines (t : Text) {n : Nat} (hn : n ≤ (rows t).length) :
    ((lines t).take n).flatten.length = ((rows t).take n).flatten.length ↔
      ∀ row ∈ (rows t).take n, lines row = [row] := by
  have hrows : ∀ row ∈ (rows t).take n, row ≠ [] :=
    fun row hr => ne_nil_of_mem_rows (List.mem_of_mem_take hr)
  obtain ⟨hle, heq⟩ := length_flatMap_lines hrows
  rw [List.length_take_of_le hn] at hle heq
  have htake : (lines t).take n = (((rows t).take n).flatMap lines).take n := by
    rw [lines_eq_flatMap_rows, ← List.take_append_drop n (rows t), List.flatMap_append,
      List.take_append_of_le_length hle, List.take_append_drop]
  have hpieces : ∀ p ∈ ((rows t).take n).flatMap lines, p ≠ [] := by
    intro p hp
    obtain ⟨row, -, hp⟩ := List.mem_flatMap.1 hp
    exact ne_nil_of_mem_lines hp
  rw [htake, ← flatten_flatMap_lines ((rows t).take n), length_flatten_take hpieces, ← heq]
  omega

end Text

namespace Source
open Text

theorem Position.row_advance (p : Position) (t : Text) :
    (p.advance t).row = p.row + t.count '\n' := by
  induction t generalizing p with
  | nil => rfl
  | cons c t ih =>
    rw [advance, ih]
    split
    next hc => simp [hc]; omega
    next hc => simp [hc]

/-- Each of the rows above a row is one line. -/
def LinedAbove (t : Text) (row : Nat) : Prop := ∀ r ∈ (rows t).take (row - 1), lines r = [r]

theorem LinedAbove.mono {t : Text} {m n : Nat} (h : LinedAbove t n) (hmn : m ≤ n) :
    LinedAbove t m := by
  intro r hr
  refine h r ?_
  have hle : m - 1 ≤ n - 1 := by omega
  exact (List.take_subset_take_left _ hle) hr

/-- A position gives the length of the text before it exactly when the rows above are lines. -/
theorem offset_advance_eq_iff (t u : Text) :
    offset (t ++ u) ((⟨1, 0⟩ : Position).advance t) = t.length ↔
      LinedAbove (t ++ u) ((⟨1, 0⟩ : Position).advance t).row := by
  have hrow : ((⟨1, 0⟩ : Position).advance t).row = 1 + t.count '\n' :=
    Position.row_advance ⟨1, 0⟩ t
  have hlen := (length_rows_before 1 t u).2
  have hcount : ((⟨1, 0⟩ : Position).advance t).row - 1 ≤ (rows (t ++ u)).length := by
    refine Nat.le_trans ?_ (count_le_length_rows (t ++ u))
    rw [hrow, List.count_append]
    omega
  unfold LinedAbove
  rw [← length_take_lines (t ++ u) hcount]
  unfold offset
  omega

/-- A token stands behind `pre` in a text, and its positions say so. -/
structure Token.StandsAfter (tok : Token) (t pre : Text) : Prop where
  text : ∃ post, t = pre ++ (tok.text ++ post)
  start : tok.start = (⟨1, 0⟩ : Position).advance pre
  stop : tok.stop = (⟨1, 0⟩ : Position).advance (pre ++ tok.text)

theorem Laid.exists_before {p : Position} {t : Text} {ts : List Token} {tok : Token}
    (h : Laid p t ts) (hm : tok ∈ ts) : ∃ pre, (∃ post, t = pre ++ (tok.text ++ post)) ∧
      tok.start = p.advance pre ∧ (tok.kind ≠ .stray → tok.stop = p.advance (pre ++ tok.text)) := by
  induction h with
  | done => contradiction
  | @token p gap t tok' ts hstart hstop _ ih =>
    rcases List.mem_cons.1 hm with rfl | hm
    · refine ⟨gap, ⟨t, rfl⟩, hstart, fun hk => ?_⟩
      rw [hstop hk, hstart, Position.advance_append]
    · obtain ⟨pre, ⟨post, rfl⟩, hfrom, hto⟩ := ih hm
      have hp : tok'.start.advance tok'.text = p.advance (gap ++ tok'.text) := by
        rw [Position.advance_append, hstart]
      refine ⟨gap ++ tok'.text ++ pre, ⟨post, by simp⟩, ?_, fun hk => ?_⟩
      · rw [hfrom, hp, ← Position.advance_append]
      · rw [hto hk, hp, ← Position.advance_append, List.append_assoc (gap ++ tok'.text)]

theorem exists_standsAfter {t : Text} {ts : List Token} {tok : Token} (h : tokens? t = some ts)
    (hm : tok ∈ ts) (hl : tok.isLayout = false) (hk : tok.kind ≠ .stray) :
    ∃ pre, tok.StandsAfter t pre := by
  have hvisible : tok ∈ visible ts := List.mem_filter.2 ⟨hm, by simp [hl]⟩
  obtain ⟨pre, htext, hstart, hstop⟩ := (laid_of_tokens? h).exists_before hvisible
  exact ⟨pre, htext, hstart, hstop hk⟩

namespace Token.StandsAfter

variable {t pre : Text} {tok : Token}

theorem offset_start (h : tok.StandsAfter t pre) :
    offset t tok.start = pre.length ↔ LinedAbove t tok.start.row := by
  obtain ⟨post, rfl⟩ := h.text
  rw [h.start]
  exact offset_advance_eq_iff pre (tok.text ++ post)

theorem offset_stop (h : tok.StandsAfter t pre) :
    offset t tok.stop = (pre ++ tok.text).length ↔ LinedAbove t tok.stop.row := by
  obtain ⟨post, rfl⟩ := h.text
  rw [h.stop, ← List.append_assoc]
  exact offset_advance_eq_iff (pre ++ tok.text) post

theorem row_le (h : tok.StandsAfter t pre) : tok.start.row ≤ tok.stop.row := by
  rw [h.start, h.stop, Position.advance_append, Position.row_advance _ tok.text]
  exact Nat.le_add_right _ _

/-- Where the rows above its end are lines, a token is the text between its positions. -/
theorem segment_eq (h : tok.StandsAfter t pre) (hlines : LinedAbove t tok.stop.row) :
    segment t tok.start tok.stop = tok.text := by
  obtain ⟨post, ht⟩ := h.text
  rw [segment, h.offset_start.2 (hlines.mono h.row_le), h.offset_stop.2 hlines, slice, ht,
    List.drop_left, List.length_append, Nat.add_sub_cancel_left, List.take_left]

end Token.StandsAfter

theorem exists_token_of_mem_referencesIn {t : Text} {before : Option Token} {ts : List Token}
    {r : Reference} (h : r ∈ referencesIn t before ts) : ∃ tok ∈ ts, tok.kind = .name ∧
      r = ⟨tok.text, offset t tok.start, offset t tok.stop⟩ := by
  induction ts generalizing before with
  | nil => contradiction
  | cons tok ts ih =>
    rw [referencesIn] at h
    rcases List.mem_append.1 h with h | h
    · split at h
      next hname =>
        rw [Bool.and_eq_true, decide_eq_true_eq] at hname
        exact ⟨tok, by simp, hname.1, List.mem_singleton.1 h⟩
      next => contradiction
    · obtain ⟨tok', hm, htok⟩ := ih h
      exact ⟨tok', List.mem_cons_of_mem _ hm, htok⟩

/-- The tokens of a text that are pieces of it stand where their positions say. The offset of a
position is that place exactly when the rows above it are lines, and then the text between the
positions is the token's; the references of the text are names among these tokens. -/
theorem segment_token {t : Text} {ts : List Token} (h : tokens? t = some ts) :
    (∀ tok ∈ ts, tok.isLayout = false → tok.kind ≠ .stray → ∃ pre, tok.StandsAfter t pre ∧
      (offset t tok.start = pre.length ↔ LinedAbove t tok.start.row) ∧
      (offset t tok.stop = (pre ++ tok.text).length ↔ LinedAbove t tok.stop.row) ∧
      (LinedAbove t tok.stop.row → segment t tok.start tok.stop = tok.text)) ∧
    ∃ refs, references? t = some refs ∧ ∀ r ∈ refs, ∃ tok ∈ ts, tok.kind = .name ∧
      r = ⟨tok.text, offset t tok.start, offset t tok.stop⟩ ∧
      (LinedAbove t tok.stop.row → slice t r.start r.stop = r.name) := by
  constructor
  · intro tok hm hl hk
    obtain ⟨pre, hstands⟩ := exists_standsAfter h hm hl hk
    exact ⟨pre, hstands, hstands.offset_start, hstands.offset_stop, hstands.segment_eq⟩
  · refine ⟨referencesIn t none (ts.filter isCode), by rw [references?, h]; rfl, fun r hr => ?_⟩
    obtain ⟨tok, hm, hname, rfl⟩ := exists_token_of_mem_referencesIn hr
    have hl : tok.isLayout = false := by simp [Token.isLayout, hname]
    have hk : tok.kind ≠ .stray := by simp [hname]
    obtain ⟨pre, hstands⟩ := exists_standsAfter h (List.mem_filter.1 hm).1 hl hk
    exact ⟨tok, (List.mem_filter.1 hm).1, hname, rfl, hstands.segment_eq⟩

theorem exists_tokens_of_mem {t : Text} {tok : Token} (h : tok ∈ (tokens? t).getD []) :
    ∃ ts, tokens? t = some ts ∧ tok ∈ ts := by
  cases hts : tokens? t with
  | none => simp [hts] at h
  | some ts => exact ⟨ts, rfl, by simpa [hts] using h⟩

/-- A carriage return before the line feed makes no further line. -/
theorem segment_token_below_carriageReturn :
    ∃ ts, tokens? "(\x27a\x27,\r\n x)".toList = some ts ∧
      ∃ tok ∈ ts, tok.start = ⟨2, 1⟩ ∧ tok.text = "x".toList ∧
        segment "(\x27a\x27,\r\n x)".toList tok.start tok.stop = "x".toList := by
  have hmem : (⟨.name, "x".toList, ⟨2, 1⟩, ⟨2, 2⟩⟩ : Token) ∈
      (tokens? "(\x27a\x27,\r\n x)".toList).getD [] := by decide +kernel
  obtain ⟨ts, hts, htok⟩ := exists_tokens_of_mem hmem
  obtain ⟨pre, -, -, -, hsegment⟩ := (segment_token hts).1 _ htok rfl (by decide)
  exact ⟨ts, hts, _, htok, rfl, rfl, hsegment (by unfold LinedAbove; decide +kernel)⟩

/-- A form feed in a string ends a line and no row, and what stands below it is missed. -/
theorem segment_ne_below_formFeed : ∃ ts, tokens? "(\x27\x0c\x27,\nx)".toList = some ts ∧
    (∃ tok ∈ ts, tok.kind = .name ∧
      segment "(\x27\x0c\x27,\nx)".toList tok.start tok.stop ≠ tok.text) ∧
    ∃ refs, references? "(\x27\x0c\x27,\nx)".toList = some refs ∧
      ∃ r ∈ refs, slice "(\x27\x0c\x27,\nx)".toList r.start r.stop ≠ r.name := by
  have hmem : (⟨.name, "x".toList, ⟨2, 0⟩, ⟨2, 1⟩⟩ : Token) ∈
      (tokens? "(\x27\x0c\x27,\nx)".toList).getD [] := by decide +kernel
  obtain ⟨ts, hts, htok⟩ := exists_tokens_of_mem hmem
  have hrefs : references? "(\x27\x0c\x27,\nx)".toList = some [⟨"x".toList, 3, 4⟩] := by
    decide +kernel
  exact ⟨ts, hts, ⟨_, htok, rfl, by decide +kernel⟩, _, hrefs, _, List.mem_singleton_self _,
    by decide⟩

end Source

end VariableReport
