import VariableReport.Source.Assignment
import VariableReport.Proofs.Source.Assembly
import VariableReport.Proofs.Source.Scan

/-!
# Statements that are read alike

Where the value of an assignment begins is told by the kinds and the texts of the tokens, and the
value itself is cut from the source by their positions. A statement on one line is therefore
read alike on its own and `k` rows further down in a source that has the line there
(`Statement.Lowered.reads`).
-/

namespace VariableReport.Source
open Text

/-- The same assignment or none, in the same line of the cell and with the same trailing
comments. -/
structure Statement.Reads (s' s : Statement) : Prop where
  assignment : assignment? s' = assignment? s
  line : s'.line = s.line
  trailing : s'.trailing = s.trailing

variable {k : Nat} {t line : Text} {p q : Position} {s s' : Statement} {ts : List Token}

theorem equalSigns_lower (depth i : Nat) :
    equalSigns depth i (ts.map (Token.lower k)) = equalSigns depth i ts := by
  induction ts generalizing depth i with
  | nil => rfl
  | cons t ts ih =>
    simp only [List.map_cons, equalSigns, Token.lower_kind, Token.lower_text, ih]
    rfl

theorem takeWhile_lambda_lower : (ts.map (Token.lower k)).takeWhile (fun t => !isLambda t) =
    (ts.takeWhile fun t => !isLambda t).map (Token.lower k) := by
  rw [List.takeWhile_map]
  rfl

/-- Where the value begins does not depend on the rows of the tokens. -/
theorem valueFrom?_lower : valueFrom? (ts.map (Token.lower k)) = valueFrom? ts := by
  match ts with
  | [] => rfl
  | [_] => rfl
  | [_, _] => rfl
  | target :: second :: third :: rest =>
    have hsigns := @takeWhile_lambda_lower k (target :: second :: third :: rest)
    simp only [List.map_cons] at hsigns
    simp only [List.map_cons, valueFrom?, hsigns, ← List.map_drop, equalSigns_lower,
      Token.lower_kind, Token.lower_text, Token.isOperator]
    rfl

/-- Statements of the same tokens in other rows give the same value if their sources have the same
text there. -/
theorem assignment?_lower (htokens : s'.tokens = s.tokens.map (Token.lower k))
    (hdepth : s'.depth = s.depth)
    (hsegment : ∀ t ∈ s.tokens, ∀ u ∈ s.tokens,
      s'.segment (t.start.lower k) (u.stop.lower k) = s.segment t.start u.stop) :
    assignment? s' = assignment? s := by
  unfold assignment?
  rw [hdepth, htokens, valueFrom?_lower, List.head?_map, List.getLast?_map]
  split
  · rfl
  cases htarget : s.tokens.head? with
  | none => rfl
  | some target =>
  cases hi : valueFrom? s.tokens with
  | none => rfl
  | some i =>
  cases hfirst : s.tokens[i]? with
  | none => simp [hfirst]
  | some first =>
  cases hlast : s.tokens.getLast? with
  | none => simp
  | some last =>
    have hseg := hsegment first (List.mem_of_getElem? hfirst) last (List.mem_of_getLast? hlast)
    simp [hfirst, hseg]

/-- Below `above`, a column is counted from their end. -/
theorem offset_below {above below : List Text} (h : lines t = above ++ below) (column : Nat) :
    offset t ⟨1 + above.length, column⟩ = above.flatten.length + column := by
  rw [offset, h, Nat.add_sub_cancel_left, List.take_left]

theorem slice_append {a b c : Text} {m n : Nat} (hm : m ≤ b.length) (hn : n ≤ b.length) :
    slice (a ++ (b ++ c)) (a.length + m) (a.length + n) = slice b m n := by
  have hlength : n - m ≤ (b.drop m).length := by
    rw [List.length_drop]
    omega
  rw [slice, slice, ← List.drop_drop, List.drop_left, List.drop_append_of_le_length hm,
    Nat.add_sub_add_left, List.take_append_of_le_length hlength]

/-- A line that stands below `above` has the same text between two of its columns. -/
theorem segment_below {above below : List Text} (h : lines t = above ++ below)
    (hline : line <+: below.flatten) (hp : p.row = 1) (hq : q.row = 1)
    (hpc : p.column ≤ line.length) (hqc : q.column ≤ line.length) :
    segment t (p.lower above.length) (q.lower above.length) = segment line p q := by
  obtain ⟨rest, hrest⟩ := hline
  obtain ⟨row, m⟩ := p
  obtain ⟨row', n⟩ := q
  obtain rfl : row = 1 := hp
  obtain rfl : row' = 1 := hq
  have ht : t = above.flatten ++ (line ++ rest) := by
    rw [hrest, ← List.flatten_append, ← h, flatten_lines]
  rw [segment, segment, Position.lower_mk, Position.lower_mk, offset_below h, offset_below h,
    offset_first_row, offset_first_row]
  rw [ht, slice_append hpc hqc]

theorem Statement.Lowered.reads {above below : List Text} {leads : Text → Prop}
    (hl : Statement.Lowered above.length s' s) (hsource : s'.source = t)
    (hs : s.Holds line s.linesAbove (Token.Within 1 line.length) leads)
    (h : lines t = above ++ below) (hline : line <+: below.flatten) : s'.Reads s := by
  refine ⟨assignment?_lower hl.tokens hl.depth fun a ha b hb => ?_, ?_, hl.trailing⟩
  · have hwa := hs.tokens a ha
    have hwb := hs.tokens b hb
    rw [Statement.segment, Statement.segment, hsource, hs.source_eq]
    exact segment_below h hline hwa.start_row hwb.stop_row hwa.start_column hwb.stop_column
  · obtain ⟨first, rest, hfirst⟩ := List.exists_cons_of_ne_nil hs.tokens_ne
    rw [Statement.line, Statement.line, hl.tokens, hfirst, ← hl.linesAbove]
    simp
    omega

end VariableReport.Source
