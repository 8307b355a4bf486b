import VariableReport.Source.Magic
import VariableReport.Proofs.Source.Offset
import VariableReport.Proofs.Source.Lowering
import VariableReport.Proofs.Text.Pieces

/-!
# What masking leaves as it is

Masking works on one row at a time and keeps the rows apart, so a text that stands at a
position of the masked source stands there in the source too, unless it reaches a row that
was emptied (`standsAt_iff_of_maskMagics?`). Whether such a row lies inside a string or
inside brackets is not looked at.
-/

namespace VariableReport

namespace Text

variable {t u row : Text}

theorem eq_of_append_rowEnd_eq {a b x y : Text} (ha : '\n' ∉ a) (hb : '\n' ∉ b)
    (h : a ++ '\n' :: x = b ++ '\n' :: y) : a = b ∧ x = y := by
  have hcut := cut_append ha x
  rw [h, cut_append hb y] at hcut
  obtain ⟨rfl, rfl⟩ := Prod.mk.inj (Option.some.inj hcut)
  exact ⟨rfl, rfl⟩

/-- The beginning of a row and of what is below it stays within the row or takes all of it. -/
theorem prefix_row_cases {below : Text} (hr : '\n' ∉ row) (h : u <+: row ++ '\n' :: below) :
    ('\n' ∉ u ∧ u <+: row) ∨ ∃ v, u = row ++ '\n' :: v ∧ v <+: below := by
  rcases List.prefix_or_prefix_of_prefix h (List.prefix_append row _) with hu | ⟨x, rfl⟩
  · exact .inl ⟨fun hm => hr (hu.subset hm), hu⟩
  · rw [List.prefix_append_right_inj] at h
    cases x with
    | nil => exact .inl (by simpa using hr)
    | cons c v =>
      obtain ⟨rfl, hv⟩ := List.cons_prefix_cons.1 h
      exact .inr ⟨v, rfl, hv⟩

theorem AreRows.drop {rows : List Text} (h : AreRows rows) (k : Nat) : AreRows (rows.drop k) := by
  induction h generalizing k with
  | nil => rw [List.drop_nil]; exact .nil
  | last hr => cases k with
    | zero => exact .last hr
    | succ k => rw [List.drop_succ_cons, List.drop_nil]; exact .nil
  | cons hr h ih => cases k with
    | zero => exact .cons hr h
    | succ k => exact ih k

end Text

namespace Source
open Text

/-- A text stands at a position of another one. -/
def StandsAt (t : Text) (p : Position) (u : Text) : Prop :=
  ∃ pre post, t = pre ++ (u ++ post) ∧ (⟨1, 0⟩ : Position).advance pre = p

/-- The rows of `t` that a text at a position reaches. -/
def reachedRows (t : Text) (p : Position) (u : Text) : List Text :=
  ((rows t).drop (p.row - 1)).take (u.count '\n' + 1)

variable {t u m : Text} {p : Position} {k column : Nat}

theorem row_eq_of_advance_eq {pre : Text} {row : Nat}
    (h : (⟨1, 0⟩ : Position).advance pre = ⟨row, column⟩) : row = 1 + pre.count '\n' := by
  have hrow := Position.row_advance ⟨1, 0⟩ pre
  rw [h] at hrow
  exact hrow

theorem standsAt_first_row : StandsAt t ⟨1, column⟩ u ↔
    ∃ w, '\n' ∉ w ∧ w.length = column ∧ w ++ u <+: t := by
  constructor
  · rintro ⟨pre, post, rfl, hp⟩
    have hrow := row_eq_of_advance_eq hp
    have hpre : '\n' ∉ pre := List.count_eq_zero.1 (by omega)
    rw [Position.advance_of_not_mem hpre, Nat.zero_add] at hp
    exact ⟨pre, hpre, (Position.mk.inj hp).2, post, by simp⟩
  · rintro ⟨w, hw, rfl, post, rfl⟩
    refine ⟨w, post, by simp, ?_⟩
    rw [Position.advance_of_not_mem hw, Nat.zero_add]

/-- What stands in a row below the first one stands one row higher without the first row. -/
theorem standsAt_below {row : Text} (hr : '\n' ∉ row) :
    StandsAt (row ++ '\n' :: t) ⟨k + 2, column⟩ u ↔ StandsAt t ⟨k + 1, column⟩ u := by
  have hnext (pre : Text) : (⟨1, 0⟩ : Position).advance (row ++ '\n' :: pre) =
      ((⟨1, 0⟩ : Position).advance pre).lower 1 := by
    rw [List.append_cons, Position.advance_append, Position.advance_row hr,
      ← Position.advance_lower]
    rfl
  constructor
  · rintro ⟨pre, post, ht, hp⟩
    have hrow := row_eq_of_advance_eq hp
    have hpre : '\n' ∈ pre := List.count_pos_iff.1 (by omega)
    obtain ⟨above, pre, rfl, habove⟩ := List.eq_append_cons_of_mem hpre
    rw [List.append_assoc, List.cons_append] at ht
    obtain ⟨rfl, rfl⟩ := eq_of_append_rowEnd_eq hr habove ht
    rw [hnext, show (⟨k + 2, column⟩ : Position) = (⟨k + 1, column⟩ : Position).lower 1 from rfl,
      Position.lower_inj] at hp
    exact ⟨pre, post, rfl, hp⟩
  · rintro ⟨pre, post, rfl, hp⟩
    exact ⟨row ++ '\n' :: pre, post, by simp, by rw [hnext, hp]; rfl⟩

/-- What stands in row `k + 1` begins in this row. -/
theorem standsAt_flatten {rows : List Text} (h : AreRows rows) (hu : u ≠ []) :
    StandsAt rows.flatten ⟨k + 1, column⟩ u ↔
      ∃ w, '\n' ∉ w ∧ w.length = column ∧ w ++ u <+: (rows.drop k).flatten := by
  induction k generalizing rows with
  | zero => exact standsAt_first_row
  | succ k ih =>
    cases h with
    | nil =>
      refine iff_of_false ?_ ?_
      · rintro ⟨pre, post, ht, -⟩
        simp [hu] at ht
      · simp [hu]
    | last hr =>
      refine iff_of_false ?_ ?_
      · rintro ⟨pre, post, ht, hp⟩
        have hpre : '\n' ∉ pre := by
          rw [List.flatten_singleton] at ht
          simp_all
        rw [Position.advance_of_not_mem hpre] at hp
        simp at hp
      · simp [hu]
    | @cons row rows hr h =>
      rw [List.drop_succ_cons, ← ih h, List.flatten_cons, List.append_assoc, List.singleton_append]
      exact standsAt_below hr

theorem isShellLine_blank_cons {c : Char} (h : isBlank c = true) (t : Text) :
    isShellLine (c :: t) = isShellLine t := by
  simp [isShellLine, trimStart, h]

theorem isShellLine_cons {c : Char} (h : isBlank c = false) (t : Text) :
    isShellLine (c :: t) = (c = '%' || c = '!') := by
  simp [isShellLine, trimStart, h]

theorem isShellLine_append_blanks (h : ∀ c ∈ u, isBlank c = true) :
    isShellLine (t ++ u) = isShellLine t := by
  induction t with
  | nil =>
    have hnil : trimStart u = [] := List.dropWhile_eq_nil_iff.2 h
    rw [List.nil_append, isShellLine, hnil]
    rfl
  | cons c t ih =>
    cases hc : isBlank c with
    | true => rw [List.cons_append, isShellLine_blank_cons hc, isShellLine_blank_cons hc, ih]
    | false => rw [List.cons_append, isShellLine_cons hc, isShellLine_cons hc]

theorem maskLine_eq_self (h : isShellLine t = false) : maskLine t = t := by
  rw [maskLine, if_neg (by simp [h])]

theorem maskLine_rowEnd (h : isShellLine (t ++ ['\n']) = true) :
    maskLine (t ++ ['\n']) = ['\n'] := by
  have hends : endsWith (t ++ ['\n']) ['\n'] = true :=
    List.isSuffixOf_iff_suffix.2 (List.suffix_append _ _)
  rw [maskLine, if_pos h, if_pos hends]

theorem maskLine_of_not_mem (ht : '\n' ∉ t) (h : isShellLine t = true) : maskLine t = [] := by
  have hends : ¬endsWith t ['\n'] = true := by
    intro hs
    obtain ⟨pre, rfl⟩ := List.isSuffixOf_iff_suffix.1 hs
    simp at ht
  rw [maskLine, if_pos h, if_neg hends]

theorem areRows_mask {rows : List Text} (h : AreRows rows) : AreRows (rows.map maskLine) := by
  induction h with
  | nil => exact .nil
  | @last row hr =>
    cases hs : isShellLine row with
    | false => rw [List.map_singleton, maskLine_eq_self hs]; exact .last hr
    | true => rw [List.map_singleton, maskLine_of_not_mem hr hs]; exact .last (by simp)
  | @cons row rows hr _ ih =>
    rw [List.map_cons]
    cases hs : isShellLine (row ++ ['\n']) with
    | false => rw [maskLine_eq_self hs]; exact .cons hr ih
    | true => rw [maskLine_rowEnd hs]; exact @AreRows.cons [] _ (by simp) ih

/-- At the beginning of a row, what the masked rows begin with the rows begin with too, unless an
emptied row is reached. -/
theorem prefix_iff_of_mask {rows : List Text} (hr : AreRows rows) (hu : u ≠ [])
    (hlast : u.getLast? ≠ some '\n') (hm : u <+: (rows.map maskLine).flatten) :
    u <+: rows.flatten ↔ ∀ row ∈ rows.take (u.count '\n' + 1), isShellLine row = false := by
  induction hr generalizing u with
  | nil => exact absurd (List.prefix_nil.1 hm) hu
  | @last row hr =>
    cases hs : isShellLine row with
    | true =>
      rw [List.map_singleton, maskLine_of_not_mem hr hs] at hm
      exact absurd (List.prefix_nil.1 hm) hu
    | false =>
      rw [List.map_singleton, maskLine_eq_self hs] at hm
      refine iff_of_true hm ?_
      simpa using hs
  | @cons row rows hr h ih =>
    rw [List.map_cons, List.flatten_cons] at hm
    rw [List.flatten_cons, List.append_assoc, List.singleton_append, List.take_succ_cons,
      List.forall_mem_cons]
    cases hs : isShellLine (row ++ ['\n']) with
    | true =>
      refine iff_of_false (fun hrow => ?_) (by simp)
      -- The emptied row begins with its line feed, and the row as written does not.
      rw [maskLine_rowEnd hs] at hm
      obtain ⟨v, rfl⟩ : ∃ v, u = '\n' :: v := by
        cases u with
        | nil => contradiction
        | cons c v => exact ⟨v, by rw [(List.cons_prefix_cons.1 hm).1]⟩
      rcases prefix_row_cases hr hrow with ⟨hno, -⟩ | ⟨v', hv', -⟩
      · simp at hno
      · obtain ⟨rfl, -⟩ := eq_of_append_rowEnd_eq (a := []) (by simp) hr hv'
        contradiction
    | false =>
      rw [maskLine_eq_self hs, List.append_assoc, List.singleton_append] at hm
      rcases prefix_row_cases hr hm with ⟨hno, hrow⟩ | ⟨v, rfl, hv⟩
      · rw [List.count_eq_zero.2 hno]
        exact iff_of_true (hrow.trans (List.prefix_append _ _)) (by simp)
      · have hcount : (row ++ '\n' :: v).count '\n' = v.count '\n' + 1 := by
          rw [List.count_append, List.count_eq_zero.2 hr, List.count_cons_self, Nat.zero_add]
        have hne : v ≠ [] := by
          rintro rfl
          simp at hlast
        have hlast' : v.getLast? ≠ some '\n' := by
          obtain ⟨c, w, rfl⟩ := List.exists_cons_of_ne_nil hne
          simpa using hlast
        rw [List.prefix_append_right_inj, List.cons_prefix_cons, hcount, ih hne hlast' hv]
        simp

/-- What stands before the first line feed of rows lies in the first row. -/
theorem prefix_head {row w : Text} {rows : List Text} (h : AreRows (row :: rows)) (hw : '\n' ∉ w)
    (hp : w <+: (row :: rows).flatten) : w <+: row := by
  cases h with
  | last => simpa using hp
  | @cons row rows hr _ =>
    rw [List.flatten_cons, List.append_assoc, List.singleton_append] at hp
    rcases prefix_row_cases hr hp with ⟨-, hrow⟩ | ⟨v, rfl, -⟩
    · exact hrow.trans (List.prefix_append row _)
    · simp at hw

/-- A row in which a text begins was not emptied. -/
theorem not_isShellLine_of_prefix {row w : Text} {rows : List Text} (h : AreRows (row :: rows))
    (hw : '\n' ∉ w) (hu : u ≠ []) (hfirst : u.head? ≠ some '\n')
    (hp : w ++ u <+: ((row :: rows).map maskLine).flatten) : isShellLine row = false := by
  by_contra hs
  rw [Bool.not_eq_false] at hs
  cases h with
  | last hr =>
    rw [List.map_singleton, maskLine_of_not_mem hr hs] at hp
    simp_all
  | @cons row rows hr _ =>
    rw [List.map_cons, List.flatten_cons, maskLine_rowEnd hs] at hp
    cases w with
    | nil =>
      obtain ⟨c, v, rfl⟩ := List.exists_cons_of_ne_nil hu
      simp_all
    | cons c w =>
      simp_all

/-- A text that stands in masked rows stands there in the rows as written, unless it reaches an
emptied one. -/
theorem standsAt_iff_of_mask {rows : List Text} (hr : AreRows rows) (hu : u ≠ [])
    (hfirst : u.head? ≠ some '\n') (hlast : u.getLast? ≠ some '\n')
    (h : StandsAt (rows.map maskLine).flatten ⟨k + 1, column⟩ u) :
    StandsAt rows.flatten ⟨k + 1, column⟩ u ↔
      ∀ row ∈ (rows.drop k).take (u.count '\n' + 1), isShellLine row = false := by
  obtain ⟨w, hw, hlen, hm⟩ := (standsAt_flatten (areRows_mask hr) hu).1 h
  rw [← List.map_drop] at hm
  have hdrop := hr.drop k
  rw [standsAt_flatten hr hu]
  generalize rows.drop k = below at hm hdrop
  have hne : w ++ u ≠ [] := by simp [hu]
  have hend : (w ++ u).getLast? ≠ some '\n' := by
    rw [List.getLast?_append, List.getLast?_eq_some_getLast hu]
    rwa [List.getLast?_eq_some_getLast hu] at hlast
  have hcount : (w ++ u).count '\n' = u.count '\n' := by
    rw [List.count_append, List.count_eq_zero.2 hw, Nat.zero_add]
  have hmask := prefix_iff_of_mask hdrop hne hend hm
  rw [hcount] at hmask
  rw [← hmask]
  constructor
  · rintro ⟨w', hw', hlen', hp⟩
    -- The first row is the same in both, and so is what it holds in front of the text.
    suffices w = w' by rwa [this]
    cases below with
    | nil => exact absurd (List.prefix_nil.1 hm) hne
    | cons row below =>
      have hshell := not_isShellLine_of_prefix hdrop hw hu hfirst hm
      have hrow' : w' <+: row := prefix_head hdrop hw' ((List.prefix_append w' u).trans hp)
      have hrow : w <+: maskLine row :=
        prefix_head (areRows_mask hdrop) hw ((List.prefix_append w u).trans hm)
      rw [maskLine_eq_self hshell, List.prefix_iff_eq_take, hlen] at hrow
      rw [List.prefix_iff_eq_take, hlen'] at hrow'
      rw [hrow, hrow']
  · intro hp
    exact ⟨w, hw, hlen, hp⟩

/-- The row in which a text of the masked rows begins was not emptied. -/
theorem not_isShellLine_of_standsAt {rows : List Text} (hr : AreRows rows) (hu : u ≠ [])
    (hfirst : u.head? ≠ some '\n') (h : StandsAt (rows.map maskLine).flatten ⟨k + 1, column⟩ u) :
    ∀ row ∈ (rows.drop k).take 1, isShellLine row = false := by
  obtain ⟨w, hw, -, hm⟩ := (standsAt_flatten (areRows_mask hr) hu).1 h
  rw [← List.map_drop] at hm
  have hdrop := hr.drop k
  cases hrows : rows.drop k with
  | nil => simp
  | cons row below =>
    rw [hrows] at hm hdrop
    simpa using not_isShellLine_of_prefix hdrop hw hu hfirst hm

theorem isShellLine_of_startsWith (h : startsWith (trim t) ['%', '%'] = true) :
    isShellLine t = true := by
  have hprefix : ['%', '%'] <+: trimStart t :=
    (List.isPrefixOf_iff_prefix.1 h).trans (prefix_trim t)
  obtain ⟨rest, hrest⟩ := hprefix
  rw [isShellLine, ← hrest]
  rfl

/-- A cell without lines for the shell is masked to itself. -/
theorem maskMagics?_eq_self (h : ∀ l ∈ lines t, isShellLine l = false) :
    maskMagics? t = some t := by
  have hforeign : isForeign (lines t) = false := by
    by_contra hmagic
    simp only [isForeign, Bool.not_eq_false, Bool.and_eq_true] at hmagic
    have hfirst : firstLine (lines t) ≠ [] := by
      intro hnil
      rw [hnil] at hmagic
      exact absurd hmagic.1 (by decide)
    obtain ⟨l, hl, hfirst⟩ : ∃ l ∈ lines t, trim l = firstLine (lines t) := by
      unfold firstLine at hfirst ⊢
      cases hfind : ((lines t).map trim).find? fun line => !line.isEmpty with
      | none => simp [hfind] at hfirst
      | some first =>
        obtain ⟨l, hl, hlfirst⟩ := List.mem_map.1 (List.mem_of_find?_eq_some hfind)
        exact ⟨l, hl, hlfirst⟩
    have hshell := isShellLine_of_startsWith (hfirst ▸ hmagic.1)
    simp [h l hl] at hshell
  have hmask : (lines t).map maskLine = lines t :=
    (List.map_congr_left fun l hl => maskLine_eq_self (h l hl)).trans (List.map_id _)
  simp only [maskMagics?, hforeign, hmask, flatten_lines]
  rfl

theorem maskMagics?_eq_flatten (hm : maskMagics? t = some m) :
    m = ((lines t).map maskLine).flatten := by
  simp only [maskMagics?] at hm
  split at hm
  · contradiction
  · exact (Option.some.inj hm).symm

theorem maskMagics?_eq_some (hb : ∀ c ∈ t, isLineBreak c = true → c = '\n')
    (hm : maskMagics? t = some m) : m = ((rows t).map maskLine).flatten := by
  rw [← lines_eq_rows hb]
  exact maskMagics?_eq_flatten hm

theorem StandsAt.exists_row (h : StandsAt t p u) : ∃ k column, p = ⟨k + 1, column⟩ := by
  obtain ⟨pre, -, -, hp⟩ := h
  obtain ⟨row, column⟩ := p
  exact ⟨pre.count '\n', column, by rw [row_eq_of_advance_eq hp, Nat.add_comm]⟩

/-- Where the line feed is the only line boundary, a text that stands at a position of the masked
source stands there in the source exactly when it reaches no line for the shell. -/
theorem standsAt_iff_of_maskMagics? (hb : ∀ c ∈ t, isLineBreak c = true → c = '\n')
    (hm : maskMagics? t = some m) (hu : u ≠ []) (hfirst : u.head? ≠ some '\n')
    (hlast : u.getLast? ≠ some '\n') (h : StandsAt m p u) :
    StandsAt t p u ↔ ∀ row ∈ reachedRows t p u, isShellLine row = false := by
  obtain ⟨k, column, rfl⟩ := h.exists_row
  rw [maskMagics?_eq_some hb hm] at h
  have := standsAt_iff_of_mask (areRows_rows t) hu hfirst hlast h
  rwa [flatten_rows] at this

/-- A text without line feeds that stands in the masked source stands there in the source. -/
theorem standsAt_of_not_mem (hb : ∀ c ∈ t, isLineBreak c = true → c = '\n')
    (hm : maskMagics? t = some m) (hu : u ≠ []) (hrow : '\n' ∉ u) (h : StandsAt m p u) :
    StandsAt t p u := by
  have hfirst : u.head? ≠ some '\n' := fun hc => hrow (List.mem_of_mem_head? hc)
  have hlast : u.getLast? ≠ some '\n' := fun hc => hrow (List.mem_of_mem_getLast? hc)
  rw [standsAt_iff_of_maskMagics? hb hm hu hfirst hlast h, reachedRows, List.count_eq_zero.2 hrow]
  obtain ⟨k, column, rfl⟩ := h.exists_row
  rw [maskMagics?_eq_some hb hm] at h
  exact not_isShellLine_of_standsAt (areRows_rows t) hu hfirst h

end Source

end VariableReport
