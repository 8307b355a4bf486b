import VariableReport.Proofs.Source.Assembly
import VariableReport.Proofs.Source.Stream
import VariableReport.Source.Assignment
import Mathlib.Data.List.Infix

/-!
# Where a statement stands among its tokens

The tokens of a statement are the tokens of code between two tokens that separate statements: the
end of a logical line or a semicolon. If all of these stand outside brackets, a statement begins
outside brackets (`extent_of_mem_statementsOf`), and so does the value of an assignment, for the
equal sign in front of it stands outside the brackets that the statement opens
(`split_of_valueFrom?`).
-/

namespace VariableReport.Source

/-- A token that stands between two statements. -/
def separates (t : Token) : Bool := endsLine t || isSemicolon t

/-- No separator stands inside brackets. -/
def SeparatesOutside (ts : List Token) : Prop :=
  ∀ before t after, ts = before ++ t :: after → separates t = true → level (codes before) ≤ 0

/-- The last of some tokens, from a point outside brackets on, with no separator among them. -/
structure Piece (ts inside : List Token) : Prop where
  outside : ∃ before, ts = before ++ inside ∧ level (codes before) ≤ 0
  joined : ∀ t ∈ inside, separates t = false

/-- Some tokens end with a piece that has these tokens of code. -/
def Gathers (ts code : List Token) : Prop := ∃ inside, Piece ts inside ∧ code = inside.filter isCode

/-- The statement has the tokens of code of a piece of some tokens. -/
def Extent (ts : List Token) (s : Statement) : Prop :=
  ∃ upTo after, ts = upTo ++ after ∧ Gathers upTo s.tokens

variable {ts us code inside : List Token} {t : Token} {s : Statement} {source : Text} {n : Nat}

theorem separates_of_isSemicolon (h : isSemicolon t = true) : separates t = true := by
  rw [separates, h, Bool.or_true]

theorem change_of_separates (h : separates t = true) : change t.kind t.text = 0 := by
  rw [separates, Bool.or_eq_true] at h
  rcases h with h | h
  · rw [change, if_neg]
    intro hk
    simp [endsLine, hk] at h
  · simp only [isSemicolon, Token.isOperator, Bool.and_eq_true, decide_eq_true_eq] at h
    rw [h.1, h.2]
    decide

theorem Piece.goesOn (h : Piece ts inside) (ht : separates t = false) :
    Piece (ts ++ [t]) (inside ++ [t]) := by
  obtain ⟨⟨before, rfl, hlevel⟩, hjoined⟩ := h
  refine ⟨⟨before, List.append_assoc .., hlevel⟩, fun u hu => ?_⟩
  rcases List.mem_append.1 hu with hu | hu
  · exact hjoined u hu
  · rw [List.mem_singleton.1 hu]
    exact ht

/-- Behind a separator outside brackets a new piece begins. -/
theorem gathers_nil (h : level (codes ts) ≤ 0) (ht : separates t = true) :
    Gathers (ts ++ [t]) [] := by
  refine ⟨[], ⟨⟨ts ++ [t], by simp, ?_⟩, by simp⟩, rfl⟩
  rw [codes_append, level_append, level_codes_cons, change_of_separates ht]
  simpa [codes, level] using h

/-- A token that is neither code nor a separator. -/
theorem Gathers.silent (h : Gathers ts code)
    (hk : t.kind = .indent ∨ t.kind = .dedent ∨ t.kind = .rowEnd ∨ t.kind = .comment) :
    Gathers (ts ++ [t]) code := by
  obtain ⟨inside, hpiece, rfl⟩ := h
  have hs : separates t = false := by
    rcases hk with hk | hk | hk | hk <;> simp [separates, endsLine, isSemicolon, Token.isOperator, hk]
  have hcode : isCode t = false := by
    rcases hk with hk | hk | hk | hk <;> simp [isCode, Token.isLayout, hk]
  exact ⟨inside ++ [t], hpiece.goesOn hs, by simp [List.filter_append, hcode]⟩

/-- A token of code that is no separator. -/
theorem Gathers.joins (h : Gathers ts code) (hl : t.isLayout = false) (hk : t.kind ≠ .comment)
    (hs : isSemicolon t = false) : Gathers (ts ++ [t]) (code ++ [t]) := by
  obtain ⟨inside, hpiece, rfl⟩ := h
  obtain ⟨-, -, hends, -⟩ := Token.isLayout_eq_false_iff.1 hl
  have hsep : separates t = false := by
    rw [separates, hs, Bool.or_false, endsLine]
    simpa using hends
  exact ⟨inside ++ [t], hpiece.goesOn hsep, by simp [List.filter_append, isCode, hl, hk]⟩

theorem Gathers.extent (h : Gathers ts s.tokens) : Extent ts s := ⟨ts, [], by simp, h⟩

theorem Extent.append (h : Extent ts s) (us : List Token) : Extent (ts ++ us) s := by
  obtain ⟨upTo, after, rfl, hs⟩ := h
  exact ⟨upTo, after ++ us, List.append_assoc .., hs⟩

namespace Assembly

/-- What is open after some tokens is a piece of them, and so is the statement that has ended. -/
structure Reaches (ts : List Token) (a : Assembly) : Prop where
  current : Gathers ts a.current
  ended : ∀ s ∈ a.ended, Extent ts s

variable {a : Assembly}

theorem Reaches.statement? (h : a.Reaches ts) : ∀ s ∈ a.statement? source n, Extent ts s := by
  intro s hs
  unfold Assembly.statement? at hs
  split at hs
  · contradiction
  · obtain rfl := Option.some.inj hs
    exact Gathers.extent h.current

/-- One token keeps what is open a piece, and hands out statements that are pieces. -/
theorem Reaches.step (h : a.Reaches ts) (ht : separates t = true → level (codes ts) ≤ 0) :
    (∀ s ∈ (a.step source n t).1, Extent (ts ++ [t]) s) ∧
      (a.step source n t).2.Reaches (ts ++ [t]) := by
  have hended : ∀ s ∈ a.ended, Extent (ts ++ [t]) s := fun s hs => (h.ended s hs).append [t]
  have hout : ∀ s ∈ a.ended.toList, Extent (ts ++ [t]) s :=
    fun s hs => hended s (Option.mem_toList.1 hs)
  have hstatement : ∀ s ∈ a.statement? source n, Extent (ts ++ [t]) s :=
    fun s hs => (h.statement? s hs).append [t]
  have hnone : ∀ s ∈ ([] : List Statement), Extent (ts ++ [t]) s := by simp
  have hstep := @stepped source n a t
  generalize a.step source n t = r at hstep ⊢
  cases hstep with
  | indent hk => exact ⟨hnone, h.current.silent (.inl hk), hended⟩
  | dedent hk => exact ⟨hnone, h.current.silent (.inr (.inl hk)), hended⟩
  | trails hk => exact ⟨hnone, h.current.silent (.inr (.inr (.inr hk))), hended⟩
  | joins hk =>
    refine ⟨hnone, h.current.silent (.inr (.inr (.inr hk))), fun s hs => ?_⟩
    obtain ⟨s, hs', rfl⟩ := Option.map_eq_some_iff.1 hs
    exact hended s hs'
  | leads hk => exact ⟨hnone, h.current.silent (.inr (.inr (.inr hk))), hended⟩
  | ends hk =>
    have hs : separates t = true := by rcases hk with hk | hk <;> simp [separates, endsLine, hk]
    refine ⟨fun s hs => ?_, gathers_nil (ht hs) hs, by simp⟩
    rcases List.mem_append.1 hs with hs | hs
    · exact hout s hs
    · exact hstatement s (Option.mem_toList.1 hs)
  | semicolon hsemicolon hstat =>
    have hs := separates_of_isSemicolon hsemicolon
    refine ⟨hout, gathers_nil (ht hs) hs, fun s' hs' => ?_⟩
    obtain rfl := Option.some.inj hs'
    exact hstatement _ hstat
  | idleSemicolon hsemicolon hstat =>
    have hs := separates_of_isSemicolon hsemicolon
    have hempty : a.current = [] := by simpa [Assembly.statement?] using hstat
    have hcurrent : Gathers (ts ++ [t]) a.current := hempty ▸ gathers_nil (ht hs) hs
    exact ⟨hnone, hcurrent, hended⟩
  | rowEnd hk => exact ⟨hnone, h.current.silent (.inr (.inr (.inl hk))), hended⟩
  | begins hl hk hs hempty =>
    have hcurrent := h.current.joins hl hk hs
    rw [hempty] at hcurrent
    exact ⟨hout, hcurrent, by simp⟩
  | goesOn hl hk hs => exact ⟨hnone, h.current.joins hl hk hs, hended⟩

theorem Reaches.assemble (h : a.Reaches ts) (hts : SeparatesOutside (ts ++ us)) :
    ∀ s ∈ Source.assemble source n a us, Extent (ts ++ us) s := by
  induction us generalizing a ts with
  | nil =>
    intro s hs
    rw [List.append_nil]
    exact h.ended s (Option.mem_toList.1 hs)
  | cons t us ih =>
    obtain ⟨hout, hnext⟩ := @Reaches.step _ t source n _ h (hts ts t us rfl)
    rw [List.append_cons] at hts ⊢
    intro s hs
    rcases List.mem_append.1 hs with hs | hs
    · exact (hout s hs).append us
    · exact ih hnext hts s hs

end Assembly

/-- The tokens of a statement stand together, and begin outside brackets. -/
theorem extent_of_mem_statementsOf (hts : SeparatesOutside ts) (hs : s ∈ statementsOf source n ts) :
    Extent ts s := by
  have hnew : ({} : Assembly).Reaches [] :=
    ⟨⟨[], ⟨⟨[], rfl, by decide⟩, by simp⟩, rfl⟩, by simp⟩
  exact hnew.assemble hts s hs

/-! ### The tokens of a statement in the run -/

/-- Around a member of a filtered list the list itself splits. -/
theorem split_of_filter_eq {α : Type} {p : α → Bool} {xs ys zs : List α} {x : α}
    (h : xs.filter p = ys ++ x :: zs) : ∃ before after, xs = before ++ x :: after ∧
      before.filter p = ys ∧ after.filter p = zs := by
  obtain ⟨before, rest, rfl, hbefore, hrest⟩ := List.filter_eq_append_iff.1 h
  obtain ⟨gap, after, rfl, hgap, -, hafter⟩ := List.filter_eq_cons_iff.1 hrest
  refine ⟨before ++ gap, after, by simp, ?_, hafter⟩
  rw [List.filter_append, List.filter_eq_nil_iff.2 hgap, List.append_nil, hbefore]

theorem codes_filter (ts : List Token) : codes (ts.filter isCode) = codes ts := by
  rw [codes, codes, List.filter_filter]
  simp

theorem Extent.isCode (h : Extent ts s) : ∀ tok ∈ s.tokens, Source.isCode tok = true := by
  obtain ⟨upTo, after, -, inside, -, htokens⟩ := h
  exact fun tok htok => (List.mem_filter.1 (htokens ▸ htok)).2

/-- From a token of a statement to its last one the run goes over no end of a logical line, and its
tokens of code are those of the statement. -/
theorem Extent.split {front rest : List Token} {first last : Token} (h : Extent ts s)
    (hsplit : s.tokens = front ++ first :: rest) (hlast : s.tokens.getLast? = some last) :
    ∃ before line inner after, ts = before ++ first :: line ∧
      first :: line = inner ++ last :: after ∧ level (codes before) ≤ level (codes front) ∧
      (first :: rest).map Token.shape = codes inner ++ [last.shape] ∧
      ∀ tok ∈ inner, endsLine tok = false ∧ (Source.isCode tok = true → tok ∈ s.tokens) := by
  have hfirst := h.isCode first (by simp [hsplit])
  obtain ⟨upTo, behind, rfl, inside, ⟨⟨before, rfl, hlevel⟩, hjoined⟩, htokens⟩ := h
  obtain ⟨gap, line, rfl, rfl, hline⟩ := split_of_filter_eq (htokens.symm.trans hsplit)
  obtain ⟨init, hinit⟩ : ∃ init, first :: rest = init ++ [last] := by
    rw [hsplit, List.getLast?_append_of_ne_nil _ (by simp)] at hlast
    exact List.getLast?_eq_some_iff.1 hlast
  obtain ⟨inner, after, hinner, rfl, -⟩ : ∃ inner after, first :: line = inner ++ last :: after ∧
      inner.filter Source.isCode = init ∧ after.filter Source.isCode = [] := by
    refine split_of_filter_eq ?_
    rw [List.filter_cons_of_pos hfirst, hline, hinit]
  refine ⟨before ++ gap, line ++ behind, inner, after ++ behind, by simp, ?_, ?_, ?_, ?_⟩
  · rw [← List.cons_append, hinner, List.append_assoc, List.cons_append]
  · rw [codes_append, level_append, codes_filter]
    omega
  · rw [hinit, codes, List.map_append, List.map_singleton]
  · intro tok htok
    have hmem : tok ∈ gap ++ first :: line := by
      rw [hinner]
      simp [htok]
    refine ⟨(Bool.or_eq_false_iff.1 (hjoined tok hmem)).1, fun hcode => ?_⟩
    rw [htokens]
    exact List.mem_filter.2 ⟨hmem, hcode⟩

/-! ### The value of an assignment -/

/-- What an operator does to the number of open brackets. -/
theorem bracketChange_eq (t : Text) :
    bracketChange t = if isOpening t then 1 else if isClosing t then -1 else 0 := by
  simp only [bracketChange, isOpening, isClosing, Bool.or_eq_true, decide_eq_true_eq, or_assoc]

/-- In front of an equal sign outside brackets at most as many brackets are opened as closed. -/
theorem split_of_mem_equalSigns {depth i k : Nat} {b : Int} (h : k ∈ equalSigns depth i ts)
    (hb : b ≤ depth) : ∃ before eq after, ts = before ++ eq :: after ∧ k = i + before.length ∧
      eq.isOperator ['='] = true ∧ b + level (codes before) ≤ 0 := by
  -- A token in front of the equal sign.
  have hcons {t : Token} {ts : List Token} {i : Nat} {b : Int}
      (h : ∃ before eq after, ts = before ++ eq :: after ∧ k = i + 1 + before.length ∧
        eq.isOperator ['='] = true ∧ b + change t.kind t.text + level (codes before) ≤ 0) :
      ∃ before eq after, t :: ts = before ++ eq :: after ∧ k = i + before.length ∧
        eq.isOperator ['='] = true ∧ b + level (codes before) ≤ 0 := by
    obtain ⟨before, eq, after, rfl, rfl, heq, hlevel⟩ := h
    refine ⟨t :: before, eq, after, rfl, by rw [List.length_cons]; omega, heq, ?_⟩
    rwa [level_codes_cons, ← Int.add_assoc]
  fun_induction equalSigns depth i ts generalizing b with
  | case1 => contradiction
  | case2 depth i t ts hkind ih =>
    refine hcons (ih h ?_)
    rwa [change, if_neg hkind, Int.add_zero]
  | case3 depth i t ts hkind hopen ih =>
    refine hcons (ih h ?_)
    rw [change, if_pos (not_not.1 hkind), bracketChange_eq, if_pos hopen]
    omega
  | case4 depth i t ts hkind hopen hclose ih =>
    refine hcons (ih h ?_)
    rw [change, if_pos (not_not.1 hkind), bracketChange_eq, if_neg hopen, if_pos hclose]
    omega
  | case5 depth i t ts hkind hopen hclose heq ih =>
    have hchange : change t.kind t.text = 0 := by
      rw [change, if_pos (not_not.1 hkind), bracketChange_eq, if_neg hopen, if_neg hclose]
    rcases List.mem_cons.1 h with rfl | h
    · simp only [Bool.and_eq_true, decide_eq_true_eq] at heq
      have hsign : t.isOperator ['='] = true := by
        simp [Token.isOperator, not_not.1 hkind, heq.2]
      refine ⟨[], t, ts, rfl, rfl, hsign, ?_⟩
      simpa [heq.1, codes, level] using hb
    · exact hcons (ih h (by rwa [hchange, Int.add_zero]))
  | case6 depth i t ts hkind hopen hclose heq ih =>
    refine hcons (ih h ?_)
    rwa [change, if_pos (not_not.1 hkind), bracketChange_eq, if_neg hopen, if_neg hclose,
      Int.add_zero]

/-- The value of an assignment stands behind an equal sign that is outside the brackets which the
statement opens. -/
theorem split_of_valueFrom? {i : Nat} (h : valueFrom? ts = some i) : ∃ before eq,
    ts.take i = before ++ [eq] ∧ eq.isOperator ['='] = true ∧ level (codes before) ≤ 0 := by
  unfold valueFrom? at h
  split at h
  next target second third rest =>
    split at h
    · contradiction
    next hname =>
      split at h
      · contradiction
      split at h
      next sign hsigns =>
        split at h
        · contradiction
        obtain rfl := Option.some.inj h
        have hmem : sign ∈ [sign] := List.mem_singleton.2 rfl
        rw [← hsigns] at hmem
        obtain ⟨before, eq, after, hsplit, hsign, heq, hlevel⟩ :=
          split_of_mem_equalSigns hmem (Int.le_refl 0)
        obtain ⟨behind, hbehind⟩ : before ++ eq :: after <+: second :: third :: rest := by
          rw [← hsplit]
          exact List.IsPrefix.drop (List.takeWhile_prefix _) 1
        have htarget : target.kind ≠ .operator := by
          intro hk
          simp [hk] at hname
        refine ⟨target :: before, eq, ?_, heq, ?_⟩
        · have hlength : sign = (before ++ [eq]).length := by
            rw [List.length_append, List.length_singleton]
            omega
          have htail : second :: third :: rest = before ++ [eq] ++ (after ++ behind) := by
            rw [← hbehind]
            simp
          rw [hlength, List.take_succ_cons, htail, List.take_left, List.cons_append]
        · rwa [level_codes_cons, change, if_neg htarget]
      next => contradiction
  next => contradiction

/-- An equal sign opens no bracket. -/
theorem level_take_valueFrom? {i : Nat} (h : valueFrom? ts = some i) :
    level (codes (ts.take i)) ≤ 0 := by
  obtain ⟨before, eq, htake, heq, hlevel⟩ := split_of_valueFrom? h
  simp only [Token.isOperator, Bool.and_eq_true, decide_eq_true_eq] at heq
  have hchange : change eq.kind eq.text = 0 := by
    rw [heq.1, heq.2]
    decide
  rw [htake, codes_append, level_append, level_codes_cons, hchange]
  simpa [codes, level] using hlevel

end VariableReport.Source
