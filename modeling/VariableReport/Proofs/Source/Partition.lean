import VariableReport.Proofs.Source.Extent
import Mathlib.Data.List.DropRight

/-!
# Statements divide the tokens

A run of tokens is divided into statements (`Divided`): in front of each statement there is an idle
stretch without code but semicolons, then come the tokens of the statement up to a separator, and
behind a semicolon the rest of the line, unless another statement begins on it. The comments of the
idle stretch lead the statement, but for those behind a semicolon of their line, and the comments
from its first token on trail it. An assembly that goes over such a run is always in one of three
states, which are told from the tokens that it has gone over (`Assembly.waiting`,
`Assembly.reading`, `Assembly.closed`), and so the statements of a run divide it
(`divided_statementsOf`). From the division it is read off that no token of a statement is lost
(`Divided.flatMap_tokens`) and which comments are (`Divided.flatMap_comments`).
-/

namespace VariableReport.Source

/-- A token of a statement is code that is no semicolon. -/
def isPart (t : Token) : Bool := isCode t && !isSemicolon t

def commentTexts (ts : List Token) : List Text :=
  (ts.filter fun t => t.kind = .comment).map Token.text

/-- Opened less closed blocks. -/
def blocks (ts : List Token) : Int :=
  (ts.countP fun t => t.kind = .indent) - (ts.countP fun t => t.kind = .dedent)

/-- The tokens of the logical line that is open behind some tokens. -/
def openLine (before : List Token) : List Token := before.rtakeWhile fun t => !endsLine t

def hasPart (before : List Token) : Bool := (openLine before).any isPart

def hasSemicolon (before : List Token) : Bool := (openLine before).any isSemicolon

/-- The comments of which `p` holds, given the tokens before and after. -/
def commentsWhere (p : List Token → List Token → Bool) (before : List Token) :
    List Token → List Text
  | [] => []
  | t :: after =>
    (if t.kind = .comment && p before after then [t.text] else []) ++
      commentsWhere p (before ++ [t]) after

/-- The comments in front of which their line holds no semicolon. -/
def leads (before idle : List Token) : List Text :=
  commentsWhere (fun above _ => !hasSemicolon above) before idle

/-- A comment is attached behind a part of a statement on its line, and in front of one if no
semicolon stands before it on its line. -/
def attached (before after : List Token) : Bool :=
  hasPart before || (!hasSemicolon before && after.any isPart)

/-- What may stand between the tokens of a statement and the next token that ends the logical line
or begins a statement. -/
inductive Behind : List Token → Token → Prop
  | nothing {next : Token} : endsLine next = true → Behind [] next
  | semicolon {e next : Token} {quiet : List Token} : isSemicolon e = true →
      (∀ t ∈ quiet, isPart t = false ∧ endsLine t = false) →
      endsLine next = true ∨ isPart next = true → Behind (e :: quiet) next

/-- A statement with the tokens before it, and with its own tokens and what stands behind them. -/
def statementAt (source : Text) (n : Nat) (before idle : List Token) (first : Token)
    (code behind : List Token) : Statement :=
  { source
    tokens := first :: code.filter isPart
    depth := blocks (before ++ idle)
    linesAbove := n
    leading := leads before idle
    trailing := commentTexts (code ++ behind) }

/-- The tokens that follow `before` are divided into the statements. -/
inductive Divided (source : Text) (n : Nat) : List Token → List Token → List Statement → Prop
  | rest {before ts : List Token} : (∀ t ∈ ts, isPart t = false) → Divided source n before ts []
  | statement {before idle code behind below : List Token} {first next : Token}
      {ss : List Statement} : (∀ t ∈ idle, isPart t = false) → isPart first = true →
      (∀ t ∈ code, separates t = false) → Behind behind next →
      Divided source n (before ++ idle ++ first :: (code ++ behind)) (next :: below) ss →
      Divided source n before (idle ++ first :: (code ++ behind ++ next :: below))
        (statementAt source n before idle first code behind :: ss)

variable {source : Text} {n : Nat} {before after idle code behind quiet ts us : List Token}
  {t e first next : Token} {ss : List Statement} {p q : List Token → List Token → Bool}

theorem isPart_of_separates (h : separates t = true) : isPart t = false := by
  rw [separates, Bool.or_eq_true] at h
  rcases h with h | h
  · have hcode : isCode t = false := by
      simp only [endsLine, Bool.or_eq_true, decide_eq_true_eq] at h
      rcases h with h | h <;> simp [isCode, Token.isLayout, h]
    rw [isPart, hcode, Bool.false_and]
  · rw [isPart, h, Bool.not_true, Bool.and_false]

theorem isPart_iff : isPart t = true ↔
    t.isLayout = false ∧ t.kind ≠ .comment ∧ isSemicolon t = false := by
  simp [isPart, isCode, and_assoc]

theorem kind_of_endsLine (h : endsLine t = true) : t.kind = .lineEnd ∨ t.kind = .endMarker := by
  simpa [endsLine] using h

theorem endsLine_of_isPart (h : isPart t = true) : endsLine t = false := by
  obtain ⟨-, -, hends, -⟩ := Token.isLayout_eq_false_iff.1 (isPart_iff.1 h).1
  exact eq_false_of_ne_true hends

theorem blocks_singleton (h : t.kind ≠ .indent ∧ t.kind ≠ .dedent) : blocks [t] = 0 := by
  simp [blocks, h]

theorem blocks_of_separates (h : separates t = true) : blocks [t] = 0 := by
  refine blocks_singleton ?_
  rw [separates, Bool.or_eq_true] at h
  rcases h with h | h
  · rcases kind_of_endsLine h with h | h <;> simp [h]
  · simp [kind_of_isSemicolon h]

theorem blocks_of_isPart (h : isPart t = true) : blocks [t] = 0 := by
  obtain ⟨hindent, hdedent, -⟩ := Token.isLayout_eq_false_iff.1 (isPart_iff.1 h).1
  exact blocks_singleton ⟨hindent, hdedent⟩

theorem Behind.isPart_eq_false (h : Behind behind next) : ∀ t ∈ behind, isPart t = false := by
  cases h with
  | nothing => simp
  | semicolon he hquiet =>
    exact List.forall_mem_cons.2
      ⟨isPart_of_separates (separates_of_isSemicolon he), fun t ht => (hquiet t ht).1⟩

theorem Behind.endsLine_eq_false (h : Behind behind next) : ∀ t ∈ behind, endsLine t = false := by
  cases h with
  | nothing => simp
  | semicolon he hquiet =>
    refine List.forall_mem_cons.2 ⟨?_, fun t ht => (hquiet t ht).2⟩
    simp [endsLine, kind_of_isSemicolon he]

theorem Behind.cases_next (h : Behind behind next) : endsLine next = true ∨ isPart next = true := by
  cases h with
  | nothing h => exact .inl h
  | semicolon _ _ h => exact h

theorem filter_isPart_eq_nil (h : ∀ t ∈ ts, isPart t = false) : ts.filter isPart = [] :=
  List.filter_eq_nil_iff.2 (by simpa using h)

theorem commentTexts_append (ts us : List Token) :
    commentTexts (ts ++ us) = commentTexts ts ++ commentTexts us := by
  simp [commentTexts]

theorem blocks_append (ts us : List Token) : blocks (ts ++ us) = blocks ts + blocks us := by
  simp only [blocks, List.countP_append]
  omega

theorem openLine_concat (before : List Token) (t : Token) :
    openLine (before ++ [t]) = if endsLine t then [] else openLine before ++ [t] := by
  rw [openLine, List.rtakeWhile_concat]
  cases endsLine t <;> rfl

theorem openLine_append (before ts : List Token) :
    openLine (before ++ ts) = if ts.any endsLine then openLine ts else openLine before ++ ts := by
  induction ts using List.reverseRecOn with
  | nil => simp
  | append_singleton ts t ih =>
    rw [← List.append_assoc, openLine_concat, openLine_concat, ih, List.any_append]
    cases ht : endsLine t with
    | true => simp [ht]
    | false => cases hts : ts.any endsLine <;> simp [ht]

theorem openLine_suffix (ts : List Token) : openLine ts <:+ ts := List.rtakeWhile_suffix ..

theorem hasSemicolon_concat_of_endsLine (h : endsLine t = true) :
    hasSemicolon (before ++ [t]) = false := by
  rw [hasSemicolon, openLine_concat, if_pos h]
  rfl

theorem hasSemicolon_concat (h : endsLine t = false) :
    hasSemicolon (before ++ [t]) = (hasSemicolon before || isSemicolon t) := by
  simp [hasSemicolon, openLine_concat, h]

theorem hasPart_concat (h : endsLine t = false) :
    hasPart (before ++ [t]) = (hasPart before || isPart t) := by
  simp [hasPart, openLine_concat, h]

theorem commentsWhere_append (p : List Token → List Token → Bool) (before ts us : List Token) :
    commentsWhere p before (ts ++ us) =
      commentsWhere (fun above after => p above (after ++ us)) before ts ++
        commentsWhere p (before ++ ts) us := by
  induction ts generalizing before with
  | nil => simp [commentsWhere]
  | cons t ts ih => simp [commentsWhere, ih]

theorem commentsWhere_congr (h : ∀ front c back, ts = front ++ c :: back → c.kind = .comment →
    p (before ++ front) back = q (before ++ front) back) :
    commentsWhere p before ts = commentsWhere q before ts := by
  induction ts generalizing before with
  | nil => rfl
  | cons t ts ih =>
    have htail : commentsWhere p (before ++ [t]) ts = commentsWhere q (before ++ [t]) ts :=
      ih fun front c back hts hc => by
        simpa using h (t :: front) c back (congrArg (t :: ·) hts) hc
    rw [commentsWhere, commentsWhere, htail]
    cases hc : decide (t.kind = .comment) with
    | false => rfl
    | true =>
      have hhead := h [] t ts rfl (of_decide_eq_true hc)
      rw [List.append_nil] at hhead
      rw [hhead]

theorem commentsWhere_true (before ts : List Token) :
    commentsWhere (fun _ _ => true) before ts = commentTexts ts := by
  induction ts generalizing before with
  | nil => rfl
  | cons t ts ih =>
    rw [commentsWhere, ih]
    by_cases hc : t.kind = .comment <;> simp [commentTexts, hc]

theorem commentsWhere_false (before ts : List Token) :
    commentsWhere (fun _ _ => false) before ts = [] := by
  induction ts generalizing before with
  | nil => rfl
  | cons t ts ih => simp [commentsWhere, ih]

theorem leads_concat (before idle : List Token) (t : Token) :
    leads before (idle ++ [t]) = leads before idle ++
      if t.kind = .comment && !hasSemicolon (before ++ idle) then [t.text] else [] := by
  simp [leads, commentsWhere_append, commentsWhere]

/-! ### The three states of an assembly -/

namespace Assembly

/-- No statement has begun since a logical line ended. -/
def waiting (before idle : List Token) : Assembly :=
  { depth := blocks (before ++ idle)
    leading := leads before idle
    afterSemicolon := hasSemicolon (before ++ idle) }

/-- A statement has begun and no separator has come. -/
def reading (before idle : List Token) (first : Token) (code : List Token) : Assembly :=
  { depth := blocks (before ++ idle ++ first :: code)
    current := first :: code.filter isPart
    startDepth := blocks (before ++ idle)
    leading := leads before idle
    trailing := commentTexts code }

/-- A semicolon has ended a statement on this line. -/
def closed (source : Text) (n : Nat) (before idle : List Token) (first : Token)
    (code behind : List Token) : Assembly :=
  { depth := blocks (before ++ idle ++ first :: (code ++ behind))
    ended := some (statementAt source n before idle first code behind)
    afterSemicolon := true }

theorem waiting_concat : waiting before (idle ++ [t]) =
    { depth := (waiting before idle).depth + blocks [t]
      leading := (waiting before idle).leading ++
        if t.kind = .comment && !(waiting before idle).afterSemicolon then [t.text] else []
      afterSemicolon := !endsLine t && ((waiting before idle).afterSemicolon || isSemicolon t) } := by
  unfold waiting
  rw [← List.append_assoc, blocks_append, leads_concat]
  cases h : endsLine t with
  | true => rw [hasSemicolon_concat_of_endsLine h]; rfl
  | false => rw [hasSemicolon_concat h]; rfl

/-- What is no part of a statement changes the depth, waits for a statement or has no effect. -/
theorem step_waiting_of_not_part (h : isPart t = false) :
    (waiting before idle).step source n t = ([], waiting before (idle ++ [t])) := by
  rw [waiting_concat]
  have hcurrent : (waiting before idle).current = [] := rfl
  have hended : (waiting before idle).ended = none := rfl
  have hstat : (waiting before idle).statement? source n = none := rfl
  generalize ha : waiting before idle = a at hcurrent hended hstat ⊢
  have hother : a = { depth := a.depth, leading := a.leading, afterSemicolon := a.afterSemicolon } := by
    rw [← ha]
    rfl
  have hstep := @stepped source n a t
  generalize a.step source n t = r at hstep ⊢
  cases hstep with
  | indent hk =>
    rw [hother]
    simp [blocks, endsLine, isSemicolon, Token.isOperator, hk]
  | dedent hk => 
    rw [hother]
    simp [blocks, endsLine, isSemicolon, Token.isOperator, hk, Int.sub_eq_add_neg]
  | trails hk hne => exact absurd hcurrent hne
  | joins hk _ hafter =>
    rw [hother]
    simp [blocks, endsLine, isSemicolon, Token.isOperator, hk, hafter, extendEnded]
  | leads hk _ hafter =>
    rw [hother]
    simp [blocks, endsLine, isSemicolon, Token.isOperator, hk, hafter]
  | ends hk =>
    rw [hother]
    rcases hk with hk | hk <;> simp [blocks, endsLine, hk, statement?]
  | semicolon _ hs => rw [hstat] at hs; contradiction
  | idleSemicolon hs =>
    rw [hother]
    simp [blocks, endsLine, kind_of_isSemicolon hs, hs]
  | rowEnd hk =>
    rw [hother]
    simp [blocks, endsLine, isSemicolon, Token.isOperator, hk]
  | begins hl hc hs => simp [isPart, isCode, hl, hc, hs] at h
  | goesOn hl hc hs => simp [isPart, isCode, hl, hc, hs] at h

theorem waiting_of_endsLine (h : endsLine next = true) :
    waiting before [next] = { depth := blocks before } := by
  have hkind : next.kind ≠ .comment := by
    rcases kind_of_endsLine h with h | h <;> simp [h]
  have hseparates : separates next = true := by rw [separates, h, Bool.true_or]
  unfold waiting leads
  rw [hasSemicolon_concat_of_endsLine h, blocks_append, blocks_of_separates hseparates]
  simp [commentsWhere, hkind]

theorem step_waiting_of_part (h : isPart t = true) :
    (waiting before idle).step source n t = ([], reading before idle t []) := by
  obtain ⟨hl, hc, hs⟩ := isPart_iff.1 h
  rw [(Stepped.begins hl hc hs rfl).eq]
  simp [waiting, reading, blocks_append, blocks_of_isPart h, commentTexts]

theorem reading_concat : reading before idle first (code ++ [t]) =
    { reading before idle first code with
      depth := (reading before idle first code).depth + blocks [t]
      current := (reading before idle first code).current ++ [t].filter isPart
      trailing := (reading before idle first code).trailing ++ commentTexts [t] } := by
  unfold reading
  rw [commentTexts_append, List.filter_append, ← List.cons_append, ← List.append_assoc,
    blocks_append _ [t], List.cons_append]

theorem step_reading_of_not_separates (h : separates t = false) :
    (reading before idle first code).step source n t =
      ([], reading before idle first (code ++ [t])) := by
  rw [reading_concat]
  have hcurrent : (reading before idle first code).current ≠ [] := by simp [reading]
  generalize reading before idle first code = a at hcurrent ⊢
  rw [separates, Bool.or_eq_false_iff] at h
  have hstep := @stepped source n a t
  generalize a.step source n t = r at hstep ⊢
  cases hstep with
  | indent hk => simp [blocks, commentTexts, isPart, isCode, Token.isLayout, hk]
  | dedent hk =>
    simp [blocks, commentTexts, isPart, isCode, Token.isLayout, hk, Int.sub_eq_add_neg]
  | trails hk => simp [blocks, commentTexts, isPart, isCode, hk]
  | joins _ hempty => exact absurd hempty hcurrent
  | leads _ hempty => exact absurd hempty hcurrent
  | ends hk => rcases hk with hk | hk <;> simp [endsLine, hk] at h
  | semicolon hs => simp [hs] at h
  | idleSemicolon hs => simp [hs] at h
  | rowEnd hk => simp [blocks, commentTexts, isPart, isCode, Token.isLayout, hk]
  | begins _ _ _ hempty => exact absurd hempty hcurrent
  | goesOn hl hc hs =>
    have hpart := isPart_iff.2 ⟨hl, hc, hs⟩
    simp [blocks_of_isPart hpart, commentTexts, hpart, hc]

theorem statement?_reading : (reading before idle first code).statement? source n =
    some (statementAt source n before idle first code []) := by
  simp [reading, statement?, statementAt]

theorem step_reading_of_endsLine (h : endsLine t = true) :
    (reading before idle first code).step source n t =
      ([statementAt source n before idle first code []],
        waiting (before ++ idle ++ first :: code) [t]) := by
  rw [(Stepped.ends (kind_of_endsLine h)).eq, statement?_reading, waiting_of_endsLine h]
  simp [reading]

theorem step_reading_of_isSemicolon (h : isSemicolon t = true) :
    (reading before idle first code).step source n t =
      ([], closed source n before idle first code [t]) := by
  have hk := kind_of_isSemicolon h
  have hblocks := blocks_of_separates (separates_of_isSemicolon h)
  rw [(Stepped.semicolon h statement?_reading).eq]
  have happend : before ++ idle ++ first :: (code ++ [t]) = before ++ idle ++ first :: code ++ [t] := by
    simp
  unfold closed
  rw [happend, blocks_append _ [t], hblocks]
  simp [reading, statementAt, commentTexts, hk]

theorem step_closed_of_quiet (h : isPart t = false) (hend : endsLine t = false) :
    (closed source n before idle first code behind).step source n t =
      ([], closed source n before idle first code (behind ++ [t])) := by
  have hconcat : closed source n before idle first code (behind ++ [t]) =
      { depth := (closed source n before idle first code behind).depth + blocks [t]
        ended := some { statementAt source n before idle first code behind with
          trailing := commentTexts (code ++ behind) ++ commentTexts [t] }
        afterSemicolon := true } := by
    have happend : before ++ idle ++ first :: (code ++ (behind ++ [t])) =
        before ++ idle ++ first :: (code ++ behind) ++ [t] := by simp
    unfold closed statementAt
    rw [happend, blocks_append _ [t], ← List.append_assoc, commentTexts_append _ [t]]
  rw [hconcat]
  have hstep := @stepped source n (closed source n before idle first code behind) t
  generalize (closed source n before idle first code behind).step source n t = r at hstep ⊢
  cases hstep with
  | indent hk => simp [blocks, commentTexts, closed, statementAt, hk]
  | dedent hk => simp [blocks, commentTexts, closed, statementAt, hk, Int.sub_eq_add_neg]
  | trails _ hne => exact absurd rfl hne
  | joins hk => simp [blocks, commentTexts, closed, statementAt, extendEnded, hk]
  | leads _ _ hafter => exact absurd hafter (by simp [closed])
  | ends hk => rcases hk with hk | hk <;> simp [endsLine, hk] at hend
  | semicolon _ hs => exact absurd hs (by simp [closed, statement?])
  | idleSemicolon hs =>
    simp [blocks, commentTexts, closed, statementAt, kind_of_isSemicolon hs]
  | rowEnd hk => simp [blocks, commentTexts, closed, statementAt, hk]
  | begins hl hc hs => rw [isPart_iff.2 ⟨hl, hc, hs⟩] at h; contradiction
  | goesOn _ _ _ hne => exact absurd rfl hne

theorem step_closed_of_endsLine (h : endsLine t = true) :
    (closed source n before idle first code behind).step source n t =
      ([statementAt source n before idle first code behind],
        waiting (before ++ idle ++ first :: (code ++ behind)) [t]) := by
  rw [(Stepped.ends (kind_of_endsLine h)).eq, waiting_of_endsLine h]
  simp [closed, statement?]

theorem step_closed_of_part (h : isPart t = true) :
    (closed source n before idle first code behind).step source n t =
      ([statementAt source n before idle first code behind],
        reading (before ++ idle ++ first :: (code ++ behind)) [] t []) := by
  obtain ⟨hl, hc, hs⟩ := isPart_iff.1 h
  have hblocks := blocks_append (before ++ idle ++ first :: (code ++ behind)) [t]
  rw [blocks_of_isPart h, Int.add_zero] at hblocks
  rw [(Stepped.begins hl hc hs rfl).eq]
  unfold closed reading
  rw [List.append_nil, hblocks]
  simp [leads, commentsWhere, commentTexts]

end Assembly

/-! ### The division -/

/-- From each of the three states on, the statements of the tokens divide them. -/
structure DividesFrom (source : Text) (n : Nat) (ts : List Token) : Prop where
  waiting {before idle : List Token} : (∀ t ∈ idle, isPart t = false) →
    Divided source n before (idle ++ ts) (assemble source n (.waiting before idle) ts)
  reading {before idle code : List Token} {first : Token} : ts ≠ [] →
    (∀ t ∈ idle, isPart t = false) → isPart first = true → (∀ t ∈ code, separates t = false) →
    Divided source n before (idle ++ first :: (code ++ ts))
      (assemble source n (.reading before idle first code) ts)
  closed {before idle code quiet : List Token} {first e : Token} : ts ≠ [] →
    (∀ t ∈ idle, isPart t = false) → isPart first = true → (∀ t ∈ code, separates t = false) →
    isSemicolon e = true → (∀ t ∈ quiet, isPart t = false ∧ endsLine t = false) →
    Divided source n before (idle ++ first :: (code ++ e :: quiet ++ ts))
      (assemble source n (.closed source n before idle first code (e :: quiet)) ts)

namespace DividesFrom

/-- Behind the end of a line the assembly waits again. -/
theorem waiting_of_endsLine (h : DividesFrom source n ts) (ht : endsLine t = true) :
    Divided source n before (t :: ts) (assemble source n (.waiting before [t]) ts) := by
  refine h.waiting (List.forall_mem_singleton.2 ?_)
  exact isPart_of_separates (by rw [separates, ht, Bool.true_or])

theorem reading_of_part (h : DividesFrom source n ts) (hmore : endsLine t = false → ts ≠ [])
    (hidle : ∀ t ∈ idle, isPart t = false) (ht : isPart t = true) :
    Divided source n before (idle ++ t :: ts) (assemble source n (.reading before idle t []) ts) :=
  h.reading (hmore (endsLine_of_isPart ht)) hidle ht (List.forall_mem_nil _)

theorem waiting_cons (h : DividesFrom source n ts) (hmore : endsLine t = false → ts ≠ [])
    (hidle : ∀ t ∈ idle, isPart t = false) :
    Divided source n before (idle ++ t :: ts)
      (assemble source n (.waiting before idle) (t :: ts)) := by
  cases hpart : isPart t with
  | true =>
    rw [assemble, Assembly.step_waiting_of_part hpart]
    exact h.reading_of_part hmore hidle hpart
  | false =>
    rw [assemble, Assembly.step_waiting_of_not_part hpart, List.append_cons]
    exact h.waiting (List.forall_mem_append.2 ⟨hidle, List.forall_mem_singleton.2 hpart⟩)

theorem reading_cons (h : DividesFrom source n ts) (hmore : endsLine t = false → ts ≠ [])
    (hidle : ∀ t ∈ idle, isPart t = false) (hfirst : isPart first = true)
    (hcode : ∀ t ∈ code, separates t = false) :
    Divided source n before (idle ++ first :: (code ++ t :: ts))
      (assemble source n (.reading before idle first code) (t :: ts)) := by
  cases hline : endsLine t with
  | true =>
    rw [assemble, Assembly.step_reading_of_endsLine hline]
    have hdivided : Divided source n before _ _ :=
      .statement hidle hfirst hcode (.nothing hline) (h.waiting_of_endsLine hline)
    rwa [List.append_nil] at hdivided
  | false =>
    cases hsemicolon : isSemicolon t with
    | true =>
      rw [assemble, Assembly.step_reading_of_isSemicolon hsemicolon]
      have hdivided : Divided source n before _ _ :=
        h.closed (hmore hline) hidle hfirst hcode hsemicolon (List.forall_mem_nil _)
      rwa [List.append_assoc] at hdivided
    | false =>
      have hsep : separates t = false := by rw [separates, hline, hsemicolon, Bool.false_or]
      rw [assemble, Assembly.step_reading_of_not_separates hsep, List.append_cons code]
      refine h.reading (hmore hline) hidle hfirst ?_
      exact List.forall_mem_append.2 ⟨hcode, List.forall_mem_singleton.2 hsep⟩

theorem closed_cons (h : DividesFrom source n ts) (hmore : endsLine t = false → ts ≠ [])
    (hidle : ∀ t ∈ idle, isPart t = false) (hfirst : isPart first = true)
    (hcode : ∀ t ∈ code, separates t = false) (he : isSemicolon e = true)
    (hquiet : ∀ t ∈ quiet, isPart t = false ∧ endsLine t = false) :
    Divided source n before (idle ++ first :: (code ++ e :: quiet ++ t :: ts))
      (assemble source n (.closed source n before idle first code (e :: quiet)) (t :: ts)) := by
  cases hline : endsLine t with
  | true =>
    rw [assemble, Assembly.step_closed_of_endsLine hline]
    exact .statement hidle hfirst hcode (.semicolon he hquiet (.inl hline))
      (h.waiting_of_endsLine hline)
  | false =>
    cases hpart : isPart t with
    | true =>
      rw [assemble, Assembly.step_closed_of_part hpart]
      exact .statement hidle hfirst hcode (.semicolon he hquiet (.inr hpart))
        (h.reading_of_part hmore (List.forall_mem_nil _) hpart)
    | false =>
      rw [assemble, Assembly.step_closed_of_quiet hpart hline, List.append_cons]
      have hmem := List.forall_mem_append.2 ⟨hquiet, List.forall_mem_singleton.2 ⟨hpart, hline⟩⟩
      have hdivided : Divided source n before _ _ := h.closed (hmore hline) hidle hfirst hcode he hmem
      simpa using hdivided

end DividesFrom

/-- The statements of tokens of which the last ends a line divide them. -/
theorem dividesFrom (hlast : ∀ t ∈ ts.getLast?, endsLine t = true) : DividesFrom source n ts := by
  induction ts with
  | nil =>
    refine ⟨fun hidle => ?_, fun h => absurd rfl h, fun h => absurd rfl h⟩
    rw [List.append_nil]
    exact .rest hidle
  | cons t ts ih =>
    have htail : DividesFrom source n ts := ih fun u hu => hlast u (by
      rw [List.getLast?_cons, Option.mem_def.1 hu]
      rfl)
    have hmore (h : endsLine t = false) : ts ≠ [] := by
      rintro rfl
      rw [hlast t rfl] at h
      contradiction
    exact ⟨htail.waiting_cons hmore, fun _ => htail.reading_cons hmore,
      fun _ => htail.closed_cons hmore⟩

/-- The last token of a text is the end marker. -/
theorem getLast?_of_lexRows {row : Nat} {s : LexState} {last : Text} {rows : List Text}
    (h : lexRows row s last rows = some ts) : ∃ e, ts.getLast? = some e ∧ e.kind = .endMarker := by
  have hfinish (row : Nat) (s : LexState) (last : Text) :
      ∃ e, (finish row s last).getLast? = some e ∧ e.kind = .endMarker :=
    ⟨_, List.getLast?_concat .., rfl⟩
  induction rows generalizing row s last ts with
  | nil =>
    rw [lexRows] at h
    split at h
    · rw [← Option.some.inj h]
      exact hfinish _ _ _
    · contradiction
  | cons line lines ih =>
    rw [lexRows] at h
    split at h
    · rw [← Option.some.inj h]
      exact hfinish _ _ _
    · obtain ⟨⟨tokens, s'⟩, -, h⟩ := Option.bind_eq_some_iff.1 h
      obtain ⟨rest, hrest, h⟩ := Option.bind_eq_some_iff.1 h
      obtain rfl := Option.some.inj h
      obtain ⟨e, he, hkind⟩ := ih hrest
      exact ⟨e, by rw [List.getLast?_append, he, Option.some_or], hkind⟩

theorem divided_statementsOf {t : Text} (h : tokens? t = some ts) (source : Text) (n : Nat) :
    Divided source n [] ts (statementsOf source n ts) := by
  obtain ⟨e, he, hkind⟩ := getLast?_of_lexRows h
  refine (dividesFrom fun u hu => ?_).waiting (List.forall_mem_nil _)
  rw [← Option.some.inj (he.symm.trans hu)]
  simp [endsLine, hkind]

/-! ### What the statements hold -/

namespace Divided

theorem tokens_ne (h : Divided source n before ts ss) : ∀ s ∈ ss, s.tokens ≠ [] := by
  induction h with
  | rest => simp
  | statement _ _ _ _ _ ih => exact List.forall_mem_cons.2 ⟨by simp [statementAt], ih⟩

/-- The statements have all the tokens of statements, in order. -/
theorem flatMap_tokens (h : Divided source n before ts ss) :
    ss.flatMap Statement.tokens = ts.filter isPart := by
  induction h with
  | rest hts => rw [filter_isPart_eq_nil hts, List.flatMap_nil]
  | statement hidle hfirst _ hbehind _ ih =>
    rw [List.flatMap_cons, ih]
    simp [statementAt, List.filter_append, List.filter_cons_of_pos hfirst,
      filter_isPart_eq_nil hidle, filter_isPart_eq_nil hbehind.isPart_eq_false]

end Divided


/-- An idle stretch begins on an empty line, or with the end of a line. -/
def Rests (before ts : List Token) : Prop :=
  openLine before = [] ∨ ∀ t ∈ ts.head?, endsLine t = true ∨ isPart t = true

theorem Rests.hasPart_eq_false {c : Token} {front back : List Token}
    (h : Rests before (front ++ c :: back)) (hc : c.kind = .comment)
    (hfront : ∀ t ∈ front, isPart t = false) : hasPart (before ++ front) = false := by
  rw [hasPart, List.any_eq_false, openLine_append]
  intro t ht
  rw [Bool.not_eq_true]
  split at ht
  · exact hfront t ((openLine_suffix front).subset ht)
  next hline =>
    rcases h with h | h
    · rw [h, List.nil_append] at ht
      exact hfront t ht
    · -- The comment is not the first token, and the first one ends a line.
      cases front with
      | nil =>
        rcases h c rfl with h | h
        · rcases kind_of_endsLine h with h | h <;> simp [h] at hc
        · exact absurd hc (isPart_iff.1 h).2.1
      | cons u front =>
        rw [List.forall_mem_cons] at hfront
        rcases h u rfl with h | h
        · simp [h] at hline
        · rw [hfront.1] at h
          contradiction

theorem hasPart_of_reading {code : List Token} (hfirst : isPart first = true)
    (hcode : ∀ t ∈ code, endsLine t = false) : hasPart (before ++ first :: code) = true := by
  have hline : (first :: code).any endsLine = false := by
    rw [List.any_cons, endsLine_of_isPart hfirst, Bool.false_or, List.any_eq_false]
    simpa using hcode
  rw [hasPart, openLine_append, if_neg (by simp [hline]), List.any_append, List.any_cons, hfirst,
    Bool.true_or, Bool.or_true]

namespace Divided

/-- The statements have the attached comments, in order. -/
theorem flatMap_comments (h : Divided source n before ts ss) (hrests : Rests before ts) :
    (ss.flatMap fun s => s.leading ++ s.trailing) = commentsWhere attached before ts := by
  induction h with
  | @rest before ts hts =>
    rw [List.flatMap_nil, ← commentsWhere_false before ts]
    refine (commentsWhere_congr fun front c back hsplit hc => ?_).symm
    subst hsplit
    have hback : back.any isPart = false := List.any_eq_false.2 fun t ht => by
      simpa using hts t (by simp [ht])
    rw [attached, hback, Bool.and_false, Bool.or_false]
    exact hrests.hasPart_eq_false hc fun t ht => hts t (by simp [ht])
  | @statement before idle code behind below first next ss hidle hfirst hcode hbehind _ ih =>
    have hnext : Rests (before ++ idle ++ first :: (code ++ behind)) (next :: below) :=
      .inr fun t ht => Option.some.inj ht ▸ hbehind.cases_next
    have hleads : commentsWhere
        (fun above after => attached above (after ++ first :: (code ++ behind ++ next :: below)))
        before idle = leads before idle := by
      refine commentsWhere_congr fun front c back hsplit hc => ?_
      subst hsplit
      rw [List.append_assoc] at hrests
      rw [attached, hrests.hasPart_eq_false hc fun t ht => hidle t (by simp [ht])]
      simp [hfirst]
    have htrails : commentsWhere (fun above after => attached above (after ++ next :: below))
        (before ++ idle ++ [first]) (code ++ behind) = commentTexts (code ++ behind) := by
      rw [← commentsWhere_true (before ++ idle ++ [first])]
      refine commentsWhere_congr fun front c back hsplit hc => ?_
      have hfront : ∀ t ∈ front, endsLine t = false := by
        intro t ht
        have hmem : t ∈ code ++ behind := by
          rw [hsplit]
          simp [ht]
        rcases List.mem_append.1 hmem with hmem | hmem
        · exact (Bool.or_eq_false_iff.1 (hcode t hmem)).1
        · exact hbehind.endsLine_eq_false t hmem
      rw [attached, List.append_assoc _ [first], List.singleton_append,
        hasPart_of_reading hfirst hfront, Bool.true_or]
    have hfirstKind : first.kind ≠ .comment := (isPart_iff.1 hfirst).2.1
    have hown : commentsWhere attached (before ++ idle) (first :: (code ++ behind ++ next :: below)) =
        commentsWhere attached (before ++ idle ++ [first]) (code ++ behind ++ next :: below) := by
      simp [commentsWhere, hfirstKind]
    rw [List.flatMap_cons, ih hnext, commentsWhere_append, hleads, hown, commentsWhere_append,
      htrails]
    simp [statementAt]

end Divided

end VariableReport.Source
