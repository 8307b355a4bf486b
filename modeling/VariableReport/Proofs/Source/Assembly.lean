import VariableReport.Source.Statement
import VariableReport.Proofs.Source.Lowering
import Mathlib.Data.List.Forall2

/-!
# Statements of a run of tokens

Statements are assembled token by token, and what a token can do to an assembly is said once
(`Assembly.Stepped`). Three facts are carried from one token to a run of them: what the tokens
of all statements have in common (`Assembly.Holds`), that an assembly which has begun a statement
on this row gains no leading comment (`Assembly.Busy`), and that tokens which lie `k` rows further
down, in a text with more lines, give statements that lie `k` rows further down
(`Assembly.Lowered`). The last one leaves leading comments out, for these come from other rows.
-/

namespace VariableReport.Source

theorem Token.isLayout_eq_false_iff {t : Token} : t.isLayout = false ↔
    t.kind ≠ .indent ∧ t.kind ≠ .dedent ∧ ¬(t.kind = .lineEnd || t.kind = .endMarker) ∧
      t.kind ≠ .rowEnd := by
  unfold isLayout
  cases t.kind <;> decide

theorem kind_of_isSemicolon {t : Token} (h : isSemicolon t = true) : t.kind = .operator := by
  simp only [isSemicolon, Token.isOperator, Bool.and_eq_true, decide_eq_true_eq] at h
  exact h.1

/-- The statement is taken from a source, its tokens and its leading comments are as required. -/
structure Statement.Holds (source : Text) (linesAbove : Nat) (code : Token → Prop)
    (leads : Text → Prop) (s : Statement) : Prop where
  source_eq : s.source = source
  linesAbove_eq : s.linesAbove = linesAbove
  tokens_ne : s.tokens ≠ []
  tokens : ∀ t ∈ s.tokens, code t
  leading : ∀ c ∈ s.leading, leads c

namespace Assembly

/-- What is open is as required of statements. -/
structure Holds (source : Text) (linesAbove : Nat) (code : Token → Prop) (leads : Text → Prop)
    (a : Assembly) : Prop where
  current : ∀ t ∈ a.current, code t
  leading : ∀ c ∈ a.leading, leads c
  ended : ∀ s ∈ a.ended, s.Holds source linesAbove code leads

/-- A statement has begun on this row. -/
def Busy (a : Assembly) : Prop := a.current ≠ [] ∨ a.afterSemicolon = true

/-- The statements of a run of tokens that nothing can join any more, and what is open after it. -/
def run (source : Text) (linesAbove : Nat) : Assembly → List Token → List Statement × Assembly
  | a, [] => ([], a)
  | a, t :: ts =>
    let (statements, a) := a.step source linesAbove t
    let (rest, a) := run source linesAbove a ts
    (statements ++ rest, a)

variable {source : Text} {n : Nat} {a b : Assembly} {t : Token} {ts us : List Token}
  {code : Token → Prop} {leads : Text → Prop}

theorem run_append : run source n a (ts ++ us) =
    ((run source n a ts).1 ++ (run source n (run source n a ts).2 us).1,
      (run source n (run source n a ts).2 us).2) := by
  induction ts generalizing a with
  | nil => rfl
  | cons t ts ih =>
    simp only [List.cons_append, run, ih, List.append_assoc]

theorem assemble_append : assemble source n a (ts ++ us) =
    (run source n a ts).1 ++ assemble source n (run source n a ts).2 us := by
  induction ts generalizing a with
  | nil => rfl
  | cons t ts ih =>
    simp only [List.cons_append, assemble, run, ih, List.append_assoc]

/-- What a token can do to an assembly. -/
inductive Stepped (source : Text) (n : Nat) (a : Assembly) (t : Token) :
    List Statement × Assembly → Prop
  | indent : t.kind = .indent → Stepped source n a t ([], { a with depth := a.depth + 1 })
  | dedent : t.kind = .dedent → Stepped source n a t ([], { a with depth := a.depth - 1 })
  | trails : t.kind = .comment → a.current ≠ [] →
      Stepped source n a t ([], { a with trailing := a.trailing ++ [t.text] })
  | joins : t.kind = .comment → a.current = [] → a.afterSemicolon = true →
      Stepped source n a t ([], a.extendEnded t.text)
  | leads : t.kind = .comment → a.current = [] → a.afterSemicolon = false →
      Stepped source n a t ([], { a with leading := a.leading ++ [t.text] })
  | ends : (t.kind = .lineEnd ∨ t.kind = .endMarker) →
      Stepped source n a t (a.ended.toList ++ (a.statement? source n).toList,
        { depth := a.depth, leading := if a.current.isEmpty then a.leading else [] })
  | semicolon {s : Statement} : isSemicolon t = true → a.statement? source n = some s →
      Stepped source n a t
        (a.ended.toList, { depth := a.depth, ended := some s, afterSemicolon := true })
  | idleSemicolon : isSemicolon t = true → a.statement? source n = none →
      Stepped source n a t ([], { a with afterSemicolon := true })
  | rowEnd : t.kind = .rowEnd → Stepped source n a t ([], a)
  | begins : t.isLayout = false → t.kind ≠ .comment → isSemicolon t = false → a.current = [] →
      Stepped source n a t (a.ended.toList,
        { a with current := [t], startDepth := a.depth, trailing := [], ended := none,
                 afterSemicolon := false })
  | goesOn : t.isLayout = false → t.kind ≠ .comment → isSemicolon t = false → a.current ≠ [] →
      Stepped source n a t ([], { a with current := a.current ++ [t] })

theorem stepped : Stepped source n a t (a.step source n t) := by
  unfold Assembly.step
  split
  next h => exact .indent h
  next hindent =>
  split
  next h => exact .dedent h
  next hdedent =>
  split
  next hcomment =>
    split
    next h => exact .trails hcomment (by simpa using h)
    next hcurrent =>
      have hcurrent : a.current = [] := by simpa using hcurrent
      split
      next h => exact .joins hcomment hcurrent h
      next h => exact .leads hcomment hcurrent (eq_false_of_ne_true h)
  next hcomment =>
  split
  next h => exact .ends (by simpa using h)
  next hends =>
  split
  next hsemicolon =>
    split
    next s hs => exact .semicolon hsemicolon hs
    next hs => exact .idleSemicolon hsemicolon hs
  next hsemicolon =>
  split
  next h => exact .rowEnd h
  next hrow =>
  have hlayout := Token.isLayout_eq_false_iff.2 ⟨hindent, hdedent, hends, hrow⟩
  split
  next h => exact .begins hlayout hcomment (eq_false_of_ne_true hsemicolon) (by simpa using h)
  next h => exact .goesOn hlayout hcomment (eq_false_of_ne_true hsemicolon) (by simpa using h)

theorem Stepped.eq {r : List Statement × Assembly} (h : Stepped source n a t r) :
    a.step source n t = r := by
  cases h with
  | indent h => simp [Assembly.step, h]
  | dedent h => simp [Assembly.step, h]
  | trails h hcurrent => simp [Assembly.step, h, hcurrent]
  | joins h hcurrent hafter => simp [Assembly.step, h, hcurrent, hafter]
  | leads h hcurrent hafter => simp [Assembly.step, h, hcurrent, hafter]
  | ends h => rcases h with h | h <;> simp [Assembly.step, h]
  | semicolon h hs => simp [Assembly.step, kind_of_isSemicolon h, h, hs]
  | idleSemicolon h hs => simp [Assembly.step, kind_of_isSemicolon h, h, hs]
  | rowEnd h => simp [Assembly.step, h, isSemicolon, Token.isOperator]
  | begins hl hcomment hsemicolon hcurrent =>
    obtain ⟨hindent, hdedent, hends, hrow⟩ := Token.isLayout_eq_false_iff.1 hl
    rw [Assembly.step, if_neg hindent, if_neg hdedent, if_neg hcomment, if_neg hends,
      if_neg (by simp [hsemicolon]), if_neg hrow, if_pos (by simp [hcurrent])]
  | goesOn hl hcomment hsemicolon hcurrent =>
    obtain ⟨hindent, hdedent, hends, hrow⟩ := Token.isLayout_eq_false_iff.1 hl
    rw [Assembly.step, if_neg hindent, if_neg hdedent, if_neg hcomment, if_neg hends,
      if_neg (by simp [hsemicolon]), if_neg hrow, if_neg (by simpa using hcurrent)]

theorem Holds.statement? (h : a.Holds source n code leads) :
    ∀ s ∈ a.statement? source n, s.Holds source n code leads := by
  intro s hs
  unfold Assembly.statement? at hs
  split at hs
  · contradiction
  next hcurrent =>
    obtain rfl := Option.some.inj hs
    exact ⟨rfl, rfl, by simpa using hcurrent, h.current, h.leading⟩

/-- One token keeps what is required, and hands out such statements. Layout is no part of them, and
a comment becomes a leading one only where no statement has begun. -/
theorem Holds.step (h : a.Holds source n code leads) (ht : t.isLayout = false → code t)
    (hc : t.kind = .comment → a.Busy ∨ leads t.text) :
    (∀ s ∈ (a.step source n t).1, s.Holds source n code leads) ∧
      (a.step source n t).2.Holds source n code leads := by
  have hended : ∀ s ∈ a.ended.toList, s.Holds source n code leads :=
    fun s hs => h.ended s (Option.mem_toList.1 hs)
  have hstep := @stepped source n a t
  generalize a.step source n t = r at hstep ⊢
  cases hstep with
  | indent => exact ⟨by simp, h.current, h.leading, h.ended⟩
  | dedent => exact ⟨by simp, h.current, h.leading, h.ended⟩
  | trails => exact ⟨by simp, h.current, h.leading, h.ended⟩
  | joins =>
    refine ⟨by simp, h.current, h.leading, fun s hs => ?_⟩
    obtain ⟨s, hs', rfl⟩ := Option.map_eq_some_iff.1 hs
    obtain ⟨h1, h2, h3, h4, h5⟩ := h.ended s hs'
    exact ⟨h1, h2, h3, h4, h5⟩
  | leads hkind hcurrent hafter =>
    have hidle : ¬a.Busy := by simp [Busy, hcurrent, hafter]
    refine ⟨by simp, h.current, fun c hc' => ?_, h.ended⟩
    rcases List.mem_append.1 hc' with hc' | hc'
    · exact h.leading c hc'
    · rw [List.mem_singleton.1 hc']
      exact (hc hkind).resolve_left hidle
  | ends =>
    refine ⟨fun s hs => ?_, by simp, fun c hc => ?_, by simp⟩
    · rcases List.mem_append.1 hs with hs | hs
      · exact hended s hs
      · exact h.statement? s (Option.mem_toList.1 hs)
    · dsimp only at hc
      split at hc
      · exact h.leading c hc
      · contradiction
  | semicolon _ hs =>
    refine ⟨hended, by simp, by simp, fun s' hs' => ?_⟩
    obtain rfl := Option.some.inj hs'
    exact h.statement? _ hs
  | idleSemicolon => exact ⟨by simp, h.current, h.leading, h.ended⟩
  | rowEnd => exact ⟨by simp, h⟩
  | begins hl => exact ⟨hended, by simpa using ht hl, h.leading, by simp⟩
  | goesOn hl =>
    refine ⟨by simp, fun u hu => ?_, h.leading, h.ended⟩
    rcases List.mem_append.1 hu with hu | hu
    · exact h.current u hu
    · rw [List.mem_singleton.1 hu]
      exact ht hl

theorem Holds.run (h : a.Holds source n code leads) (ht : ∀ t ∈ ts, t.isLayout = false → code t)
    (hc : ∀ t ∈ ts, t.kind = .comment → leads t.text) :
    (∀ s ∈ (run source n a ts).1, s.Holds source n code leads) ∧
      (run source n a ts).2.Holds source n code leads := by
  induction ts generalizing a with
  | nil => exact ⟨by simp [Assembly.run], h⟩
  | cons t ts ih =>
    obtain ⟨hout, hnext⟩ := h.step (ht t (by simp)) fun hk => .inr (hc t (by simp) hk)
    obtain ⟨hrest, hlast⟩ := ih hnext (fun u hu => ht u (by simp [hu]))
      fun u hu => hc u (by simp [hu])
    refine ⟨fun s hs => ?_, hlast⟩
    rcases List.mem_append.1 hs with hs | hs
    · exact hout s hs
    · exact hrest s hs

theorem Holds.assemble (h : a.Holds source n code leads)
    (ht : ∀ t ∈ ts, t.isLayout = false → code t) (hc : ∀ t ∈ ts, t.kind = .comment → leads t.text) :
    ∀ s ∈ Source.assemble source n a ts, s.Holds source n code leads := by
  obtain ⟨hout, hlast⟩ := h.run ht hc
  intro s hs
  rw [← List.append_nil ts, assemble_append] at hs
  rcases List.mem_append.1 hs with hs | hs
  · exact hout s hs
  · exact hlast.ended s (Option.mem_toList.1 hs)

/-- A token of code begins a statement on the row, and no comment ends one. -/
theorem busy_step (ht : t.isLayout = false) (hb : a.Busy ∨ t.kind ≠ .comment) :
    (a.step source n t).2.Busy := by
  obtain ⟨hindent, hdedent, hends, hrow⟩ := Token.isLayout_eq_false_iff.1 ht
  have hstep := @stepped source n a t
  generalize a.step source n t = r at hstep ⊢
  cases hstep with
  | indent h => exact absurd h hindent
  | dedent h => exact absurd h hdedent
  | trails _ h => exact .inl h
  | joins _ _ h => exact .inr h
  | leads hkind hcurrent hafter =>
    exact absurd (hb.resolve_right (not_not_intro hkind)) (by simp [Busy, hcurrent, hafter])
  | ends h => exact absurd (by simpa using h) hends
  | semicolon => exact .inr rfl
  | idleSemicolon => exact .inr rfl
  | rowEnd h => exact absurd h hrow
  | begins => exact .inl (by simp)
  | goesOn => exact .inl (by simp)

/-- Only layout changes the depth. -/
theorem depth_step (ht : t.isLayout = false) : (a.step source n t).2.depth = a.depth := by
  obtain ⟨hindent, hdedent, -, -⟩ := Token.isLayout_eq_false_iff.1 ht
  have hstep := @stepped source n a t
  generalize a.step source n t = r at hstep ⊢
  cases hstep with
  | indent h => exact absurd h hindent
  | dedent h => exact absurd h hdedent
  | _ => rfl

theorem depth_run (ht : ∀ t ∈ ts, t.isLayout = false) : (run source n a ts).2.depth = a.depth := by
  induction ts generalizing a with
  | nil => rfl
  | cons t ts ih =>
    rw [List.forall_mem_cons] at ht
    rw [run, ih ht.2, depth_step ht.1]

/-- A row that does not begin with a comment gives no leading comment. -/
theorem Holds.run_row (h : a.Holds source n code leads) (ht : ∀ t ∈ ts, code t)
    (hv : ∀ t ∈ ts, t.isLayout = false) (hb : a.Busy ∨ ∀ t ∈ ts.head?, t.kind ≠ .comment) :
    (∀ s ∈ (Assembly.run source n a ts).1, s.Holds source n code leads) ∧
      (Assembly.run source n a ts).2.Holds source n code leads := by
  induction ts generalizing a with
  | nil => exact ⟨by simp [Assembly.run], h⟩
  | cons t ts ih =>
    have hfirst : a.Busy ∨ t.kind ≠ .comment := hb.imp_right fun hk => hk t (by simp)
    obtain ⟨hout, hnext⟩ := h.step (fun _ => ht t (by simp))
      fun hk => .inl (hfirst.resolve_right (by simp [hk]))
    have hbusy := @busy_step source n a t (hv t (by simp)) hfirst
    obtain ⟨hrest, hlast⟩ := ih hnext (fun u hu => ht u (by simp [hu]))
      (fun u hu => hv u (by simp [hu])) (.inl hbusy)
    refine ⟨fun s hs => ?_, hlast⟩
    rcases List.mem_append.1 hs with hs | hs
    · exact hout s hs
    · exact hrest s hs

end Assembly

/-- A token lies `k` rows further down than another one; of layout the kind alone matters. -/
structure Token.Lowered (k : Nat) (t' t : Token) : Prop where
  kind : t'.kind = t.kind
  eq_lower : t.isLayout = false → t' = t.lower k

namespace Token.Lowered
variable {k : Nat} {t t' : Token}

theorem text (h : t'.Lowered k t) (hl : t.isLayout = false) : t'.text = t.text := by
  rw [h.eq_lower hl, Token.lower_text]

theorem isLayout (h : t'.Lowered k t) : t'.isLayout = t.isLayout := by
  rw [Token.isLayout, Token.isLayout, h.kind]

theorem isSemicolon (h : t'.Lowered k t) : Source.isSemicolon t' = Source.isSemicolon t := by
  rw [Source.isSemicolon, Source.isSemicolon, Token.isOperator, Token.isOperator, h.kind]
  cases hl : t.isLayout with
  | false => rw [h.text hl]
  | true =>
    have hoperator : t.kind ≠ .operator := by
      intro hk
      simp [Token.isLayout, hk] at hl
    simp [hoperator]

end Token.Lowered

/-- A statement lies `k` rows further down in its source than another one, which is counted from
as many more lines. -/
structure Statement.Lowered (k : Nat) (s' s : Statement) : Prop where
  tokens : s'.tokens = s.tokens.map (Token.lower k)
  depth : s'.depth = s.depth
  linesAbove : s'.linesAbove + k = s.linesAbove
  trailing : s'.trailing = s.trailing

/-- What holds of all members on either side holds of the members that correspond. -/
theorem forall₂_of_mem {α β : Type} {R : α → β → Prop} {P : α → Prop} {Q : β → Prop} {xs : List α}
    {ys : List β} (h : List.Forall₂ R xs ys) (hx : ∀ x ∈ xs, P x) (hy : ∀ y ∈ ys, Q y) :
    List.Forall₂ (fun x y => P x ∧ Q y ∧ R x y) xs ys := by
  have hleft := (List.forall₂_and_left _ _).2 ⟨hx, h⟩
  refine ((List.forall₂_and_left _ _).2 ⟨hy, hleft.flip⟩).flip.imp ?_
  exact fun x y ⟨hy, hx, hxy⟩ => ⟨hx, hy, hxy⟩

theorem forall₂_toList {α β : Type} {R : α → β → Prop} {x : Option α} {y : Option β}
    (h : Option.Rel R x y) : List.Forall₂ R x.toList y.toList := by
  cases h with
  | none => exact .nil
  | some h => exact .cons h .nil

namespace Assembly

structure Lowered (k : Nat) (a' a : Assembly) : Prop where
  current : a'.current = a.current.map (Token.lower k)
  depth : a'.depth = a.depth
  startDepth : a'.startDepth = a.startDepth
  trailing : a'.trailing = a.trailing
  ended : Option.Rel (Statement.Lowered k) a'.ended a.ended
  afterSemicolon : a'.afterSemicolon = a.afterSemicolon

variable {source source' : Text} {n n' k : Nat} {a a' : Assembly} {t t' : Token}
  {ts ts' : List Token}

theorem Lowered.statement? (h : Lowered k a' a) (hn : n' + k = n) :
    Option.Rel (Statement.Lowered k) (a'.statement? source' n') (a.statement? source n) := by
  unfold Assembly.statement?
  rw [h.current, List.isEmpty_map]
  split
  · exact .none
  · exact .some ⟨rfl, h.startDepth, hn, h.trailing⟩

theorem Lowered.step (h : Lowered k a' a) (ht : t'.Lowered k t) (hn : n' + k = n) :
    List.Forall₂ (Statement.Lowered k) (a'.step source' n' t').1 (a.step source n t).1 ∧
      Lowered k (a'.step source' n' t').2 (a.step source n t).2 := by
  have hstatement : Option.Rel (Statement.Lowered k) (a'.statement? source' n')
      (a.statement? source n) := h.statement? hn
  have hended := forall₂_toList h.ended
  obtain ⟨hcurrent, hdepth, hstart, htrailing, hend, hafter⟩ := h
  have hkind := ht.kind
  have hnil : a'.current = [] ↔ a.current = [] := by rw [hcurrent, List.map_eq_nil_iff]
  -- The other assembly takes the same kind of step.
  have hstep := @stepped source n a t
  generalize a.step source n t = r at hstep ⊢
  cases hstep with
  | indent h =>
    rw [(Stepped.indent (hkind.trans h)).eq]
    exact ⟨.nil, hcurrent, by rw [hdepth], hstart, htrailing, hend, hafter⟩
  | dedent h =>
    rw [(Stepped.dedent (hkind.trans h)).eq]
    exact ⟨.nil, hcurrent, by rw [hdepth], hstart, htrailing, hend, hafter⟩
  | trails h hne =>
    have htext := ht.text (by simp [Token.isLayout, h])
    rw [(Stepped.trails (hkind.trans h) (hnil.not.2 hne)).eq]
    exact ⟨.nil, hcurrent, hdepth, hstart, by rw [htrailing, htext], hend, hafter⟩
  | joins h hempty hjoins =>
    have htext := ht.text (by simp [Token.isLayout, h])
    rw [(Stepped.joins (hkind.trans h) (hnil.2 hempty) (hafter.trans hjoins)).eq]
    refine ⟨.nil, hcurrent, hdepth, hstart, htrailing, ?_, hafter⟩
    dsimp only [extendEnded]
    generalize a.ended = x at hend
    generalize a'.ended = x' at hend
    cases hend with
    | none => exact .none
    | some hs => exact .some ⟨hs.tokens, hs.depth, hs.linesAbove, by simp [hs.trailing, htext]⟩
  | leads h hempty hidle =>
    rw [(Stepped.leads (hkind.trans h) (hnil.2 hempty) (hafter.trans hidle)).eq]
    exact ⟨.nil, hcurrent, hdepth, hstart, htrailing, hend, hafter⟩
  | ends h =>
    rw [(Stepped.ends (by rwa [hkind])).eq]
    exact ⟨List.rel_append hended (forall₂_toList hstatement), rfl, hdepth, rfl, rfl, .none, rfl⟩
  | semicolon h hs =>
    rw [hs] at hstatement
    generalize hs' : a'.statement? source' n' = x' at hstatement
    cases hstatement with
    | some hlow =>
      rw [(Stepped.semicolon (ht.isSemicolon.trans h) hs').eq]
      exact ⟨hended, rfl, hdepth, rfl, rfl, .some hlow, rfl⟩
  | idleSemicolon h hs =>
    rw [hs] at hstatement
    generalize hs' : a'.statement? source' n' = x' at hstatement
    cases hstatement with
    | none =>
      rw [(Stepped.idleSemicolon (ht.isSemicolon.trans h) hs').eq]
      exact ⟨.nil, hcurrent, hdepth, hstart, htrailing, hend, rfl⟩
  | rowEnd h =>
    rw [(Stepped.rowEnd (hkind.trans h)).eq]
    exact ⟨.nil, hcurrent, hdepth, hstart, htrailing, hend, hafter⟩
  | begins hl hcomment hcode hempty =>
    rw [(Stepped.begins (ht.isLayout.trans hl) (by rwa [hkind]) (ht.isSemicolon.trans hcode)
      (hnil.2 hempty)).eq]
    exact ⟨hended, by rw [ht.eq_lower hl]; rfl, hdepth, hdepth, rfl, .none, rfl⟩
  | goesOn hl hcomment hcode hne =>
    rw [(Stepped.goesOn (ht.isLayout.trans hl) (by rwa [hkind]) (ht.isSemicolon.trans hcode)
      (hnil.not.2 hne)).eq]
    exact ⟨.nil, by simp [hcurrent, ht.eq_lower hl], hdepth, hstart, htrailing, hend, hafter⟩

theorem Lowered.run (h : Lowered k a' a) (ht : List.Forall₂ (Token.Lowered k) ts' ts)
    (hn : n' + k = n) :
    List.Forall₂ (Statement.Lowered k) (run source' n' a' ts').1 (run source n a ts).1 ∧
      Lowered k (run source' n' a' ts').2 (run source n a ts).2 := by
  induction ht generalizing a a' with
  | nil => exact ⟨.nil, h⟩
  | cons htoken _ ih =>
    obtain ⟨hout, hnext⟩ := h.step htoken hn
    obtain ⟨hrest, hlast⟩ := ih hnext
    exact ⟨List.rel_append hout hrest, hlast⟩

end Assembly

end VariableReport.Source
