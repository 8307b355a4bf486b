import VariableReport.Source.Assignment
import Mathlib.Data.List.Perm.Basic
import Mathlib.Data.List.TakeWhile
import Mathlib.Data.Nat.Find

/-!
# Chained assignments

An assignment is read at the only equal sign that stands outside brackets in front of the first word
`lambda` (`valueFrom?_eq_some_iff`). The signs behind that word are passed over as if they stood in a
parameter list, whatever bracket the word stands in. So a chained assignment is refused, unless the
word stands between its first two signs, in a subscript say: the first sign is then the only one that
is seen (`assignment?_chained`).
-/

namespace VariableReport.Source
open Text

variable {ts us : List Token} {t : Token} {s : Statement} {depth i j k n eq : Nat}

/-- The number of open brackets behind a token. A bracket that was never opened closes nothing. -/
def bracketsAfter (depth : Nat) (t : Token) : Nat :=
  if t.kind ≠ .operator then depth
  else if isOpening t.text then depth + 1
  else if isClosing t.text then depth - 1
  else depth

/-- The number of open brackets in front of a token. -/
def bracketsAt (depth : Nat) (ts : List Token) (k : Nat) : Nat :=
  (ts.take k).foldl bracketsAfter depth

/-- An equal sign stands here, outside brackets. -/
def SignAt (depth : Nat) (ts : List Token) (k : Nat) : Prop :=
  (∃ t ∈ ts[k]?, t.isOperator ['='] = true) ∧ bracketsAt depth ts k = 0

def LambdaAt (ts : List Token) (k : Nat) : Prop := ∃ t ∈ ts[k]?, isLambda t = true

/-- The number of tokens between a lambda in `home` brackets and its colon, counted from the tokens
behind the lambda. Of the colons in as many brackets a later lambda takes one first, and none is found
when the brackets are closed before. -/
def colonBehind? (home : Nat) : Nat → Nat → List Token → Option Nat
  | _, _, [] => none
  | depth, inner, t :: ts =>
    if depth < home then none
    else if depth = home && isLambda t then (colonBehind? home depth (inner + 1) ts).map (· + 1)
    else if depth = home && t.isOperator [':'] then
      if inner = 0 then some 0 else (colonBehind? home depth (inner - 1) ts).map (· + 1)
    else (colonBehind? home (bracketsAfter depth t) inner ts).map (· + 1)

/-- The token stands in a parameter list, between a lambda and its colon. -/
def InParameters (ts : List Token) (k : Nat) : Prop :=
  ∃ i < k, LambdaAt ts i ∧
    ∃ n ∈ colonBehind? (bracketsAt 0 ts i) (bracketsAt 0 ts i) 0 (ts.drop (i + 1)), k < i + 1 + n

/-- Two equal signs stand outside brackets and in no parameter list. -/
def Chained (ts : List Token) : Prop :=
  ∃ k < ts.length, SignAt 0 ts k ∧ ¬InParameters ts k ∧
    ∃ i < k, SignAt 0 ts i ∧ ¬InParameters ts i

instance (depth : Nat) (ts : List Token) : DecidablePred (SignAt depth ts) := fun k =>
  inferInstanceAs (Decidable ((∃ t ∈ ts[k]?, t.isOperator ['='] = true) ∧ bracketsAt depth ts k = 0))

instance (ts : List Token) : DecidablePred (LambdaAt ts) := fun k =>
  inferInstanceAs (Decidable (∃ t ∈ ts[k]?, isLambda t = true))

instance (ts : List Token) : DecidablePred (InParameters ts) := fun k =>
  inferInstanceAs (Decidable (∃ i < k, LambdaAt ts i ∧
    ∃ n ∈ colonBehind? (bracketsAt 0 ts i) (bracketsAt 0 ts i) 0 (ts.drop (i + 1)), k < i + 1 + n))

instance : DecidablePred Chained := fun ts =>
  inferInstanceAs (Decidable (∃ k < ts.length, SignAt 0 ts k ∧ ¬InParameters ts k ∧
    ∃ i < k, SignAt 0 ts i ∧ ¬InParameters ts i))

/-! ### The equal signs in front of the first lambda -/

theorem signAt_zero : SignAt depth (t :: ts) 0 ↔ t.isOperator ['='] = true ∧ depth = 0 := by
  simp [SignAt, bracketsAt]

theorem signAt_succ : SignAt depth (t :: ts) (k + 1) ↔ SignAt (bracketsAfter depth t) ts k := by
  simp [SignAt, bracketsAt]

theorem lambdaAt_zero : LambdaAt (t :: ts) 0 ↔ isLambda t = true := by simp [LambdaAt]

theorem lambdaAt_succ : LambdaAt (t :: ts) (k + 1) ↔ LambdaAt ts k := by simp [LambdaAt]

theorem not_isLambda_of_isOperator {u : Text} (h : t.isOperator u = true) : isLambda t = false := by
  simp only [Token.isOperator, Bool.and_eq_true, decide_eq_true_eq] at h
  simp [isLambda, h.1]

/-- A token is an equal sign outside brackets, or it is none and may open or close a bracket. -/
theorem equalSigns_cons (depth i : Nat) (t : Token) (ts : List Token) :
    equalSigns depth i (t :: ts) =
      if t.isOperator ['='] = true ∧ depth = 0 then i :: equalSigns depth (i + 1) ts
      else equalSigns (bracketsAfter depth t) (i + 1) ts := by
  have hsign : t.text = ['='] → isOpening t.text = false ∧ isClosing t.text = false := by
    intro h
    rw [h]
    decide
  rw [equalSigns]
  unfold bracketsAfter
  by_cases hk : t.kind = .operator
  · by_cases ho : isOpening t.text = true
    · have hno : t.text ≠ ['='] := fun h => by simp [(hsign h).1] at ho
      simp [Token.isOperator, hk, ho, hno]
    · by_cases hc : isClosing t.text = true
      · have hno : t.text ≠ ['='] := fun h => by simp [(hsign h).2] at hc
        simp [Token.isOperator, hk, ho, hc, hno]
      · simp [Token.isOperator, hk, ho, hc, and_comm]
  · simp [Token.isOperator, hk]

theorem bracketsAfter_sign (h : t.isOperator ['='] = true) : bracketsAfter depth t = depth := by
  simp only [Token.isOperator, Bool.and_eq_true, decide_eq_true_eq] at h
  rw [bracketsAfter, if_neg (not_not.2 h.1), h.2, if_neg (by decide), if_neg (by decide)]

theorem mem_equalSigns_iff : k ∈ equalSigns depth i ts ↔ ∃ n, k = i + n ∧ SignAt depth ts n := by
  induction ts generalizing depth i with
  | nil => simp [equalSigns, SignAt]
  | cons t ts ih =>
    -- The first token apart, the signs are those of the tokens behind it.
    have hsplit : (∃ n, k = i + n ∧ SignAt depth (t :: ts) n) ↔
        (k = i ∧ t.isOperator ['='] = true ∧ depth = 0) ∨
          ∃ n, k = i + 1 + n ∧ SignAt (bracketsAfter depth t) ts n := by
      constructor
      · rintro ⟨_ | n, hk, hn⟩
        · exact .inl ⟨hk, signAt_zero.1 hn⟩
        · exact .inr ⟨n, by omega, signAt_succ.1 hn⟩
      · rintro (⟨hk, hn⟩ | ⟨n, hk, hn⟩)
        · exact ⟨0, hk, signAt_zero.2 hn⟩
        · exact ⟨n + 1, by omega, signAt_succ.2 hn⟩
    rw [hsplit, equalSigns_cons]
    split
    next h => rw [List.mem_cons, ih, bracketsAfter_sign h.1, and_iff_left h]
    next h => rw [ih, or_iff_right fun h' => h h'.2]

theorem nodup_equalSigns (depth i : Nat) (ts : List Token) : (equalSigns depth i ts).Nodup := by
  induction ts generalizing depth i with
  | nil => exact .nil
  | cons t ts ih =>
    rw [equalSigns_cons]
    split
    · refine List.nodup_cons.2 ⟨fun h => ?_, ih depth (i + 1)⟩
      obtain ⟨n, hn, -⟩ := mem_equalSigns_iff.1 h
      omega
    · exact ih _ (i + 1)

/-- An equal sign outside brackets with no lambda in front of it. -/
def SeenAt (ts : List Token) (k : Nat) : Prop := SignAt 0 ts k ∧ ∀ j < k, ¬LambdaAt ts j

theorem signAt_takeWhile : SignAt depth (ts.takeWhile fun t => !isLambda t) k ↔
    SignAt depth ts k ∧ ∀ j < k, ¬LambdaAt ts j := by
  induction ts generalizing depth k with
  | nil => simp [SignAt]
  | cons t ts ih =>
    by_cases hl : isLambda t = true
    · rw [List.takeWhile_cons_of_neg (by simp [hl])]
      refine iff_of_false (fun h => by simp [SignAt] at h) fun ⟨hsign, hbefore⟩ => ?_
      cases k with
      | zero =>
        rw [not_isLambda_of_isOperator (signAt_zero.1 hsign).1] at hl
        contradiction
      | succ k => exact hbefore 0 (by omega) (lambdaAt_zero.2 hl)
    · rw [List.takeWhile_cons_of_pos (by simp [hl])]
      cases k with
      | zero => simp [signAt_zero]
      | succ k =>
        rw [signAt_succ, signAt_succ, ih, Nat.forall_lt_succ_left]
        simp [lambdaAt_zero, lambdaAt_succ, hl]

/-- Behind a name the scan finds the signs that are seen. -/
theorem mem_equalSigns_iff_seenAt (hk : t.kind = .name) (hl : isLambda t = false) :
    k ∈ equalSigns 0 1 (((t :: ts).takeWhile fun t => !isLambda t).drop 1) ↔
      SeenAt (t :: ts) k := by
  have hname : bracketsAfter 0 t = 0 := by simp [bracketsAfter, hk]
  rw [List.takeWhile_cons_of_pos (by simp [hl]), List.drop_one, List.tail_cons, mem_equalSigns_iff,
    SeenAt]
  constructor
  · rintro ⟨n, rfl, hn⟩
    obtain ⟨hsign, hbefore⟩ := signAt_takeWhile.1 hn
    rw [Nat.add_comm, signAt_succ, hname, Nat.forall_lt_succ_left]
    exact ⟨hsign, by simp [lambdaAt_zero, hl], fun j hj => lambdaAt_succ.not.2 (hbefore j hj)⟩
  · rintro ⟨hsign, hbefore⟩
    cases k with
    | zero => simp [signAt_zero, Token.isOperator, hk] at hsign
    | succ n =>
      rw [signAt_succ, hname] at hsign
      rw [Nat.forall_lt_succ_left] at hbefore
      refine ⟨n, Nat.add_comm .., signAt_takeWhile.2 ⟨hsign, fun j hj => ?_⟩⟩
      exact lambdaAt_succ.not.1 (hbefore.2 j hj)

/-- The tokens begin with one plain name and a sign that may follow it in an assignment. -/
def PlainTarget (ts : List Token) : Prop :=
  ∃ target second rest, ts = target :: second :: rest ∧ target.kind = .name ∧
    target.text ∉ keywords ∧ (second.isOperator ['='] = true ∨ second.isOperator [':'] = true)

theorem plainTarget_cons_iff {target second : Token} : PlainTarget (target :: second :: ts) ↔
    target.kind = .name ∧ target.text ∉ keywords ∧
      (second.isOperator ['='] = true ∨ second.isOperator [':'] = true) := by
  constructor
  · rintro ⟨t, u, us, h, hrest⟩
    rw [(List.cons.inj h).1, (List.cons.inj (List.cons.inj h).2).1]
    exact hrest
  · exact fun h => ⟨target, second, ts, rfl, h⟩

theorem not_isLambda_of_not_mem (h : t.text ∉ keywords) : isLambda t = false := by
  have hlambda : "lambda".toList ∈ keywords := by decide
  have hne : t.text ≠ "lambda".toList := fun he => h (he ▸ hlambda)
  rw [isLambda, decide_eq_false hne, Bool.and_false]

/-- An equal sign directly behind the name is seen. -/
theorem seenAt_one {target second : Token} (hk : target.kind = .name)
    (hl : isLambda target = false) (h : second.isOperator ['='] = true) :
    SeenAt (target :: second :: ts) 1 := by
  have hname : bracketsAfter 0 target = 0 := by simp [bracketsAfter, hk]
  refine ⟨signAt_succ.2 (signAt_zero.2 ⟨h, hname⟩), fun j hj => ?_⟩
  obtain rfl : j = 0 := by omega
  simp [lambdaAt_zero, hl]

theorem eq_singleton_iff_of_nodup {l : List Nat} (h : l.Nodup) :
    l = [i] ↔ ∀ k, k ∈ l ↔ k = i := by
  rw [← List.perm_singleton, List.perm_ext_iff_of_nodup h (List.pairwise_singleton _ i)]
  simp only [List.mem_singleton]

/-- The value begins behind the only equal sign that is seen. -/
theorem valueFrom?_eq_some_iff : valueFrom? ts = some n ↔ PlainTarget ts ∧ 3 ≤ ts.length ∧
    ∃ eq, n = eq + 1 ∧ ∀ k, SeenAt ts k ↔ k = eq := by
  match ts with
  | [] => simp [valueFrom?]
  | [_] => simp [valueFrom?]
  | [_, _] => simp [valueFrom?]
  | target :: second :: third :: rest =>
    have hlength : 3 ≤ (target :: second :: third :: rest).length := by simp
    rw [and_iff_right hlength, plainTarget_cons_iff]
    constructor
    · intro h
      rw [valueFrom?] at h
      split at h
      · contradiction
      next hname =>
        split at h
        · contradiction
        next hsecond =>
          have hname : target.kind = .name ∧ target.text ∉ keywords := by simpa using hname
          rw [Bool.not_eq_true', Bool.not_eq_false, Bool.or_eq_true] at hsecond
          split at h
          next eq hsigns =>
            split at h
            · contradiction
            rw [eq_singleton_iff_of_nodup (nodup_equalSigns ..)] at hsigns
            simp only [mem_equalSigns_iff_seenAt hname.1 (not_isLambda_of_not_mem hname.2)]
              at hsigns
            exact ⟨⟨hname.1, hname.2, hsecond⟩, eq, (Option.some.inj h).symm, hsigns⟩
          next => contradiction
    · rintro ⟨⟨hk, hkeyword, hsecond⟩, eq, rfl, honly⟩
      have hl := not_isLambda_of_not_mem hkeyword
      have hsigns : equalSigns 0 1
          (((target :: second :: third :: rest).takeWhile fun t => !isLambda t).drop 1) = [eq] := by
        rw [eq_singleton_iff_of_nodup (nodup_equalSigns ..)]
        simpa only [mem_equalSigns_iff_seenAt hk hl] using honly
      have hone : second.isOperator ['='] = true → eq = 1 := fun hsign =>
        ((honly 1).1 (seenAt_one hk hl hsign)).symm
      have hsecond : ¬(!(second.isOperator ['='] || second.isOperator [':'])) = true := by
        rwa [Bool.not_eq_true', Bool.not_eq_false, Bool.or_eq_true]
      rw [valueFrom?, if_neg (by simp [hk, hkeyword]), if_neg hsecond, hsigns]
      dsimp only
      rw [if_neg (by simpa using hone)]

/-- The source text between an equal sign and the end of the statement is not blank. -/
def HasValue (s : Statement) (eq : Nat) : Prop :=
  ∃ first ∈ s.tokens[eq + 1]?, ∃ last ∈ s.tokens.getLast?,
    trim (s.segment first.start last.stop) ≠ []

theorem assignment?_ne_none_iff : assignment? s ≠ none ↔
    s.depth = 0 ∧ ∃ eq, valueFrom? s.tokens = some (eq + 1) ∧ HasValue s eq := by
  rw [Option.ne_none_iff_exists']
  constructor
  · rintro ⟨x, h⟩
    unfold assignment? at h
    split at h
    · contradiction
    next hdepth =>
      simp only [Option.bind_eq_bind, Option.bind_eq_some_iff] at h
      obtain ⟨target, -, i, hi, first, hfirst, last, hlast, h⟩ := h
      split at h
      · contradiction
      next hblank =>
        obtain ⟨-, -, eq, rfl, -⟩ := valueFrom?_eq_some_iff.1 hi
        exact ⟨not_not.1 hdepth, eq, hi, first, hfirst, last, hlast, by simpa using hblank⟩
  · rintro ⟨hdepth, eq, hi, first, hfirst, last, hlast, hblank⟩
    obtain ⟨target, htarget⟩ : ∃ target, s.tokens.head? = some target := by
      rw [← Option.isSome_iff_exists, List.isSome_head?]
      rintro hnil
      simp [hnil] at hfirst
    rw [Option.mem_def] at hfirst hlast
    refine ⟨(target.text, trim (s.segment first.start last.stop)), ?_⟩
    simp [assignment?, hdepth, htarget, hi, hfirst, hlast, hblank]

/-! ### Chained assignments -/

/-- All equal signs outside brackets but one stand behind the first lambda, and the statement
assigns the text behind that one sign to one name otherwise. -/
structure Hidden (s : Statement) (eq lam : Nat) : Prop where
  outermost : s.depth = 0
  target : PlainTarget s.tokens
  sign : SignAt 0 s.tokens eq
  value : HasValue s eq
  lambda : LambdaAt s.tokens lam
  first : ∀ j < lam, ¬LambdaAt s.tokens j
  behind : eq < lam
  others : ∀ k, SignAt 0 s.tokens k → k = eq ∨ lam < k

theorem SignAt.not_lambdaAt (h : SignAt depth ts k) : ¬LambdaAt ts k := by
  obtain ⟨⟨t, ht, hsign⟩, -⟩ := h
  rintro ⟨u, hu, hl⟩
  obtain rfl : t = u := Option.some.inj (ht.symm.trans hu)
  rw [not_isLambda_of_isOperator hsign] at hl
  contradiction

theorem lt_length_of_lambdaAt (h : LambdaAt ts k) : k < ts.length := by
  obtain ⟨t, ht, -⟩ := h
  exact (List.getElem?_eq_some_iff.1 ht).1

theorem PlainTarget.not_signAt_zero (h : PlainTarget ts) : ¬SignAt depth ts 0 := by
  obtain ⟨target, second, rest, rfl, hk, -⟩ := h
  simp [signAt_zero, Token.isOperator, hk]

/-- A sign that is not seen has a lambda in front of it, so it is hidden behind the first one. -/
theorem hidden_of_seen {other : Nat} (hdepth : s.depth = 0) (htarget : PlainTarget s.tokens)
    (hvalue : HasValue s eq) (honly : ∀ k, SeenAt s.tokens k ↔ k = eq)
    (hother : SignAt 0 s.tokens other) (hne : other ≠ eq) : ∃ lam, Hidden s eq lam := by
  have hlambda {k : Nat} (hk : SignAt 0 s.tokens k) (hne : k ≠ eq) :
      ∃ j < k, LambdaAt s.tokens j := by
    by_contra hnone
    simp only [not_exists, not_and] at hnone
    exact hne ((honly k).1 ⟨hk, hnone⟩)
  have hex : ∃ j, LambdaAt s.tokens j := (hlambda hother hne).imp fun _ h => h.2
  have hseen : SeenAt s.tokens eq := (honly eq).2 rfl
  refine ⟨Nat.find hex, hdepth, htarget, hseen.1, hvalue, Nat.find_spec hex,
    fun j => Nat.find_min hex, ?_, fun k hk => ?_⟩
  · have hge : eq ≤ Nat.find hex := by
      by_contra hlt
      exact hseen.2 _ (not_le.1 hlt) (Nat.find_spec hex)
    refine lt_of_le_of_ne hge fun heq => hseen.1.not_lambdaAt ?_
    rw [heq]
    exact Nat.find_spec hex
  · by_cases heq : k = eq
    · exact .inl heq
    · obtain ⟨j, hj, hl⟩ := hlambda hk heq
      exact .inr (lt_of_le_of_lt (Nat.find_min' hex hl) hj)

theorem Hidden.assignment?_ne_none {lam : Nat} (h : Hidden s eq lam) : assignment? s ≠ none := by
  have hpos : eq ≠ 0 := by
    rintro rfl
    exact h.target.not_signAt_zero h.sign
  have hlength := lt_length_of_lambdaAt h.lambda
  have hbehind := h.behind
  refine assignment?_ne_none_iff.2 ⟨h.outermost, eq, valueFrom?_eq_some_iff.2 ?_, h.value⟩
  refine ⟨h.target, by omega, eq, rfl, fun k => ⟨fun hk => ?_, ?_⟩⟩
  · exact (h.others k hk.1).resolve_right fun hlt => hk.2 _ hlt h.lambda
  · rintro rfl
    exact ⟨h.sign, fun j hj => h.first j (by omega)⟩

/-- A chained assignment is refused, unless the first lambda stands between its first sign and all
others. -/
theorem assignment?_chained (h : Chained s.tokens) :
    assignment? s = none ↔ ¬∃ eq lam, Hidden s eq lam := by
  rw [← not_iff_not, not_not]
  constructor
  · intro hsome
    obtain ⟨hdepth, eq, hfrom, hvalue⟩ := assignment?_ne_none_iff.1 hsome
    obtain ⟨htarget, -, eq', heq, honly⟩ := valueFrom?_eq_some_iff.1 hfrom
    obtain rfl : eq = eq' := by omega
    obtain ⟨k, -, hk, -, i, hi, hsign, -⟩ := h
    refine ⟨eq, ?_⟩
    by_cases hne : k = eq
    · exact hidden_of_seen hdepth htarget hvalue honly hsign (by omega)
    · exact hidden_of_seen hdepth htarget hvalue honly hk hne
  · rintro ⟨eq, lam, hhidden⟩
    exact hhidden.assignment?_ne_none

/-- Two signs, and behind them two parameter lists, one inside the other. -/
def chainedDefaults : Text := "f: K[int] = g = lambda a=lambda b=1: b, *, c=2: (a, c)".toList

theorem assignment?_chained_defaults : ∃ s ∈ statements chainedDefaults,
    Chained s.tokens ∧ assignment? s = none ∧ ¬∃ eq lam, Hidden s eq lam := by
  obtain ⟨s, hs, hchained, hnone⟩ : ∃ s ∈ statements chainedDefaults,
      Chained s.tokens ∧ assignment? s = none := by
    decide +kernel
  exact ⟨s, hs, hchained, hnone, (assignment?_chained hchained).1 hnone⟩

/-- A lambda in the subscript of the second target hides the second sign. -/
theorem assignment?_chained_subscript : ∃ s ∈ statements "x = d[lambda: 0] = 5".toList,
    Chained s.tokens ∧ assignment? s = some ("x".toList, "d[lambda: 0] = 5".toList) := by
  decide +kernel

end VariableReport.Source
