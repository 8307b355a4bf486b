import VariableReport.Proofs.Source.Lexeme

/-!
# Lexemes of a text that is cut behind them

A lexeme is told from its own characters and from what stops it, so a text that is cut behind its
first lexeme begins with the same lexeme (`lexeme?_cut`). Each function that reads a lexeme has its
own lemma here: where what it takes of `t ++ u` lies within `t`, it takes the same of `t`. A string
is also read alike with more text behind its end (`stringRest_extend`).
-/

namespace VariableReport.Source
open Text

variable {t u : Text} {c q : Char} {m n : Nat}

theorem exists_two (h : 2 ≤ t.length) : ∃ a b v, t = a :: b :: v := by
  obtain ⟨a, u, rfl⟩ := List.exists_cons_of_length_pos (Nat.lt_of_lt_of_le Nat.two_pos h)
  obtain ⟨b, v, rfl⟩ := List.exists_cons_of_length_pos (Nat.le_of_succ_le_succ h)
  exact ⟨a, b, v, rfl⟩

theorem exists_three (h : 3 ≤ t.length) : ∃ a b c v, t = a :: b :: c :: v := by
  obtain ⟨a, b, u, rfl⟩ := exists_two (Nat.le_of_succ_le h)
  rw [List.length_cons, List.length_cons] at h
  obtain ⟨c, v, rfl⟩ := List.exists_cons_of_length_pos (by omega : 0 < u.length)
  exact ⟨a, b, c, v, rfl⟩

theorem takeWhile_cut {p : Char → Bool} (h : ((t ++ u).takeWhile p).length ≤ t.length) :
    t.takeWhile p = (t ++ u).takeWhile p := by
  induction t with
  | nil => simpa using h
  | cons c t ih =>
    rw [List.cons_append, List.takeWhile_cons] at h ⊢
    rw [List.takeWhile_cons]
    split
    next hc =>
      rw [if_pos hc, List.length_cons, List.length_cons] at h
      rw [ih (by omega)]
    next => rfl

theorem digitRun_digit {digit : Char → Bool} (hc : digit c = true) (t : Text) :
    digitRun digit (c :: t) = digitRun digit t + 1 := by
  rw [digitRun.eq_def]
  exact if_pos hc

theorem digitRun_joined {digit : Char → Bool} (hc : ¬digit '_' = true) (hd : digit c = true)
    (t : Text) : digitRun digit ('_' :: c :: t) = digitRun digit t + 2 := by
  simp [digitRun, hc, hd]

theorem digitRun_loose {digit : Char → Bool} (hc : ¬digit '_' = true) (hd : ¬digit c = true)
    (t : Text) : digitRun digit ('_' :: c :: t) = 0 := by
  simp [digitRun, hc, hd]

theorem digitRun_other {digit : Char → Bool} (hc : ¬digit c = true) (hne : ¬c = '_') (t : Text) :
    digitRun digit (c :: t) = 0 := by
  rw [digitRun.eq_def]
  simp only [if_neg hc, if_neg hne]

theorem digitRun_cut {digit : Char → Bool} (h : digitRun digit (t ++ u) ≤ t.length) :
    digitRun digit t = digitRun digit (t ++ u) := by
  fun_induction digitRun digit t with
  | case1 => exact (Nat.le_zero.1 h).symm
  | case2 c cs hc ih =>
    rw [List.cons_append, digitRun_digit hc] at h ⊢
    rw [ih (Nat.le_of_succ_le_succ h)]
  | case3 d ds hd hc ih =>
    rw [List.cons_append, List.cons_append, digitRun_joined hc hd] at h ⊢
    rw [ih (Nat.le_of_succ_le_succ (Nat.le_of_succ_le_succ h))]
  | case4 d ds hd hc => rw [List.cons_append, List.cons_append, digitRun_loose hc hd]
  | case5 hc =>
    cases u with
    | nil => simp [digitRun, hc]
    | cons d u =>
      rw [List.cons_append, List.nil_append] at h ⊢
      by_cases hd : digit d = true
      · rw [digitRun_joined hc hd] at h
        simp at h
      · rw [digitRun_loose hc hd]
  | case6 c cs hc hne => rw [List.cons_append, digitRun_other hc hne]

theorem digits_cut {digit : Char → Bool} (h : digits digit (t ++ u) ≤ t.length) :
    digits digit t = digits digit (t ++ u) := by
  cases t with
  | nil => exact (Nat.le_zero.1 h).symm
  | cons c t =>
    rw [List.cons_append, digits] at h ⊢
    rw [digits]
    split
    next hc =>
      rw [if_pos hc] at h
      exact digitRun_cut (t := c :: t) h
    next => rfl

/-- Of a text that ends within a run of digits the run leaves an underscore at most. -/
theorem digitRun_rest {digit : Char → Bool} (h : t.length < digitRun digit (t ++ u)) :
    t.drop (digitRun digit t) = [] ∨ t.drop (digitRun digit t) = ['_'] := by
  fun_induction digitRun digit t with
  | case1 => exact .inl rfl
  | case2 c cs hc ih =>
    rw [List.cons_append, digitRun_digit hc] at h
    exact ih (Nat.lt_of_succ_lt_succ h)
  | case3 d ds hd hc ih =>
    rw [List.cons_append, List.cons_append, digitRun_joined hc hd] at h
    exact ih (Nat.lt_of_succ_lt_succ (Nat.lt_of_succ_lt_succ h))
  | case4 d ds hd hc =>
    rw [List.cons_append, List.cons_append, digitRun_loose hc hd] at h
    contradiction
  | case5 => exact .inr rfl
  | case6 c cs hc hne =>
    rw [List.cons_append, digitRun_other hc hne] at h
    contradiction

theorem digits_rest {digit : Char → Bool} (h : t.length < digits digit (t ++ u)) :
    t.drop (digits digit t) = [] ∨ t.drop (digits digit t) = ['_'] := by
  cases t with
  | nil => exact .inl rfl
  | cons c t =>
    rw [List.cons_append, digits] at h
    rw [digits]
    split at h
    next hc =>
      rw [if_pos hc]
      exact digitRun_rest (t := c :: t) h
    next => omega

/-- The sign of an exponent is told by the character behind the mark. -/
theorem exists_exponent (h : c = 'e' ∨ c = 'E') (ht : t ≠ []) : ∃ k ≤ t.length, ∀ u,
    exponent (c :: (t ++ u)) = if digits isDigit (t.drop k ++ u) = 0 then 0
      else digits isDigit (t.drop k ++ u) + k + 1 := by
  obtain ⟨d, t, rfl⟩ := List.exists_cons_of_ne_nil ht
  have hc : (c = 'e' || c = 'E') = true := by simpa using h
  by_cases hd : d = '+' ∨ d = '-'
  · exact ⟨1, by simp, fun u => by simp [exponent, hc, hd]⟩
  · exact ⟨0, by simp, fun u => by simp [exponent, hc, hd]⟩

/-- An exponent has a digit behind its mark. -/
theorem exponent_cons_eq_zero (h : exponent (c :: t) ≤ 1) : exponent (c :: t) = 0 := by
  simp only [exponent] at h ⊢
  grind

theorem exponent_cut (h : exponent (t ++ u) ≤ t.length) : exponent t = exponent (t ++ u) := by
  match t with
  | [] => exact (Nat.le_zero.1 h).symm
  | c :: cs =>
    rw [List.cons_append] at h ⊢
    by_cases hc : c = 'e' ∨ c = 'E'
    · by_cases hcs : cs = []
      · subst hcs
        rw [exponent_cons_eq_zero h]
        simp [exponent, digits]
      · obtain ⟨k, hk, hexp⟩ := exists_exponent hc hcs
        have hcut : digits isDigit (cs.drop k) = digits isDigit (cs.drop k ++ u) := by
          refine digits_cut ?_
          rw [hexp, List.length_cons] at h
          rw [List.length_drop]
          split at h <;> omega
        have hself := hexp []
        rw [List.append_nil, List.append_nil] at hself
        rw [hself, hexp, hcut]
    · have hnone (v : Text) : exponent (c :: v) = 0 := by simpa [exponent] using fun h => absurd h hc
      rw [hnone, hnone]

theorem floatNumber_of_point (hn : digits isDigit t = n) (h : t.drop n = '.' :: u) :
    floatNumber t = if n = 0 ∧ digits isDigit u = 0 then 0
      else n + 1 + digits isDigit u + exponent (u.drop (digits isDigit u)) := by
  simp [floatNumber, hn, h]

theorem floatNumber_of_ne_point (hn : digits isDigit t = n) (h : t.drop n = u)
    (hu : u.head? ≠ some '.') :
    floatNumber t = if n = 0 ∨ exponent u = 0 then 0 else n + exponent u := by
  simp only [floatNumber]
  grind

theorem floatNumber_eq_zero_or (t : Text) :
    floatNumber t = 0 ∨ digits isDigit t < floatNumber t := by
  simp only [floatNumber]
  grind

theorem floatNumber_cut (h : floatNumber (t ++ u) ≤ t.length) :
    floatNumber t = floatNumber (t ++ u) := by
  have hzero := floatNumber_eq_zero_or (t ++ u)
  by_cases hle : digits isDigit (t ++ u) ≤ t.length
  · have hcut := digits_cut hle
    have hdrop : (t ++ u).drop (digits isDigit (t ++ u)) = t.drop (digits isDigit (t ++ u)) ++ u :=
      List.drop_append_of_le_length hle
    have hlen : (t.drop (digits isDigit (t ++ u))).length = t.length - digits isDigit (t ++ u) :=
      List.length_drop
    generalize hn : digits isDigit (t ++ u) = n at *
    cases hrest : t.drop n with
    | nil =>
      rw [hrest, List.length_nil] at hlen
      rw [floatNumber_of_ne_point hcut hrest (by simp)]
      simp only [exponent, or_true, if_true]
      omega
    | cons c cs =>
      rw [hrest, List.length_cons] at hlen
      rw [hrest] at hdrop
      by_cases hc : c = '.'
      · subst hc
        have hdrop : (t ++ u).drop n = '.' :: (cs ++ u) := hdrop
        rw [floatNumber_of_point hn hdrop] at h ⊢
        have hfraction : digits isDigit cs = digits isDigit (cs ++ u) := by
          refine digits_cut ?_
          split at h <;> omega
        rw [← hfraction] at h ⊢
        have hfit : digits isDigit cs ≤ cs.length := (solid_digits cs).le
        rw [List.drop_append_of_le_length hfit] at h ⊢
        rw [floatNumber_of_point hcut hrest]
        split
        next => rfl
        next hne =>
          rw [if_neg hne] at h
          rw [exponent_cut (t := cs.drop (digits isDigit cs)) (u := u)]
          rw [List.length_drop]
          omega
      · have hpoint : (c :: cs).head? ≠ some '.' := by simpa using hc
        rw [floatNumber_of_ne_point hn hdrop (by simpa using hc)] at h ⊢
        rw [floatNumber_of_ne_point hcut hrest hpoint]
        by_cases h0 : n = 0
        · simp [h0]
        · rw [exponent_cut (t := c :: cs) (u := u)]
          rw [List.length_cons]
          split at h <;> omega
  · -- The digits reach beyond `t`, so neither text has a point or an exponent behind them.
    have hzero : floatNumber (t ++ u) = 0 := by omega
    rw [hzero]
    rcases digits_rest (Nat.lt_of_not_le hle) with hrest | hrest <;>
      simp [floatNumber, hrest, exponent]

theorem basedRest_cut (h : basedRest (t ++ u) ≤ t.length) : basedRest t = basedRest (t ++ u) := by
  cases t with
  | nil => exact (Nat.le_zero.1 h).symm
  | cons letter cs =>
    rw [List.cons_append] at h ⊢
    cases hd : digitOfBase? letter with
    | none => simp [basedRest, hd]
    | some digit =>
      have hrun (v : Text) : basedRest (letter :: v) =
          if digitRun digit v = 0 then 0 else digitRun digit v + 1 := by simp [basedRest, hd]
      rw [hrun, List.length_cons] at h
      rw [hrun, hrun, digitRun_cut (t := cs) (u := u)]
      split at h <;> omega

/-- A whole number that begins with a zero. -/
theorem wholeNumber_zero (t : Text) : wholeNumber ('0' :: t) =
    if 0 < basedRest t then basedRest t + 1 else digitRun (fun c => c = '0') ('0' :: t) := rfl

theorem wholeNumber_cut (h : wholeNumber (t ++ u) ≤ t.length) :
    wholeNumber t = wholeNumber (t ++ u) := by
  cases t with
  | nil => exact (Nat.le_zero.1 h).symm
  | cons c cs =>
    by_cases hc : c = '0'
    · subst hc
      rw [List.cons_append, wholeNumber_zero, List.length_cons] at h
      have hbased : basedRest cs = basedRest (cs ++ u) := by
        refine basedRest_cut ?_
        split at h <;> omega
      rw [List.cons_append, wholeNumber_zero, wholeNumber_zero, hbased]
      split
      next => rfl
      next hnone =>
        rw [if_neg hnone] at h
        exact digitRun_cut (t := '0' :: cs) h
    · have hdigits (v : Text) : wholeNumber (c :: v) = digits isDigit (c :: v) := by
        simp [wholeNumber, hc]
      rw [List.cons_append, hdigits] at h ⊢
      rw [hdigits]
      exact digits_cut (t := c :: cs) h

theorem isImaginaryMark_cut (h : isImaginaryMark (t ++ u) = false) : isImaginaryMark t = false := by
  cases t with
  | nil => rfl
  | cons c t => exact h

/-- Within `t` the mark is the same with more text behind, and none comes about at its end. -/
theorem isImaginaryMark_drop (h : n < t.length) :
    isImaginaryMark ((t ++ u).drop n) = isImaginaryMark (t.drop n) := by
  rw [List.drop_append_of_le_length (Nat.le_of_lt h), List.drop_eq_getElem_cons h]
  rfl

theorem isImaginaryMark_drop_cut (hn : n ≤ t.length)
    (h : ¬isImaginaryMark ((t ++ u).drop n) = true) : ¬isImaginaryMark (t.drop n) = true := by
  rw [List.drop_append_of_le_length hn, Bool.not_eq_true] at h
  rw [isImaginaryMark_cut h]
  simp

theorem number_eq (t : Text) : number t =
    if 0 < digits isDigit t ∧ isImaginaryMark (t.drop (digits isDigit t)) then digits isDigit t + 1
    else if 0 < floatNumber t ∧ isImaginaryMark (t.drop (floatNumber t)) then floatNumber t + 1
    else if 0 < floatNumber t then floatNumber t
    else wholeNumber t := by
  simp only [number, Bool.and_eq_true, decide_eq_true_eq]

theorem number_cut (h : number (t ++ u) ≤ t.length) : number t = number (t ++ u) := by
  have hmark (hn : ¬(0 < digits isDigit (t ++ u) ∧
      isImaginaryMark ((t ++ u).drop (digits isDigit (t ++ u))))) :
      ¬(0 < digits isDigit t ∧ isImaginaryMark (t.drop (digits isDigit t))) := by
    by_cases hle : digits isDigit (t ++ u) ≤ t.length
    · rw [← digits_cut hle] at hn hle
      exact fun h => isImaginaryMark_drop_cut hle (fun hm => hn ⟨h.1, hm⟩) h.2
    · rcases digits_rest (Nat.lt_of_not_le hle) with hrest | hrest <;> rw [hrest] <;>
        simp [isImaginaryMark]
  rw [number_eq] at h
  rw [number_eq, number_eq]
  split at h
  next hwhole =>
    rw [digits_cut (Nat.le_of_succ_le h), if_pos hwhole, if_pos]
    rwa [isImaginaryMark_drop h] at hwhole
  next hwhole =>
    have hle : floatNumber (t ++ u) ≤ t.length := by
      split at h
      · omega
      · split at h <;> omega
    rw [if_neg (hmark hwhole), if_neg hwhole, floatNumber_cut hle]
    split at h
    next hfloat =>
      rw [if_pos hfloat, if_pos]
      rwa [isImaginaryMark_drop h] at hfloat
    next hfloat =>
      rw [if_neg hfloat, if_neg fun h =>
        isImaginaryMark_drop_cut hle (fun hm => hfloat ⟨h.1, hm⟩) h.2]
      split at h
      next hpos => rw [if_pos hpos, if_pos hpos]
      next hpos => rw [if_neg hpos, if_neg hpos, wholeNumber_cut h]

/-- A text that is among the first characters of `t ++ u` and lies within `t` begins `t`. -/
theorem isPrefixOf_cut {v : Text} (h : v.length ≤ t.length) :
    v.isPrefixOf (t ++ u) = v.isPrefixOf t := by
  rw [Bool.eq_iff_iff, List.isPrefixOf_iff_prefix, List.isPrefixOf_iff_prefix]
  exact ⟨fun hp => List.prefix_of_prefix_length_le hp (List.prefix_append t u) h,
    fun hp => hp.trans (List.prefix_append t u)⟩

theorem isPrefixOf_extend {v : Text} (h : v.isPrefixOf t = true) : v.isPrefixOf (t ++ u) = true := by
  rw [List.isPrefixOf_iff_prefix] at h ⊢
  exact h.trans (List.prefix_append t u)

theorem find?_prefix_cut {vs : List Text}
    (h : ((vs.find? (·.isPrefixOf (t ++ u))).map List.length).getD 0 ≤ t.length) :
    vs.find? (·.isPrefixOf t) = vs.find? (·.isPrefixOf (t ++ u)) := by
  induction vs with
  | nil => rfl
  | cons v vs ih =>
    rw [List.find?_cons] at h ⊢
    rw [List.find?_cons]
    cases hv : v.isPrefixOf (t ++ u) with
    | true =>
      rw [hv] at h
      rw [← isPrefixOf_cut (u := u) (by simpa using h), hv]
    | false =>
      rw [hv] at h
      have : v.isPrefixOf t = false := by
        by_contra hp
        rw [isPrefixOf_extend (by simpa using hp)] at hv
        contradiction
      rw [this]
      exact ih h

theorem operator_cut (h : operator (t ++ u) ≤ t.length) : operator t = operator (t ++ u) := by
  rw [operator, operator, find?_prefix_cut h]

theorem stringRest_pos {r : RowString} (h : stringRest q t = some (r, n)) : 0 < n := by
  fun_induction stringRest q t generalizing n with
  | case1 => contradiction
  | case4 d cs _ _ ih => 
    obtain ⟨⟨e, k⟩, -, he⟩ := Option.map_eq_some_iff.1 h
    obtain ⟨rfl, rfl⟩ := Prod.mk.inj he
    omega
  | case6 => contradiction
  | case7 c cs _ _ _ _ _ ih =>
    obtain ⟨⟨e, k⟩, -, he⟩ := Option.map_eq_some_iff.1 h
    obtain ⟨rfl, rfl⟩ := Prod.mk.inj he
    omega
  | _ =>
    obtain ⟨rfl, rfl⟩ := Prod.mk.inj (Option.some.inj h)
    omega

theorem stringRest_cut {r : RowString} (hq : q ≠ '\\') (h : stringRest q (t ++ u) = some (r, n))
    (hn : n ≤ t.length) : stringRest q t = some (r, n) := by
  generalize hw : t ++ u = w at h
  have hpos := stringRest_pos h
  fun_induction stringRest q w generalizing t n with
  | case1 => contradiction
  | case2 =>
    obtain ⟨rfl, rfl⟩ := Prod.mk.inj (Option.some.inj h)
    obtain ⟨a, b, t, rfl⟩ := exists_two (by omega : 2 ≤ t.length)
    obtain ⟨rfl, rfl, -⟩ : a = '\\' ∧ b = '\n' ∧ _ := by simpa using hw
    simp [stringRest]
  | case3 =>
    obtain ⟨rfl, rfl⟩ := Prod.mk.inj (Option.some.inj h)
    obtain ⟨a, b, c, t, rfl⟩ := exists_three (by omega : 3 ≤ t.length)
    obtain ⟨rfl, rfl, rfl, -⟩ : a = '\\' ∧ b = '\r' ∧ c = '\n' ∧ _ := by simpa using hw
    simp [stringRest]
  | case4 d cs hd hreturn ih =>
    obtain ⟨⟨e, k⟩, hk, he⟩ := Option.map_eq_some_iff.1 h
    obtain ⟨rfl, rfl⟩ := Prod.mk.inj he
    obtain ⟨a, b, t, rfl⟩ := exists_two (by omega : 2 ≤ t.length)
    obtain ⟨rfl, rfl, hcs⟩ : a = '\\' ∧ b = d ∧ t ++ u = cs := by simpa using hw
    have hrest := ih (by simpa using hn) hcs hk (stringRest_pos hk)
    rw [stringRest, hrest]
    · rfl
    · exact hd
    · rintro v rfl rfl
      exact hreturn _ rfl hcs.symm
  | case5 cs =>
    obtain ⟨rfl, rfl⟩ := Prod.mk.inj (Option.some.inj h)
    obtain ⟨a, t, rfl⟩ := List.exists_cons_of_length_pos hn
    obtain ⟨rfl, -⟩ := List.cons.inj hw
    rw [stringRest, if_pos rfl] <;> simp [hq]
  | case6 => contradiction
  | case7 c cs _ _ _ hne hc ih =>
    obtain ⟨⟨e, k⟩, hk, he⟩ := Option.map_eq_some_iff.1 h
    obtain ⟨rfl, rfl⟩ := Prod.mk.inj he
    obtain ⟨a, t, rfl⟩ := List.exists_cons_of_length_pos (Nat.lt_of_lt_of_le hpos hn)
    obtain ⟨rfl, hcs⟩ := List.cons.inj hw
    have hrest := ih (Nat.le_of_succ_le_succ hn) hcs hk (stringRest_pos hk)
    have ha : a ≠ '\\' := by
      rintro rfl
      simp at hc
    rw [stringRest, if_neg hne, if_neg hc, hrest]
    · rfl
    all_goals simp [ha]

theorem stringRest_extend {r : RowString} (hq : q ≠ '\\') (h : stringRest q t = some (r, n)) :
    stringRest q (t ++ u) = some (r, n) := by
  fun_induction stringRest q t generalizing r n with
  | case1 => contradiction
  | case2 => simpa [stringRest] using h
  | case3 => simpa [stringRest] using h
  | case4 d cs hd hreturn ih =>
    obtain ⟨⟨e, k⟩, hk, he⟩ := Option.map_eq_some_iff.1 h
    have hne : cs ≠ [] := by
      rintro rfl
      contradiction
    obtain ⟨x, cs, rfl⟩ := List.exists_cons_of_ne_nil hne
    rw [List.cons_append, List.cons_append, stringRest, ih hk, Option.map_some, he]
    · exact hd
    · rintro v rfl hv
      obtain ⟨rfl, -⟩ := List.cons.inj hv
      exact hreturn _ rfl rfl
  | case5 cs =>
    rw [List.cons_append, stringRest, if_pos rfl, h] <;> simp [hq]
  | case6 => contradiction
  | case7 c cs _ _ _ hne hc ih =>
    obtain ⟨⟨e, k⟩, hk, he⟩ := Option.map_eq_some_iff.1 h
    have hc' : c ≠ '\\' := by
      rintro rfl
      simp at hc
    rw [List.cons_append, stringRest, if_neg hne, if_neg hc, ih hk, Option.map_some, he] <;>
      simp [hc']

/-- What ends with a character has one. -/
theorem pos_of_getLast?_take (h : (t.take n).getLast? = some q) : 0 < n := by
  refine Nat.pos_of_ne_zero fun hn => ?_
  simp [hn] at h

theorem getLast?_tripleRest (h : tripleRest q t = some n) : (t.take n).getLast? = some q := by
  fun_induction tripleRest q t generalizing n with
  | case1 => contradiction
  | case2 => contradiction
  | case3 c cs hc ih =>
    obtain ⟨k, hk, rfl⟩ := Option.map_eq_some_iff.1 h
    simp [List.getLast?_cons, ih hk]
  | case4 c cs _ hp =>
    obtain rfl := Option.some.inj h
    obtain ⟨u, hu⟩ := List.isPrefixOf_iff_prefix.1 hp
    rw [← hu]
    rfl
  | case5 => contradiction
  | case6 c cs _ _ _ ih =>
    obtain ⟨k, hk, rfl⟩ := Option.map_eq_some_iff.1 h
    simp [List.getLast?_cons, ih hk]

theorem tripleRest_pos (h : tripleRest q t = some n) : 0 < n :=
  pos_of_getLast?_take (getLast?_tripleRest h)

theorem tripleRest_cut (hq : q ≠ '\\') (h : tripleRest q (t ++ u) = some n) (hn : n ≤ t.length) :
    tripleRest q t = some n := by
  generalize hw : t ++ u = w at h
  have hpos := tripleRest_pos h
  fun_induction tripleRest q w generalizing t n with
  | case1 => contradiction
  | case2 => contradiction
  | case3 c cs hc ih =>
    obtain ⟨k, hk, rfl⟩ := Option.map_eq_some_iff.1 h
    obtain ⟨a, b, t, rfl⟩ := exists_two (by omega : 2 ≤ t.length)
    obtain ⟨rfl, rfl, hcs⟩ : a = '\\' ∧ b = c ∧ t ++ u = cs := by simpa using hw
    rw [tripleRest, if_neg hc, ih (by simpa using hn) hcs hk (tripleRest_pos hk), Option.map_some]
  | case4 c cs _ hp =>
    obtain rfl := Option.some.inj h
    obtain ⟨a, t, rfl⟩ := List.exists_cons_of_length_pos (Nat.lt_of_lt_of_le hpos hn)
    have hc : a ≠ '\\' := by
      rintro rfl
      rw [← hw, List.isPrefixOf_iff_prefix] at hp
      exact hq (List.cons_prefix_cons.1 hp).1
    rw [← hw, isPrefixOf_cut (by exact hn)] at hp
    rw [tripleRest, if_pos hp]
    simp [hc]
  | case5 => contradiction
  | case6 c cs _ hp hc ih =>
    obtain ⟨k, hk, rfl⟩ := Option.map_eq_some_iff.1 h
    obtain ⟨a, t, rfl⟩ := List.exists_cons_of_length_pos (Nat.lt_of_lt_of_le hpos hn)
    obtain ⟨rfl, hcs⟩ := List.cons.inj hw
    rw [← hw] at hp
    rw [tripleRest, if_neg fun h => hp (isPrefixOf_extend h), if_neg hc,
      ih (Nat.le_of_succ_le_succ hn) hcs hk (tripleRest_pos hk), Option.map_some]
    simp [hc]

theorem getLast?_continuedRest (h : continuedRest q t = some n) : (t.take n).getLast? = some q := by
  fun_induction continuedRest q t generalizing n with
  | case1 => contradiction
  | case2 => contradiction
  | case3 c cs hc ih =>
    obtain ⟨k, hk, rfl⟩ := Option.map_eq_some_iff.1 h
    simp [List.getLast?_cons, ih hk]
  | case4 =>
    obtain rfl := Option.some.inj h
    rfl
  | case5 => contradiction
  | case6 c cs _ _ _ ih =>
    obtain ⟨k, hk, rfl⟩ := Option.map_eq_some_iff.1 h
    simp [List.getLast?_cons, ih hk]

theorem continuedRest_pos (h : continuedRest q t = some n) : 0 < n :=
  pos_of_getLast?_take (getLast?_continuedRest h)

theorem continuedRest_cut (hq : q ≠ '\\') (h : continuedRest q (t ++ u) = some n)
    (hn : n ≤ t.length) : continuedRest q t = some n := by
  generalize hw : t ++ u = w at h
  have hpos := continuedRest_pos h
  fun_induction continuedRest q w generalizing t n with
  | case1 => contradiction
  | case2 => contradiction
  | case3 c cs hc ih =>
    obtain ⟨k, hk, rfl⟩ := Option.map_eq_some_iff.1 h
    obtain ⟨a, b, t, rfl⟩ := exists_two (by omega : 2 ≤ t.length)
    obtain ⟨rfl, rfl, hcs⟩ : a = '\\' ∧ b = c ∧ t ++ u = cs := by simpa using hw
    rw [continuedRest, if_neg hc, ih (by simpa using hn) hcs hk (continuedRest_pos hk),
      Option.map_some]
  | case4 cs =>
    obtain rfl := Option.some.inj h
    obtain ⟨a, t, rfl⟩ := List.exists_cons_of_length_pos hn
    obtain ⟨rfl, -⟩ := List.cons.inj hw
    rw [continuedRest, if_pos rfl]
    simp [hq]
  | case5 => contradiction
  | case6 c cs _ hne hc ih =>
    obtain ⟨k, hk, rfl⟩ := Option.map_eq_some_iff.1 h
    obtain ⟨a, t, rfl⟩ := List.exists_cons_of_length_pos (Nat.lt_of_lt_of_le hpos hn)
    obtain ⟨rfl, hcs⟩ := List.cons.inj hw
    rw [continuedRest, if_neg hne, if_neg hc,
      ih (Nat.le_of_succ_le_succ hn) hcs hk (continuedRest_pos hk), Option.map_some]
    simp [hc]

theorem stringStart?_extend (h : stringStart? t = some (n, q)) :
    stringStart? (t ++ u) = some (n, q) := by
  obtain ⟨letters, rest, rfl, hlen, hletters, hq⟩ := stringStart?_eq_some_iff.1 h
  exact stringStart?_eq_some_iff.2 ⟨letters, rest ++ u, by simp, hlen, hletters, hq⟩

theorem stringStart?_cut (h : stringStart? (t ++ u) = some (n, q)) (hn : n < t.length) :
    stringStart? t = some (n, q) := by
  obtain ⟨letters, rest, ht, rfl, hletters, hq⟩ := stringStart?_eq_some_iff.1 h
  refine stringStart?_eq_some_iff.2 ⟨letters, t.drop (letters.length + 1), ?_, rfl, hletters, hq⟩
  have hp : letters ++ [q] <+: t := by
    have hprefix : letters ++ [q] <+: t ++ u := by
      rw [ht]
      exact ⟨rest, by simp⟩
    exact List.prefix_of_prefix_length_le hprefix (List.prefix_append t u) (by simpa)
  obtain ⟨v, rfl⟩ := hp
  simp

theorem word?_cut {l : Lexeme} (h : lexeme?.word? (t ++ u) = some (l, n)) (hn : n ≤ t.length) :
    lexeme?.word? t = some (l, n) := by
  obtain ⟨hl, rfl, hne⟩ := word?_eq_some_iff.1 h
  exact word?_eq_some_iff.2 ⟨hl, by rw [takeWhile_cut hn], hne⟩

theorem isWord_of_isStringLetters (h : isStringLetters t = true) : ∀ c ∈ t, isWord c = true :=
  all_of_isStringLetters h (by decide +kernel)

/-- The letters before a quote are a word if the text ends behind them. -/
theorem lexeme?_letters (h : isStringLetters t = true) (hne : t ≠ []) :
    lexeme? t = some (.word, t.length) := by
  have hlen := (isStringLetters_eq_true h).1
  match t with
  | [a] =>
    have hword := all_of_isStringLetters (p := fun a => lexeme? [a] = some (.word, 1)) h
      (by decide +kernel) a (by simp)
    exact of_decide_eq_true hword
  | [a, b] =>
    have hwords := all_of_isStringLetters
      (p := fun a => "bBrRuUfF".toList.all fun b => lexeme? [a, b] = some (.word, 2)) h
      (by decide +kernel) a (by simp)
    exact of_decide_eq_true (all_of_isStringLetters h hwords b (by simp))
  | _ :: _ :: _ :: _ => simp at hlen

theorem IsPlain.cut (h : IsPlain (t ++ u)) (hne : t ≠ []) : IsPlain t :=
  ⟨hne, fun v hv hp => h.start v hv (hp.trans (List.prefix_append t u))⟩

theorem plainLexeme?_cut_of_none {l : Lexeme} (h : plainLexeme? (t ++ u) = some (l, n))
    (hn : n ≤ t.length) (hs : stringStart? (t ++ u) = none) : plainLexeme? t = some (l, n) := by
  have hnone : stringStart? t = none := by
    cases hstart : stringStart? t with
    | none => rfl
    | some r =>
      rw [stringStart?_extend hstart] at hs
      contradiction
  simp only [plainLexeme?, hs] at h
  simp only [plainLexeme?, hnone]
  split at h
  next hpos =>
    obtain ⟨rfl, rfl⟩ := Prod.mk.inj (Option.some.inj h)
    rw [number_cut hn, if_pos hpos]
  next hzero =>
    rw [number_cut (u := u) (by omega), if_neg hzero]
    split at h
    next hpos =>
      obtain ⟨rfl, rfl⟩ := Prod.mk.inj (Option.some.inj h)
      rw [operator_cut hn, if_pos hpos]
    next hzero =>
      rw [operator_cut (u := u) (by omega), if_neg hzero]
      exact word?_cut h hn

/-- The text is cut behind the first quote of a string. -/
theorem plainLexeme?_cut_of_some {l : Lexeme} {k : Nat}
    (h : plainLexeme? (t ++ u) = some (l, n)) (hn : n ≤ t.length)
    (hs : stringStart? (t ++ u) = some (k, q)) (hk : k < t.length) :
    plainLexeme? t = some (l, n) := by
  have hq : q ≠ '\\' := by
    rintro rfl
    obtain ⟨letters, rest, -, -, -, hq⟩ := stringStart?_eq_some_iff.1 hs
    contradiction
  have hk' : k + 1 ≤ t.length := hk
  simp only [plainLexeme?, hs] at h
  simp only [plainLexeme?, stringStart?_cut hs hk]
  rw [List.drop_append_of_le_length (Nat.le_of_lt hk), List.drop_append_of_le_length hk'] at h
  split at h
  next hp =>
    obtain ⟨rfl, rfl⟩ := Prod.mk.inj (Option.some.inj h)
    rw [isPrefixOf_cut (by simp; omega)] at hp
    rw [if_pos hp]
  next hp =>
    rw [if_neg fun hp' => hp (isPrefixOf_extend hp')]
    have hlen : (t.drop (k + 1)).length = t.length - (k + 1) := List.length_drop
    split at h
    next m hm =>
      obtain ⟨rfl, rfl⟩ := Prod.mk.inj (Option.some.inj h)
      rw [stringRest_cut hq hm (by omega)]
    next m hm =>
      obtain ⟨rfl, rfl⟩ := Prod.mk.inj (Option.some.inj h)
      rw [stringRest_cut hq hm (by omega)]
    next hm =>
      have hnone : stringRest q (t.drop (k + 1)) = none := by
        cases hr : stringRest q (t.drop (k + 1)) with
        | none => rfl
        | some r =>
          rw [stringRest_extend hq hr] at hm
          contradiction
      rw [hnone]
      exact word?_cut h hn

/-- The text is cut at the first quote of a string, and the letters before it are a word. -/
theorem lexeme?_cut_letters {l : Lexeme} {k : Nat} (h : plainLexeme? (t ++ u) = some (l, n))
    (hn : n ≤ t.length) (hne : t ≠ []) (hs : stringStart? (t ++ u) = some (k, q))
    (hk : t.length ≤ k) : lexeme? t = some (l, n) := by
  obtain ⟨letters, rest, hletters, rfl, hstring, -⟩ := stringStart?_eq_some_iff.1 hs
  simp only [plainLexeme?, hs] at h
  split at h
  · obtain ⟨rfl, rfl⟩ := Prod.mk.inj (Option.some.inj h)
    omega
  split at h
  · obtain ⟨rfl, rfl⟩ := Prod.mk.inj (Option.some.inj h)
    omega
  · obtain ⟨rfl, rfl⟩ := Prod.mk.inj (Option.some.inj h)
    omega
  obtain ⟨rfl, rfl, -⟩ := word?_eq_some_iff.1 h
  rw [hletters, List.takeWhile_append_of_pos (isWord_of_isStringLetters hstring),
    List.length_append] at hn ⊢
  obtain ⟨rfl, -⟩ := List.append_inj hletters (by omega)
  rw [lexeme?_letters hstring hne, Nat.le_zero.1 (Nat.le_of_add_le_add_left hn)]
  rfl

theorem plainLexeme?_cut {l : Lexeme} (h : plainLexeme? (t ++ u) = some (l, n))
    (hn : n ≤ t.length) (ht : IsPlain t) : lexeme? t = some (l, n) := by
  cases hs : stringStart? (t ++ u) with
  | none => rw [lexeme?_of_isPlain ht, plainLexeme?_cut_of_none h hn hs]
  | some r =>
    by_cases hk : r.1 < t.length
    · rw [lexeme?_of_isPlain ht, plainLexeme?_cut_of_some h hn hs hk]
    · exact lexeme?_cut_letters h hn ht.ne_nil hs (Nat.le_of_not_lt hk)

theorem lexeme?_cut {l : Lexeme} (h : lexeme? (t ++ u) = some (l, n)) (hn : n ≤ t.length)
    (hne : t ≠ []) : lexeme? t = some (l, n) := by
  have hbegins := begins_lexeme? (t ++ u)
  rw [h] at hbegins
  generalize hw : t ++ u = w at hbegins
  generalize hr : some (l, n) = r at hbegins
  cases hbegins with
  | nothing => contradiction
  | escaped cs =>
    obtain ⟨rfl, rfl⟩ := Prod.mk.inj (Option.some.inj hr)
    obtain ⟨a, b, t, rfl⟩ := exists_two (by omega : 2 ≤ t.length)
    obtain ⟨rfl, rfl, -⟩ : a = '\\' ∧ b = '\n' ∧ _ := by simpa using hw
    rfl
  | escapedReturn cs =>
    obtain ⟨rfl, rfl⟩ := Prod.mk.inj (Option.some.inj hr)
    obtain ⟨a, b, c, t, rfl⟩ := exists_three (by omega : 3 ≤ t.length)
    obtain ⟨rfl, rfl, rfl, -⟩ : a = '\\' ∧ b = '\r' ∧ c = '\n' ∧ _ := by simpa using hw
    rfl
  | comment cs =>
    obtain ⟨rfl, rfl⟩ := Prod.mk.inj (Option.some.inj hr)
    obtain ⟨a, t, rfl⟩ := List.exists_cons_of_ne_nil hne
    obtain ⟨rfl, hcs⟩ := List.cons.inj hw
    rw [← hcs] at hn ⊢
    rw [lexeme?, takeWhile_cut (Nat.le_of_succ_le_succ hn)]
    rfl
  | feed cs =>
    obtain ⟨rfl, rfl⟩ := Prod.mk.inj (Option.some.inj hr)
    obtain ⟨a, t, rfl⟩ := List.exists_cons_of_ne_nil hne
    obtain ⟨rfl, -⟩ := List.cons.inj hw
    rfl
  | returnFeed cs =>
    obtain ⟨rfl, rfl⟩ := Prod.mk.inj (Option.some.inj hr)
    obtain ⟨a, b, t, rfl⟩ := exists_two (by omega : 2 ≤ t.length)
    obtain ⟨rfl, rfl, -⟩ : a = '\r' ∧ b = '\n' ∧ _ := by simpa using hw
    rfl
  | plain hplain =>
    subst hw
    exact (plainLexeme?_cut hr.symm hn (hplain.cut hne)).trans hr

end VariableReport.Source
