import VariableReport.Literal.Token
import VariableReport.Proofs.Value.Moderate

/-!
# Moderate tokens of literals

A whole number of a literal is read from a run of the text that starts with a digit, so the tokens
of a text with short runs have moderate values (`moderate_tokens?`). Every reader leaves a part of
the text, in which runs are short again.
-/

namespace VariableReport.Literal
open Text
open Value (Moderate)

variable {base : Nat} {t u rest ds : Text} {v : Value} {k : Token} {ks : List Token}

/-! ### Numbers -/

/-- The digits of a run, which stand at the start of a text, maybe with underscores between them. -/
structure TakesRun (base : Nat) (t ds rest : Text) : Prop where
  digits : ∀ c ∈ ds, Decimal.isDigit base c = true
  split : ∃ s, t = s ++ rest ∧ (∀ c ∈ s, isRunChar c = true) ∧ ds.length ≤ s.length

theorem TakesRun.nil (base : Nat) (t : Text) : TakesRun base t [] t :=
  ⟨by simp, [], rfl, by simp, Nat.le_refl _⟩

theorem TakesRun.suffix (h : TakesRun base t ds rest) : rest <:+ t := by
  obtain ⟨s, rfl, -, -⟩ := h.split
  exact List.suffix_append s rest

theorem takesRun_digitRun (base : Nat) (t : Text) :
    TakesRun base t (digitRun base t).1 (digitRun base t).2 := by
  fun_induction digitRun base t with
  | case1 => exact .nil base []
  | case2 c cs hc ds rest hrun ih =>
    rw [hrun] at ih
    obtain ⟨hdigits, s, rfl, hs, hle⟩ := ih
    refine ⟨List.forall_mem_cons.2 ⟨hc, hdigits⟩, c :: s, rfl, ?_, Nat.succ_le_succ hle⟩
    exact List.forall_mem_cons.2 ⟨isRunChar_of_isDigit hc, hs⟩
  | case3 c cs _ hc ih =>
    obtain ⟨hdigits, s, hsplit, hs, hle⟩ := ih
    simp only [Bool.and_eq_true, decide_eq_true_eq] at hc
    refine ⟨hdigits, c :: s, congrArg (c :: ·) hsplit, ?_, Nat.le_succ_of_le hle⟩
    exact List.forall_mem_cons.2 ⟨by simp [isRunChar, hc.1], hs⟩
  | case4 => exact .nil base _

theorem digitRun?_eq_some (h : digitRun? base t = some (ds, rest)) :
    TakesRun base t ds rest ∧ ∃ c u, t = c :: u ∧ Decimal.isDigit base c = true := by
  unfold digitRun? at h
  split at h
  next c u =>
    split at h
    next hc =>
      have hrun := takesRun_digitRun base (c :: u)
      rw [Option.some.inj h] at hrun
      exact ⟨hrun, c, u, rfl, hc⟩
    next => cases h
  next => cases h

theorem takesRun_getD (base : Nat) (t : Text) :
    TakesRun base t ((digitRun? base t).getD ([], t)).1 ((digitRun? base t).getD ([], t)).2 := by
  cases h : digitRun? base t with
  | none => exact .nil base t
  | some run => exact (digitRun?_eq_some h).1

/-- Digits behind characters of a run, of which the first is a digit, denote a bounded number. -/
theorem value_lt_bound (ht : ShortRuns t) (h16 : base ≤ 16) {s : Text} (hs : t = s ++ u)
    (hhead : ∀ c ∈ t.head?, isAsciiDigit c = true) (hchars : ∀ c ∈ s, isRunChar c = true)
    (h : TakesRun base u ds rest) : Decimal.value base ds < Value.bound := by
  obtain ⟨hdigits, r, rfl, hr, hle⟩ := h
  rw [← List.append_assoc] at hs
  have hrun : s ++ r <+: t := ⟨rest, hs.symm⟩
  have hlen := ht.length_le hrun.isInfix (fun c hc => hhead c ?_)
    (List.forall_mem_append.2 ⟨hchars, hr⟩)
  · rw [List.length_append] at hlen
    exact Decimal.value_lt_bound h16 hdigits (by omega)
  · obtain ⟨w, hw⟩ := List.head?_eq_some_iff.1 hc
    rw [hs, hw]
    rfl

theorem isRunChar_of_baseOf? {c : Char} (h : baseOf? c = some base) :
    isRunChar c = true ∧ base ≤ 16 := by
  have hletter {a b : Char} {k : Nat} (ha : isRunChar a = true) (hb : isRunChar b = true)
      (hk : k ≤ 16) (hc : (c = a || c = b) = true) (hbase : some k = some base) :
      isRunChar c = true ∧ base ≤ 16 := by
    simp only [Bool.or_eq_true, decide_eq_true_eq] at hc
    cases hbase
    rcases hc with rfl | rfl
    · exact ⟨ha, hk⟩
    · exact ⟨hb, hk⟩
  unfold baseOf? at h
  split at h
  next hc => exact hletter rfl rfl (by decide) hc h
  next =>
    split at h
    next hc => exact hletter rfl rfl (by decide) hc h
    next =>
      split at h
      next hc => exact hletter rfl rfl (by decide) hc h
      next => cases h

/-- The digits after a point, what follows them, and whether there was a point. -/
def fraction (t : Text) : Text × Text × Bool :=
  match t with
  | '.' :: r =>
    let (ds, r) := (digitRun? 10 r).getD ([], r)
    (ds, r, true)
  | r => ([], r, false)

/-- The number whose parts have been read. -/
def assemble? (whole fraction : Text) (power : Int) (isFloat : Bool) (rest : Text) :
    Option (Value × Text) :=
  let number := Double.ofDecimal false (Decimal.natValue (whole ++ fraction))
    (power - fraction.length)
  match rest with
  | j :: r =>
    if j = 'j' || j = 'J' then some (.complex .zero number, r)
    else if isFloat then some (.float number, rest)
    else decimalNumber?.wholeNumber? whole rest
  | [] => if isFloat then some (.float number, rest) else decimalNumber?.wholeNumber? whole rest

/-- The stages of a decimal number. -/
theorem decimalNumber?_eq (t : Text) : decimalNumber? t =
    let (whole, rest) := (digitRun? 10 t).getD ([], t)
    let (ds, rest, isFloat) := fraction rest
    match rest with
    | e :: r =>
      if (e = 'e' || e = 'E') && !startsWithWord rest then
        ((exponent? r).map fun (x, r) => (x, r, true)).bind fun (power, rest, isFloat) =>
          assemble? whole ds power isFloat rest
      else assemble? whole ds 0 isFloat rest
    | [] => assemble? whole ds 0 isFloat rest := rfl

theorem suffix_fraction {isFloat : Bool} (h : fraction t = (ds, rest, isFloat)) : rest <:+ t := by
  unfold fraction at h
  split at h
  next =>
    cases h
    exact (takesRun_getD 10 _).suffix.trans (List.suffix_cons _ _)
  next =>
    cases h
    exact List.suffix_rfl

theorem suffix_exponent? {x : Int} (h : exponent? t = some (x, rest)) : rest <:+ t := by
  unfold exponent? at h
  simp only [Option.bind_eq_bind, Option.bind_eq_some_iff] at h
  obtain ⟨⟨ds, rest'⟩, hrun, h⟩ := h
  cases h
  refine (digitRun?_eq_some hrun).1.suffix.trans ?_
  split
  · exact List.suffix_cons _ _
  · exact List.suffix_cons _ _
  · exact List.suffix_rfl

theorem wholeNumber?_eq_some (h : decimalNumber?.wholeNumber? ds u = some (v, rest))
    (hds : Decimal.natValue ds < Value.bound) : rest = u ∧ Moderate v := by
  unfold decimalNumber?.wholeNumber? at h
  split at h
  next =>
    cases h
    exact ⟨rfl, .int (Nat.zero_lt_of_lt hds)⟩
  next =>
    split at h
    next => cases h
    next =>
      cases h
      exact ⟨rfl, .int hds⟩

theorem assemble?_eq_some {whole : Text} {power : Int} {isFloat : Bool}
    (h : assemble? whole ds power isFloat u = some (v, rest))
    (hwhole : Decimal.natValue whole < Value.bound) : rest <:+ u ∧ Moderate v := by
  unfold assemble? at h
  dsimp only at h
  split at h
  next j r =>
    split at h
    next =>
      cases h
      exact ⟨List.suffix_cons j _, .complex _ _⟩
    next =>
      split at h
      next =>
        cases h
        exact ⟨List.suffix_rfl, .float _⟩
      next =>
        obtain ⟨rfl, hv⟩ := wholeNumber?_eq_some h hwhole
        exact ⟨List.suffix_rfl, hv⟩
  next =>
    split at h
    next =>
      cases h
      exact ⟨List.suffix_rfl, .float _⟩
    next =>
      obtain ⟨rfl, hv⟩ := wholeNumber?_eq_some h hwhole
      exact ⟨List.suffix_rfl, hv⟩

theorem decimalNumber?_eq_some (ht : ShortRuns t) (h : decimalNumber? t = some (v, rest)) :
    rest <:+ t ∧ Moderate v := by
  have hwhole : Decimal.natValue ((digitRun? 10 t).getD ([], t)).1 < Value.bound := by
    cases hrun : digitRun? 10 t with
    | none => exact Decimal.pow_pos (by decide) _
    | some run =>
      obtain ⟨htakes, c, u, rfl, hc⟩ := digitRun?_eq_some hrun
      refine value_lt_bound ht (by decide) (List.nil_append _).symm ?_ (by simp) htakes
      rintro _ ⟨⟩
      exact isAsciiDigit_of_isDigit hc
  have hrest := (takesRun_getD 10 t).suffix
  rw [decimalNumber?_eq] at h
  generalize (digitRun? 10 t).getD ([], t) = run at h hwhole hrest
  obtain ⟨whole, rest₁⟩ := run
  dsimp only at h hwhole hrest
  rcases hfraction : fraction rest₁ with ⟨ds, rest₂, isFloat⟩
  have hrest₂ := (suffix_fraction hfraction).trans hrest
  rw [hfraction] at h
  dsimp only at h
  split at h
  next e r =>
    split at h
    next =>
      rw [Option.bind_map, Option.bind_eq_some_iff] at h
      obtain ⟨⟨x, rest₃⟩, hexponent, h⟩ := h
      obtain ⟨hsuffix, hv⟩ := assemble?_eq_some h hwhole
      have hrest₃ := (suffix_exponent? hexponent).trans (List.suffix_cons e r)
      exact ⟨(hsuffix.trans hrest₃).trans hrest₂, hv⟩
    next =>
      obtain ⟨hsuffix, hv⟩ := assemble?_eq_some h hwhole
      exact ⟨hsuffix.trans hrest₂, hv⟩
  next =>
    obtain ⟨hsuffix, hv⟩ := assemble?_eq_some h hwhole
    exact ⟨hsuffix.trans hrest₂, hv⟩

theorem basedNumber?_eq_some {c : Char} (ht : ShortRuns ('0' :: c :: t)) (hc : baseOf? c = some base)
    (h : basedNumber? base t = some (v, rest)) : rest <:+ t ∧ Moderate v := by
  obtain ⟨hchar, h16⟩ := isRunChar_of_baseOf? hc
  unfold basedNumber? at h
  simp only [Option.bind_eq_bind, Option.bind_eq_some_iff] at h
  obtain ⟨⟨ds, rest'⟩, hrun, h⟩ := h
  cases h
  have htakes := (digitRun?_eq_some hrun).1
  have hzero : isRunChar '0' = true := rfl
  have hunderscore : isRunChar '_' = true := rfl
  have hhead : ∀ d ∈ ('0' :: c :: t).head?, isAsciiDigit d = true := by
    rintro _ ⟨⟩
    rfl
  -- an underscore may stand in front of the digits
  split at htakes
  next r =>
    refine ⟨htakes.suffix.trans (List.suffix_cons _ r), .int ?_⟩
    exact value_lt_bound ht h16 (s := ['0', c, '_']) rfl hhead
      (by simp [hzero, hchar, hunderscore]) htakes
  next =>
    refine ⟨htakes.suffix, .int ?_⟩
    exact value_lt_bound ht h16 (s := ['0', c]) rfl hhead (by simp [hzero, hchar]) htakes

theorem number?_eq_some (ht : ShortRuns t) (h : number? t = some (v, rest)) :
    rest <:+ t ∧ Moderate v := by
  -- what may follow a number leaves it as it is
  have hend {x : Option (Value × Text)} (hx : (x.bind fun p => match p.2 with
      | c :: _ => if isNameChar c && !startsWithWord p.2 then none else some (p.1, p.2)
      | [] => some (p.1, p.2)) = some (v, rest)) : x = some (v, rest) := by
    obtain ⟨p, rfl, hp⟩ := Option.bind_eq_some_iff.1 hx
    split at hp
    next =>
      split at hp
      next => cases hp
      next => exact hp
    next => exact hp
  unfold number? at h
  split at h
  next c r =>
    split at h
    next base hbase =>
      obtain ⟨hsuffix, hv⟩ := basedNumber?_eq_some ht hbase (hend h)
      exact ⟨(hsuffix.trans (List.suffix_cons c r)).trans (List.suffix_cons '0' _), hv⟩
    next => exact decimalNumber?_eq_some ht (hend h)
  next => exact decimalNumber?_eq_some ht (hend h)

/-! ### Tokens -/

theorem suffix_closeQuote {q : Char} {triple : Bool} {body : Text}
    (h : closeQuote q triple t = some (body, rest)) : rest <:+ t := by
  -- what is put in front of the body changes nothing of what follows it
  have hmap {x : Option (Text × Text)} {f : Text → Text} {body : Text}
      (hx : (x.map fun p => (f p.1, p.2)) = some (body, rest)) : ∃ b, x = some (b, rest) := by
    obtain ⟨⟨b, r⟩, rfl, hb⟩ := Option.map_eq_some_iff.1 hx
    cases hb
    exact ⟨b, rfl⟩
  fun_induction closeQuote q triple t generalizing body with
  | case1 => cases h
  | case2 c cs ih =>
    obtain ⟨b, hb⟩ := hmap (f := fun b => '\\' :: c :: b) h
    exact ((ih hb).trans (List.suffix_cons c cs)).trans (List.suffix_cons _ _)
  | case3 =>
    cases h
    exact List.suffix_cons _ _
  | case4 =>
    cases h
    exact List.suffix_append [q, _, _] _
  | case5 _ d e r _ _ ih =>
    obtain ⟨b, hb⟩ := hmap (f := fun b => q :: b) h
    exact (ih hb).trans (List.suffix_cons q _)
  | case6 => cases h
  | case7 => cases h
  | case8 c cs _ _ _ ih =>
    obtain ⟨b, hb⟩ := hmap (f := fun b => c :: b) h
    exact (ih hb).trans (List.suffix_cons c cs)

/-- The value of a token, if it has one, is moderate. -/
inductive Token.Moderate : Token → Prop
  | value {v : Value} : v.Moderate → Moderate (.value v)
  | formatted (parts : List Text) : Moderate (.formatted parts)
  | name (t : Text) : Moderate (.name t)
  | sign (s : Sign) : Moderate (.sign s)
  | lineEnd : Moderate .lineEnd

theorem wordToken?_eq_some (h : wordToken? t = some k) : k.Moderate := by
  unfold wordToken? at h
  split at h
  next =>
    cases h
    exact .value .none
  next =>
    split at h
    next =>
      cases h
      exact .value (.bool true)
    next =>
      split at h
      next =>
        cases h
        exact .value (.bool false)
      next =>
        split at h
        next =>
          cases h
          exact .sign _
        next =>
          split at h
          next => cases h
          next =>
            cases h
            exact .name t

theorem operator?_eq_some (h : operator? t = some (k, rest)) : rest <:+ t ∧ k.Moderate := by
  unfold operator? at h
  split at h
  next c d cs =>
    split at h
    next =>
      cases h
      exact ⟨List.suffix_append [c, d] _, .sign _⟩
    next =>
      split at h
      next =>
        cases h
        exact ⟨List.suffix_cons c _, .sign _⟩
      next => cases h
  next c =>
    split at h
    next =>
      cases h
      exact ⟨List.nil_suffix, .sign _⟩
    next => cases h
  next => cases h

section
variable [Host]

theorem quotedToken?_eq_some {q : Quoting} {body : Text} (h : quotedToken? q body = some k) :
    k.Moderate := by
  unfold quotedToken? at h
  split at h
  next =>
    obtain ⟨b, -, rfl⟩ := Option.map_eq_some_iff.1 h
    exact .value (.str _)
  next =>
    split at h
    next => cases h
    next =>
      obtain ⟨b, -, rfl⟩ := Option.map_eq_some_iff.1 h
      exact .value (.bytes _)
  next =>
    obtain ⟨parts, -, rfl⟩ := Option.map_eq_some_iff.1 h
    exact .formatted parts

theorem quoted?_eq_some {q : Quoting} (h : quoted? q t = some (k, rest)) :
    rest <:+ t ∧ k.Moderate := by
  have hbody {x : Option (Text × Text)} (hx : (x.bind fun p =>
      (quotedToken? q p.1).bind fun k => some (k, p.2)) = some (k, rest)) :
      ∃ body, x = some (body, rest) ∧ quotedToken? q body = some k := by
    obtain ⟨⟨body, r⟩, rfl, hp⟩ := Option.bind_eq_some_iff.1 hx
    obtain ⟨w, hw, hp⟩ := Option.bind_eq_some_iff.1 hp
    cases hp
    exact ⟨body, rfl, hw⟩
  unfold quoted? at h
  split at h
  next a b c cs =>
    dsimp only at h
    split at h
    next =>
      obtain ⟨body, hclose, hk⟩ := hbody h
      exact ⟨(suffix_closeQuote hclose).trans (List.suffix_append [a, b, c] cs),
        quotedToken?_eq_some hk⟩
    next =>
      obtain ⟨body, hclose, hk⟩ := hbody h
      exact ⟨(suffix_closeQuote hclose).trans (List.suffix_cons a _), quotedToken?_eq_some hk⟩
  next a cs _ =>
    obtain ⟨body, hclose, hk⟩ := hbody h
    exact ⟨(suffix_closeQuote hclose).trans (List.suffix_cons a cs), quotedToken?_eq_some hk⟩
  next => cases h

theorem token?_eq_some (ht : ShortRuns t) (h : token? t = some (k, rest)) :
    rest <:+ t ∧ k.Moderate := by
  unfold token? at h
  split at h
  next => cases h
  next c cs =>
    have hword : (c :: cs).dropWhile isNameChar <:+ c :: cs := List.dropWhile_suffix _
    have hname {t : Text} (h : ((wordToken? t).map fun k => (k, (c :: cs).dropWhile isNameChar)) =
        some (k, rest)) : rest <:+ c :: cs ∧ k.Moderate := by
      obtain ⟨k', hk, hp⟩ := Option.map_eq_some_iff.1 h
      cases hp
      exact ⟨hword, wordToken?_eq_some hk⟩
    split at h
    next =>
      obtain ⟨⟨v, r⟩, hnumber, hp⟩ := Option.map_eq_some_iff.1 h
      obtain ⟨hsuffix, hv⟩ := number?_eq_some ht hnumber
      cases hp
      exact ⟨hsuffix, .value hv⟩
    next =>
      split at h
      next =>
        cases h
        exact ⟨List.drop_suffix 3 _, .value .ellipsis⟩
      next =>
        split at h
        next => exact quoted?_eq_some h
        next =>
          split at h
          next =>
            dsimp only at h
            split at h
            next =>
              split at h
              next =>
                obtain ⟨hsuffix, hk⟩ := quoted?_eq_some h
                exact ⟨hsuffix.trans hword, hk⟩
              next => exact hname h
            next => exact hname h
          next => exact operator?_eq_some h

theorem moderate_tokensFrom {n : Nat} {p : Place} (ht : ShortRuns t)
    (h : tokensFrom n p t = some ks) : ∀ k ∈ ks, k.Moderate := by
  have htail {c : Char} {cs : Text} (ht : ShortRuns (c :: cs)) : ShortRuns cs :=
    ht.part (List.suffix_cons c cs).isInfix
  fun_induction tokensFrom n p t generalizing ks with
  | case1 => cases h
  | case2 =>
    cases h
    split
    next => simp
    next => exact List.forall_mem_singleton.2 .lineEnd
  | case3 _ _ _ _ _ ih => exact ih (htail ht) h
  | case4 _ _ _ _ ih => exact ih (htail ht) h
  | case5 _ _ _ _ _ ih => exact ih ((htail ht).part (List.dropWhile_suffix _).isInfix) h
  | case6 _ _ _ _ _ _ _ ih => exact ih (htail ht) h
  | case7 _ _ _ _ _ _ _ _ ih => exact ih (htail ht) h
  | case8 _ _ _ _ _ _ _ _ ih =>
    obtain ⟨ks', hks, rfl⟩ := Option.map_eq_some_iff.1 h
    exact List.forall_mem_cons.2 ⟨.lineEnd, ih (htail ht) hks⟩
  | case9 _ _ _ _ _ _ _ _ ih => exact ih (htail (htail ht)) h
  | case10 => cases h
  | case11 => cases h
  | case12 _ _ _ _ _ _ _ _ _ _ ih =>
    obtain ⟨⟨k, rest⟩, hk, h⟩ := Option.bind_eq_some_iff.1 h
    obtain ⟨place, -, h⟩ := Option.bind_eq_some_iff.1 h
    obtain ⟨ks', hks, h⟩ := Option.bind_eq_some_iff.1 h
    obtain ⟨hsuffix, hmoderate⟩ := token?_eq_some ht hk
    cases h
    exact List.forall_mem_cons.2 ⟨hmoderate, ih rest place (ht.part hsuffix.isInfix) hks⟩

theorem moderate_tokens? (ht : ShortRuns t) (h : tokens? t = some ks) :
    ∀ k ∈ ks, k.Moderate := by
  unfold tokens? at h
  split at h
  next => cases h
  next => exact moderate_tokensFrom ht h

end

end VariableReport.Literal
