import VariableReport.Source.Lexer
import VariableReport.Proofs.Text.Blank
import VariableReport.Proofs.Text.Lines
import Mathlib.Data.List.TakeWhile

/-!
# What a lexeme takes

Every lexeme takes at least one character and no more than there are. A lexeme that becomes
a token other than a row end lies within its row: no line feed is among its characters. A
string that has begun on an earlier row ends within the row it ends on.
-/

namespace VariableReport.Source
open Text

/-- The first `n` characters are there and hold no line feed. -/
structure Spans (t : Text) (n : Nat) : Prop where
  le : n ≤ t.length
  row : '\n' ∉ t.take n

variable {t : Text} {c q : Char} {m n : Nat}

theorem Spans.zero (t : Text) : Spans t 0 := ⟨by simp, by simp⟩

theorem Spans.cons (hc : c ≠ '\n') (h : Spans t n) : Spans (c :: t) (n + 1) :=
  ⟨by simpa using h.le, by simpa using ⟨Ne.symm hc, h.row⟩⟩

theorem Spans.add (h : Spans t m) (k : Spans (t.drop m) n) : Spans t (m + n) := by
  have hm := h.le
  have hn := k.le
  rw [List.length_drop] at hn
  refine ⟨by omega, ?_⟩
  rw [List.take_add, List.mem_append, not_or]
  exact ⟨h.row, k.row⟩

theorem spans_takeWhile {p : Char → Bool} (hp : p '\n' = false) (t : Text) :
    Spans t (t.takeWhile p).length := by
  refine ⟨(List.takeWhile_prefix p).length_le, ?_⟩
  rw [List.prefix_iff_eq_take.1 (List.takeWhile_prefix p) |>.symm]
  intro hm
  rw [List.mem_takeWhile_imp hm] at hp
  contradiction

/-- The first `n` characters are there and none of them is blank. -/
structure Solid (t : Text) (n : Nat) : Prop where
  le : n ≤ t.length
  solid : ∀ d ∈ t.take n, isBlank d = false

theorem Solid.spans (h : Solid t n) : Spans t n :=
  ⟨h.le, fun hm => absurd (h.solid _ hm) (by decide)⟩

theorem Solid.zero (t : Text) : Solid t 0 := ⟨by simp, by simp⟩

theorem Solid.cons (hc : isBlank c = false) (h : Solid t n) : Solid (c :: t) (n + 1) :=
  ⟨by simpa using h.le, by simpa using ⟨hc, h.solid⟩⟩

theorem Solid.add (h : Solid t m) (k : Solid (t.drop m) n) : Solid t (m + n) := by
  have hm := h.le
  have hn := k.le
  rw [List.length_drop] at hn
  refine ⟨by omega, fun d hd => ?_⟩
  rw [List.take_add, List.mem_append] at hd
  exact hd.elim (h.solid d) (k.solid d)

theorem Solid.of_initial {u : Text} (h : u <+: t) (hu : ∀ d ∈ u, isBlank d = false) :
    Solid t u.length := ⟨h.length_le, by rwa [← List.prefix_iff_eq_take.1 h]⟩

/-- The characters of the white space, by their numbers. -/
def blanks : List Nat := [9, 10, 11, 12, 13, 28, 29, 30, 31, 32, 0x85, 0xA0, 0x1680, 0x2000, 0x2001,
  0x2002, 0x2003, 0x2004, 0x2005, 0x2006, 0x2007, 0x2008, 0x2009, 0x200A, 0x2028, 0x2029, 0x202F,
  0x205F, 0x3000]

theorem mem_blanks_of_isBlank (h : isBlank c = true) : c.toNat ∈ blanks := by
  have hranges : blanks = List.range' 9 5 ++ List.range' 28 5 ++ [0x85, 0xA0, 0x1680] ++
      List.range' 0x2000 11 ++ [0x2028, 0x2029, 0x202F, 0x205F, 0x3000] := by decide
  simp only [isBlank, Bool.or_eq_true, Bool.and_eq_true, decide_eq_true_eq] at h
  simp only [hranges, List.mem_append, List.mem_range'_1, List.mem_cons, List.not_mem_nil, or_false]
  omega

/-- What has no blank among its characters can be told by looking at every blank. -/
theorem isBlank_eq_false {p : Char → Bool} (hp : ∀ n ∈ blanks, p (Char.ofNat n) = false)
    (hc : p c = true) : isBlank c = false := by
  refine Bool.eq_false_iff.2 fun hb => ?_
  have hn := hp c.toNat (mem_blanks_of_isBlank hb)
  rw [Char.ofNat_toNat, hc] at hn
  contradiction

theorem isBlank_of_isWord (h : isWord c = true) : isBlank c = false :=
  isBlank_eq_false (by decide +kernel) h

theorem isBlank_of_isDigit (h : isDigit c = true) : isBlank c = false :=
  isBlank_eq_false (by decide) h

theorem solid_digitRun {digit : Char → Bool} (hd : ∀ c, digit c = true → isBlank c = false)
    (t : Text) : Solid t (digitRun digit t) := by
  fun_induction digitRun digit t with
  | case1 => exact .zero _
  | case2 c cs hc ih => exact .cons (hd c hc) ih
  | case3 d ds hd' _ ih => exact .cons (by decide) (.cons (hd d hd') ih)
  | _ => exact .zero _

theorem solid_digits (t : Text) : Solid t (digits isDigit t) := by
  unfold digits
  split
  · exact .zero _
  · split
    · exact solid_digitRun (fun _ => isBlank_of_isDigit) _
    · exact .zero _

theorem solid_exponent (t : Text) : Solid t (exponent t) := by
  cases t with
  | nil => exact .zero _
  | cons e cs =>
    simp only [exponent]
    split
    next he =>
      have hmark : isBlank e = false := by
        simp only [Bool.or_eq_true, decide_eq_true_eq] at he
        rcases he with rfl | rfl <;> decide
      have hrest {sign : Nat} (hs : Solid cs sign) :
          Solid (e :: cs) (if digits isDigit (cs.drop sign) = 0 then 0
            else digits isDigit (cs.drop sign) + sign + 1) := by
        split
        · exact .zero _
        · rw [Nat.add_comm (digits _ _)]
          exact .cons hmark (hs.add (solid_digits _))
      apply hrest
      split
      next d ds =>
        split
        next hd =>
          refine .cons ?_ (.zero ds)
          simp only [Bool.or_eq_true, decide_eq_true_eq] at hd
          rcases hd with rfl | rfl <;> decide
        next => exact .zero _
      next => exact .zero _
    next => exact .zero _

theorem solid_floatNumber (t : Text) : Solid t (floatNumber t) := by
  have hn := solid_digits t
  simp only [floatNumber]
  generalize digits isDigit t = n at hn ⊢
  split
  next cs hcs =>
    split
    · exact .zero _
    · rw [Nat.add_assoc, Nat.add_assoc, Nat.add_comm 1]
      refine hn.add ?_
      rw [hcs]
      exact .cons (by decide) ((solid_digits cs).add (solid_exponent _))
  next =>
    split
    · exact .zero _
    · exact hn.add (solid_exponent _)

theorem digitOfBase?_eq_some {letter : Char} {digit : Char → Bool}
    (h : digitOfBase? letter = some digit) :
    isBlank letter = false ∧ ∀ c, digit c = true → isBlank c = false := by
  have hletter : isBlank letter = false :=
    @isBlank_eq_false letter (fun c => (digitOfBase? c).isSome) (by decide) (by simp [h])
  refine ⟨hletter, fun c hc => ?_⟩
  unfold digitOfBase? at h
  split at h
  · obtain rfl := Option.some.inj h
    exact isBlank_eq_false (by decide) hc
  · split at h
    · obtain rfl := Option.some.inj h
      exact @isBlank_eq_false c (fun c => c = '0' || c = '1') (by decide) hc
    · split at h
      · obtain rfl := Option.some.inj h
        exact @isBlank_eq_false c (fun c => '0' ≤ c && c ≤ '7') (by decide) hc
      · contradiction

theorem solid_basedRest (t : Text) : Solid t (basedRest t) := by
  unfold basedRest
  split
  next letter cs =>
    split
    next digit hd =>
      obtain ⟨hletter, hdigit⟩ := digitOfBase?_eq_some hd
      split
      · exact .zero _
      · exact .cons hletter (solid_digitRun hdigit cs)
    next => exact .zero _
  next => exact .zero _

theorem solid_wholeNumber (t : Text) : Solid t (wholeNumber t) := by
  unfold wholeNumber
  split
  next cs =>
    split
    · exact .cons (by decide) (solid_basedRest cs)
    · exact solid_digitRun
        (fun c hc => @isBlank_eq_false c (fun c => c = '0') (by decide) hc) _
  next => exact solid_digits t

theorem Solid.imaginary (h : Solid t n) (hm : isImaginaryMark (t.drop n) = true) :
    Solid t (n + 1) := by
  refine h.add ?_
  cases hd : t.drop n with
  | nil => simp [hd, isImaginaryMark] at hm
  | cons c cs =>
    refine .cons ?_ (.zero cs)
    rw [hd] at hm
    exact @isBlank_eq_false c (fun c => isImaginaryMark [c]) (by decide) hm

theorem solid_number (t : Text) : Solid t (number t) := by
  simp only [number]
  split
  next h => exact (solid_digits t).imaginary (by simpa using (Bool.and_eq_true _ _ ▸ h).2)
  next =>
    split
    next h => exact (solid_floatNumber t).imaginary (by simpa using (Bool.and_eq_true _ _ ▸ h).2)
    next =>
      split
      · exact solid_floatNumber t
      · exact solid_wholeNumber t

theorem solid_operator (t : Text) : Solid t (operator t) := by
  unfold operator
  cases hf : operators.find? (·.isPrefixOf t) with
  | none => exact .zero _
  | some u =>
    have hall : operators.all (·.all fun d => !isBlank d) = true := by decide
    have hu := List.all_eq_true.1 hall u (List.mem_of_find?_eq_some hf)
    have hp : u.isPrefixOf t = true := by simpa using List.find?_some hf
    exact .of_initial (List.isPrefixOf_iff_prefix.1 hp) (by simpa using hu)

theorem solid_word (t : Text) : Solid t (t.takeWhile isWord).length :=
  .of_initial (List.takeWhile_prefix _) fun _ hd => isBlank_of_isWord (List.mem_takeWhile_imp hd)

theorem Spans.of_initial {u : Text} (h : u <+: t) (hu : '\n' ∉ u) : Spans t u.length :=
  ⟨h.length_le, by rwa [← List.prefix_iff_eq_take.1 h]⟩

theorem spans_stringRest (hq : q ≠ '\n') (h : stringRest q t = some (.closed, n)) :
    Spans t n := by
  fun_induction stringRest q t generalizing n with
  | case1 => contradiction
  | case2 => simp at h
  | case3 => simp at h
  | case4 d cs hn _ ih =>
    obtain ⟨⟨e, k⟩, hk, he⟩ := Option.map_eq_some_iff.1 h
    obtain ⟨rfl, rfl⟩ := Prod.mk.inj he
    refine .cons (by decide) (.cons ?_ (ih hk))
    intro heq
    subst heq
    exact hn rfl
  | case5 cs =>
    obtain ⟨-, rfl⟩ := Prod.mk.inj (Option.some.inj h)
    exact .cons hq (.zero _)
  | case6 => contradiction
  | case7 c cs _ _ _ _ hc ih =>
    obtain ⟨⟨e, k⟩, hk, he⟩ := Option.map_eq_some_iff.1 h
    obtain ⟨rfl, rfl⟩ := Prod.mk.inj he
    refine .cons ?_ (ih hk)
    intro heq
    subst heq
    simp at hc

theorem ne_rowEnd_of_isQuote (h : isQuote q = true) : q ≠ '\n' := by
  intro heq
  subst heq
  contradiction

/-- The letters that may stand before a quote are at most two of eight. -/
theorem isStringLetters_eq_true (h : isStringLetters t = true) :
    t.length ≤ 2 ∧ ∀ c ∈ t, c ∈ "bBrRuUfF".toList := by
  have hbytes : "bBfF".toList.all "bBrRuUfF".toList.contains = true := by decide
  have hraw : "rR".toList.all "bBrRuUfF".toList.contains = true := by decide
  have hmem {u : Text} {c : Char} (h : u.all "bBrRuUfF".toList.contains = true) (hc : c ∈ u) :
      c ∈ "bBrRuUfF".toList := List.contains_iff_mem.1 (List.all_eq_true.1 h c hc)
  unfold isStringLetters at h
  split at h
  · exact ⟨by simp, by simp⟩
  · exact ⟨by simp, by simpa using h⟩
  next a b =>
    simp only [Bool.or_eq_true, Bool.and_eq_true, List.contains_iff_mem] at h
    refine ⟨by simp, ?_⟩
    rw [List.forall_mem_cons, List.forall_mem_singleton]
    rcases h with ⟨ha, hb⟩ | ⟨ha, hb⟩
    · exact ⟨hmem hbytes ha, hmem hraw hb⟩
    · exact ⟨hmem hraw ha, hmem hbytes hb⟩
  · contradiction

theorem all_of_isStringLetters {p : Char → Bool} (h : isStringLetters t = true)
    (hp : "bBrRuUfF".toList.all p = true) : ∀ c ∈ t, p c = true :=
  fun c hc => List.all_eq_true.1 hp c ((isStringLetters_eq_true h).2 c hc)

theorem stringStart?_eq_some_iff : stringStart? t = some (n, q) ↔ ∃ letters rest,
    t = letters ++ q :: rest ∧ letters.length = n ∧ isStringLetters letters = true ∧
      isQuote q = true := by
  constructor
  · intro h
    simp only [stringStart?] at h
    generalize hl : (t.take 3).takeWhile (fun c => !isQuote c) = letters at h
    have hp : letters <+: t := by
      rw [← hl]
      exact (List.takeWhile_prefix _).trans (List.take_prefix 3 t)
    split at h
    next x rest hd =>
      split at h
      next hx =>
        rw [Bool.and_eq_true] at hx
        obtain ⟨rfl, rfl⟩ := Prod.mk.inj (Option.some.inj h)
        refine ⟨letters, rest, ?_, rfl, hx.2, hx.1⟩
        obtain ⟨rest', hrest⟩ := hp
        rw [← hrest, List.drop_left] at hd
        rw [← hrest, hd]
      next => contradiction
    next => contradiction
  · rintro ⟨letters, rest, rfl, rfl, hletters, hq⟩
    have hlen := (isStringLetters_eq_true hletters).1
    have hfree : ∀ c ∈ letters, (!isQuote c) = true := all_of_isStringLetters hletters (by decide)
    have htake : (letters ++ q :: rest).take 3 = letters ++ (q :: rest).take (3 - letters.length) := by
      rw [List.take_append, List.take_of_length_le (by omega)]
    have hwhile : ((q :: rest).take (3 - letters.length)).takeWhile (fun c => !isQuote c) = [] := by
      obtain ⟨k, hk⟩ : ∃ k, 3 - letters.length = k + 1 := ⟨2 - letters.length, by omega⟩
      rw [hk, List.take_succ_cons, List.takeWhile_cons]
      simp [hq]
    simp only [stringStart?]
    rw [htake, List.takeWhile_append_of_pos hfree, hwhile, List.append_nil, List.drop_left]
    simp [hq, hletters]
theorem stringStart?_eq_some (h : stringStart? t = some (n, q)) :
    Spans t n ∧ q ≠ '\n' ∧ ∃ rest, t.drop n = q :: rest := by
  obtain ⟨letters, rest, rfl, rfl, hletters, hq⟩ := stringStart?_eq_some_iff.1 h
  have hfeed : '\n' ∉ letters := fun hm =>
    absurd ((isStringLetters_eq_true hletters).2 _ hm) (by decide)
  exact ⟨.of_initial (List.prefix_append _ _) hfeed, ne_rowEnd_of_isQuote hq, rest, List.drop_left⟩

/-- The closing quotes of a text in triple quotes stand before the end of the row. -/
theorem spans_tripleRest (hq : q ≠ '\n') (ht : IsRow t) (h : tripleRest q t = some n) :
    Spans t n := by
  fun_induction tripleRest q t generalizing n with
  | case1 => contradiction
  | case2 => contradiction
  | case3 c cs hc ih =>
    obtain ⟨k, hk, rfl⟩ := Option.map_eq_some_iff.1 h
    exact .cons (by decide) (.cons hc (ih ht.tail.tail hk))
  | case4 c cs _ hp =>
    obtain rfl := Option.some.inj h
    exact .of_initial (List.isPrefixOf_iff_prefix.1 hp) (by simpa using Ne.symm hq)
  | case5 => contradiction
  | case6 c cs _ _ _ ih =>
    obtain ⟨k, hk, rfl⟩ := Option.map_eq_some_iff.1 h
    refine .cons ?_ (ih ht.tail hk)
    intro heq
    subst heq
    rw [ht.eq_nil] at hk
    contradiction

theorem spans_continuedRest (hq : q ≠ '\n') (ht : IsRow t) (h : continuedRest q t = some n) :
    Spans t n := by
  fun_induction continuedRest q t generalizing n with
  | case1 => contradiction
  | case2 => contradiction
  | case3 c cs hc ih =>
    obtain ⟨k, hk, rfl⟩ := Option.map_eq_some_iff.1 h
    exact .cons (by decide) (.cons hc (ih ht.tail.tail hk))
  | case4 cs =>
    obtain rfl := Option.some.inj h
    exact .cons hq (.zero cs)
  | case5 => contradiction
  | case6 c cs _ _ _ ih =>
    obtain ⟨k, hk, rfl⟩ := Option.map_eq_some_iff.1 h
    refine .cons ?_ (ih ht.tail hk)
    intro heq
    subst heq
    rw [ht.eq_nil] at hk
    contradiction

/-- What is known of the characters that a lexeme takes. Of a string that goes on beyond the row
nothing is, since the rest of the row belongs to it. -/
def Lexeme.Takes (t : Text) (n : Nat) : Lexeme → Prop
  | .escapedRowEnd | .rowEnd => 0 < n ∧ n ≤ t.length
  | .tripleOpen quote => quote ≠ '\n' ∧ 0 < n ∧ Spans t n
  | .quotedOpen quote => quote ≠ '\n'
  | _ => 0 < n ∧ Spans t n

theorem word?_eq_some_iff {l : Lexeme} : lexeme?.word? t = some (l, n) ↔
    l = .word ∧ n = (t.takeWhile isWord).length ∧ n ≠ 0 := by
  simp only [lexeme?.word?]
  split
  next hzero => simp +contextual [hzero]
  next hne =>
    rw [Option.some_inj, Prod.mk.injEq]
    grind

/-- A text that begins with neither a comment nor a row end. -/
structure IsPlain (t : Text) : Prop where
  ne_nil : t ≠ []
  start : ∀ v ∈ ["\\\n", "\\\r\n", "#", "\n", "\r\n"].map String.toList, ¬v <+: t

/-- The lexeme at the start of such a text: a string, a number, an operator or a word. -/
def plainLexeme? (t : Text) : Option (Lexeme × Nat) :=
  match stringStart? t with
  | some (n, q) =>
    if [q, q, q].isPrefixOf (t.drop n) then some (.tripleOpen q, n + 3)
    else
      match stringRest q (t.drop (n + 1)) with
      | some (.closed, m) => some (.quoted, n + 1 + m)
      | some (.escaped, m) => some (.quotedOpen q, n + 1 + m)
      | none => lexeme?.word? t
  | none =>
    if 0 < number t then some (.number, number t)
    else if 0 < operator t then some (.operator, operator t)
    else lexeme?.word? t

theorem lexeme?_of_isPlain (h : IsPlain t) : lexeme? t = plainLexeme? t := by
  have hstart {v cs : Text} (hv : v ∈ ["\\\n", "\\\r\n", "#", "\n", "\r\n"].map String.toList)
      (ht : t = v ++ cs) : False := h.start v hv ⟨cs, ht.symm⟩
  rw [lexeme?]
  · rfl
  · exact h.ne_nil
  · exact fun cs ht => @hstart ['\\', '\n'] cs (by decide) ht
  · exact fun cs ht => @hstart ['\\', '\r', '\n'] cs (by decide) ht
  · exact fun cs ht => @hstart ['#'] cs (by decide) ht
  · exact fun cs ht => @hstart ['\n'] cs (by decide) ht
  · exact fun cs ht => @hstart ['\r', '\n'] cs (by decide) ht

/-- How a text can begin. -/
inductive Begins : Text → Option (Lexeme × Nat) → Prop
  | nothing : Begins [] none
  | escaped (t : Text) : Begins ('\\' :: '\n' :: t) (some (.escapedRowEnd, 2))
  | escapedReturn (t : Text) : Begins ('\\' :: '\r' :: '\n' :: t) (some (.escapedRowEnd, 3))
  | comment (t : Text) : Begins ('#' :: t)
      (some (.comment, (t.takeWhile fun c => c ≠ '\r' && c ≠ '\n').length + 1))
  | feed (t : Text) : Begins ('\n' :: t) (some (.rowEnd, 1))
  | returnFeed (t : Text) : Begins ('\r' :: '\n' :: t) (some (.rowEnd, 2))
  | plain {t : Text} : IsPlain t → Begins t (plainLexeme? t)

theorem begins_lexeme? (t : Text) : Begins t (lexeme? t) := by
  by_cases hplain : IsPlain t
  · rw [lexeme?_of_isPlain hplain]
    exact .plain hplain
  · unfold lexeme?
    split
    · exact .nothing
    · exact .escaped _
    · exact .escapedReturn _
    · exact .comment _
    · exact .feed _
    · exact .returnFeed _
    next hnil hfeed hreturn hcomment hrow hrow' =>
      refine absurd ⟨hnil, ?_⟩ hplain
      rintro v hv ⟨cs, rfl⟩
      simp only [List.map_cons, List.map_nil, List.mem_cons, List.not_mem_nil, or_false] at hv
      rcases hv with rfl | rfl | rfl | rfl | rfl
      · exact hfeed cs rfl
      · exact hreturn cs rfl
      · exact hcomment cs rfl
      · exact hrow cs rfl
      · exact hrow' cs rfl

/-- What a string, a number, an operator or a word takes. -/
inductive PlainLexeme (t : Text) : Lexeme → Nat → Prop
  | solid {l : Lexeme} {n : Nat} : l = .number ∨ l = .operator ∨ l = .word → 0 < n → Solid t n →
      PlainLexeme t l n
  | triple {letters rest : Text} {q : Char} : t = letters ++ q :: rest →
      isStringLetters letters = true → isQuote q = true → [q, q, q] <+: q :: rest →
      PlainLexeme t (.tripleOpen q) (letters.length + 3)
  | quoted {letters rest : Text} {q : Char} {m : Nat} : t = letters ++ q :: rest →
      isStringLetters letters = true → isQuote q = true → stringRest q rest = some (.closed, m) →
      PlainLexeme t .quoted (letters.length + 1 + m)
  | quotedOpen {letters rest : Text} {q : Char} {m : Nat} : t = letters ++ q :: rest →
      isStringLetters letters = true → isQuote q = true → stringRest q rest = some (.escaped, m) →
      PlainLexeme t (.quotedOpen q) (letters.length + 1 + m)

theorem plainLexeme_of_eq_some {l : Lexeme} (h : plainLexeme? t = some (l, n)) :
    PlainLexeme t l n := by
  have hword (h : lexeme?.word? t = some (l, n)) : PlainLexeme t l n := by
    obtain ⟨rfl, rfl, hn⟩ := word?_eq_some_iff.1 h
    exact .solid (by simp) (Nat.pos_of_ne_zero hn) (solid_word t)
  unfold plainLexeme? at h
  split at h
  next k q hs =>
    obtain ⟨letters, rest, ht, rfl, hletters, hq⟩ := stringStart?_eq_some_iff.1 hs
    have hrest : t.drop (letters.length + 1) = rest := by
      rw [ht, ← List.drop_drop, List.drop_left]
      rfl
    rw [hrest] at h
    split at h
    next hp =>
      obtain ⟨rfl, rfl⟩ := Prod.mk.inj (Option.some.inj h)
      rw [ht, List.drop_left, List.isPrefixOf_iff_prefix] at hp
      exact .triple ht hletters hq hp
    next =>
      split at h
      next m hm =>
        obtain ⟨rfl, rfl⟩ := Prod.mk.inj (Option.some.inj h)
        exact .quoted ht hletters hq hm
      next m hm =>
        obtain ⟨rfl, rfl⟩ := Prod.mk.inj (Option.some.inj h)
        exact .quotedOpen ht hletters hq hm
      next => exact hword h
  next =>
    split at h
    next hn =>
      obtain ⟨rfl, rfl⟩ := Prod.mk.inj (Option.some.inj h)
      exact .solid (by simp) hn (solid_number t)
    next =>
      split at h
      next hn =>
        obtain ⟨rfl, rfl⟩ := Prod.mk.inj (Option.some.inj h)
        exact .solid (by simp) hn (solid_operator t)
      next => exact hword h

/-- The letters before a quote, and the quote. -/
theorem spans_stringStart {letters rest : Text} (h : isStringLetters letters = true)
    (hq : isQuote q = true) : Spans (letters ++ q :: rest) (letters.length + 1) := by
  have hfeed : '\n' ∉ letters := fun hm => absurd ((isStringLetters_eq_true h).2 _ hm) (by decide)
  refine (Spans.of_initial (List.prefix_append _ _) hfeed).add ?_
  rw [List.drop_left]
  exact .cons (ne_rowEnd_of_isQuote hq) (.zero rest)

theorem PlainLexeme.takes {l : Lexeme} (h : PlainLexeme t l n) : l.Takes t n := by
  cases h with
  | solid hl hn hs => rcases hl with rfl | rfl | rfl <;> exact ⟨hn, hs.spans⟩
  | @triple letters rest q ht hletters hq hp =>
    have hfeed := ne_rowEnd_of_isQuote hq
    refine ⟨hfeed, by omega, ?_⟩
    obtain ⟨u, hu⟩ := hp
    have ht : t = (letters ++ [q, q, q]) ++ u := by rw [ht, ← hu, List.append_assoc]
    have hmem : '\n' ∉ letters ++ [q, q, q] := by
      have : '\n' ∉ letters := fun hm =>
        absurd ((isStringLetters_eq_true hletters).2 _ hm) (by decide)
      simp [this, Ne.symm hfeed]
    have := Spans.of_initial ⟨u, ht.symm⟩ hmem
    rwa [List.length_append] at this
  | quoted ht hletters hq hm =>
    refine ⟨by omega, ?_⟩
    subst ht
    refine (spans_stringStart hletters hq).add ?_
    rw [← List.drop_drop, List.drop_left]
    exact spans_stringRest (ne_rowEnd_of_isQuote hq) hm
  | quotedOpen _ _ hq _ => exact ne_rowEnd_of_isQuote hq

theorem takes_lexeme? {l : Lexeme} (h : lexeme? t = some (l, n)) : l.Takes t n := by
  have hbegins := begins_lexeme? t
  rw [h] at hbegins
  generalize hr : some (l, n) = r at hbegins
  cases hbegins with
  | nothing => contradiction
  | plain =>  exact (plainLexeme_of_eq_some hr.symm).takes
  | comment cs =>
    obtain ⟨rfl, rfl⟩ := Prod.mk.inj (Option.some.inj hr)
    exact ⟨Nat.succ_pos _, .cons (by decide) (spans_takeWhile (by decide) cs)⟩
  | _ =>
    obtain ⟨rfl, rfl⟩ := Prod.mk.inj (Option.some.inj hr)
    exact ⟨by omega, by simp⟩

theorem wordKind_eq (t : Text) : wordKind t = .name ∨ wordKind t = .operator := by
  unfold wordKind
  split
  · exact .inr rfl
  · split
    · exact .inl rfl
    · exact .inr rfl

end VariableReport.Source
