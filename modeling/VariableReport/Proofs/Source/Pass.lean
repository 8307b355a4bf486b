import VariableReport.Proofs.Source.Cut
import VariableReport.Source.Reference
import Mathlib.Algebra.Ring.Int.Defs

/-!
# What stands within a logical line

One lexeme within a logical line is stated as a relation on the text that is left (`Passes`): a
gap, a comment, a row end that ends no logical line, or a token of code. A string that goes on
below its row is one lexeme too (`Closes`), so rows do not matter to what passes. Nothing is said
of positions and of open blocks, and of the open brackets only their number: what passes is the
same at another place of a text, with more open brackets (`Passes.raise`), and in a text that is
cut behind it (`Passes.cut`).
-/

namespace VariableReport.Source
open Text

/-- What is read of a token: its kind and its text. -/
def Token.shape (t : Token) : TokenKind × Text := (t.kind, t.text)

/-- What is read of the tokens of code. -/
def codes (ts : List Token) : List (TokenKind × Text) := (ts.filter isCode).map Token.shape

/-- What a token of code does to the number of open brackets. -/
def change (kind : TokenKind) (text : Text) : Int :=
  if kind = .operator then bracketChange text else 0

/-- Opened less closed brackets of a run of tokens. -/
def level (ts : List (TokenKind × Text)) : Int := (ts.map fun t => change t.1 t.2).sum

/-- The characters of a row up to the end of a string that is open in front of it. -/
def stringEnd? (triple : Bool) (quote : Char) (row : Text) : Option Nat :=
  if triple then tripleRest quote row else continuedRest quote row

/-- A string that does not end on a row goes on below it. -/
def goesBelow (triple : Bool) (row : Text) : Bool :=
  triple || endsWith row ['\\', '\n'] || endsWith row ['\\', '\r', '\n']

/-- A string that is open in front of a text ends behind `n` of its characters. -/
inductive Closes (triple : Bool) (quote : Char) : Text → Nat → Prop
  | here {t : Text} {n : Nat} : stringEnd? triple quote (firstRow t) = some n →
      Closes triple quote t n
  | beneath {t : Text} {n : Nat} : stringEnd? triple quote (firstRow t) = none →
      goesBelow triple (firstRow t) = true → Closes triple quote (below t) n →
      Closes triple quote t ((firstRow t).length + n)

/-- A lexeme of `n` characters stands at the start of a text, with no gap before it. -/
structure Starts (t : Text) (l : Lexeme) (n : Nat) : Prop where
  noGap : ∀ c ∈ t.head?, isGap c = false
  lexeme : lexeme? (firstRow t) = some (l, n)

/-- The kind of the token that a lexeme makes if all of it is the token. -/
def tokenKind? (t : Text) : Lexeme → Option TokenKind
  | .number => some .number
  | .operator => some .operator
  | .quoted => some .string
  | .word => some (wordKind t)
  | _ => none

/-- The next `n` characters of a text belong to the logical line whose brackets are open, and make
a token of code of the kind, if any. -/
inductive Passes (brackets : Int) : Text → Nat → Option TokenKind → Prop
  | gap {c : Char} {t : Text} : isGap c = true → Passes brackets (c :: t) 1 none
  | silent {t : Text} {l : Lexeme} {n : Nat} : Starts t l n →
      (l = .comment ∨ l = .escapedRowEnd ∨ l = .rowEnd ∧ 0 < brackets) → Passes brackets t n none
  | token {t : Text} {l : Lexeme} {n : Nat} {kind : TokenKind} : Starts t l n →
      tokenKind? t l = some kind → Passes brackets t n (some kind)
  | triple {t : Text} {q : Char} {n m : Nat} : Starts t (.tripleOpen q) n →
      Closes true q (t.drop n) m → Passes brackets t (n + m) (some .string)
  | quoted {t : Text} {q : Char} {n m : Nat} : Starts t (.quotedOpen q) n →
      Closes false q (below t) m → Passes brackets t ((firstRow t).length + m) (some .string)

variable {t u : Text} {q : Char} {n m : Nat} {triple : Bool} {b d : Int} {kind : TokenKind}
  {kind? : Option TokenKind} {l : Lexeme}

theorem codes_append (ts us : List Token) : codes (ts ++ us) = codes ts ++ codes us := by
  simp [codes]

theorem level_append (ts us : List (TokenKind × Text)) : level (ts ++ us) = level ts + level us := by
  simp [level]

theorem level_cons (s : TokenKind × Text) (ts : List (TokenKind × Text)) :
    level (s :: ts) = change s.1 s.2 + level ts := by
  simp [level]

theorem codes_eq_nil {ts : List Token} (h : ∀ tok ∈ ts, isCode tok = false) : codes ts = [] := by
  rw [codes, List.filter_eq_nil_iff.2 fun tok htok => by simp [h tok htok], List.map_nil]

theorem codes_cons {tok : Token} (h : isCode tok = true) (ts : List Token) :
    codes (tok :: ts) = tok.shape :: codes ts := by
  rw [codes, List.filter_cons_of_pos h, List.map_cons]
  rfl

/-! ### The ends of lexemes -/

theorem Solid.isTrimmed (h : Solid t n) : IsTrimmed (t.take n) :=
  ⟨fun c hc => h.solid c (List.mem_of_mem_head? hc),
    fun c hc => h.solid c (List.mem_of_mem_getLast? hc)⟩

theorem getLast?_stringRest (h : stringRest q t = some (.closed, n)) :
    (t.take n).getLast? = some q := by
  fun_induction stringRest q t generalizing n with
  | case1 => contradiction
  | case2 => simp at h
  | case3 => simp at h
  | case4 d cs hn _ ih =>
    obtain ⟨⟨e, k⟩, hk, he⟩ := Option.map_eq_some_iff.1 h
    obtain ⟨rfl, rfl⟩ := Prod.mk.inj he
    simp [List.getLast?_cons, ih hk]
  | case5 cs =>
    obtain ⟨-, rfl⟩ := Prod.mk.inj (Option.some.inj h)
    rfl
  | case6 => contradiction
  | case7 c cs _ _ _ _ hc ih =>
    obtain ⟨⟨e, k⟩, hk, he⟩ := Option.map_eq_some_iff.1 h
    obtain ⟨rfl, rfl⟩ := Prod.mk.inj he
    simp [List.getLast?_cons, ih hk]

theorem getLast?_stringEnd? (h : stringEnd? triple q t = some n) :
    (t.take n).getLast? = some q := by
  unfold stringEnd? at h
  split at h
  · exact getLast?_tripleRest h
  · exact getLast?_continuedRest h

theorem take_firstRow (h : n ≤ (firstRow t).length) : (firstRow t).take n = t.take n := by
  have htake : (firstRow t ++ below t).take n = (firstRow t).take n :=
    List.take_append_of_le_length h
  rwa [firstRow_append_below, eq_comm] at htake

theorem take_length_firstRow (t : Text) : t.take (firstRow t).length = firstRow t := by
  rw [← take_firstRow (Nat.le_refl _), List.take_length]

theorem length_firstRow_le (t : Text) : (firstRow t).length ≤ t.length := by
  have := congrArg List.length (firstRow_append_below t)
  rw [List.length_append] at this
  omega

theorem take_below (t : Text) (n : Nat) :
    t.take ((firstRow t).length + n) = firstRow t ++ (below t).take n := by
  have happend : t.take ((firstRow t).length + n) =
      (firstRow t ++ below t).take ((firstRow t).length + n) := by rw [firstRow_append_below]
  rw [happend, List.take_length_add_append]

theorem drop_below (t : Text) (n : Nat) : t.drop ((firstRow t).length + n) = (below t).drop n := by
  rw [below, List.drop_drop]

theorem spans_stringEnd? (hq : q ≠ '\n') (h : stringEnd? triple q (firstRow t) = some n) :
    Spans (firstRow t) n := by
  unfold stringEnd? at h
  split at h
  · exact spans_tripleRest hq (isRow_firstRow t) h
  · exact spans_continuedRest hq (isRow_firstRow t) h

theorem Closes.getLast? (hq : q ≠ '\n') (h : Closes triple q t n) :
    (t.take n).getLast? = some q := by
  induction h with
  | here hend => rw [← take_firstRow (spans_stringEnd? hq hend).le, getLast?_stringEnd? hend]
  | beneath _ _ _ ih => rw [take_below, List.getLast?_append, ih, Option.some_or]

theorem Closes.le (hq : q ≠ '\n') (h : Closes triple q t n) : n ≤ t.length := by
  induction h with
  | @here t n hend => exact Nat.le_trans (spans_stringEnd? hq hend).le (length_firstRow_le t)
  | @beneath t n _ _ _ ih =>
    have := congrArg List.length (firstRow_append_below t)
    rw [List.length_append] at this
    omega

theorem Closes.pos (hq : q ≠ '\n') (h : Closes triple q t n) : 0 < n :=
  pos_of_getLast?_take (h.getLast? hq)

theorem PlainLexeme.head (h : PlainLexeme t l n) : ∀ c ∈ t.head?, isBlank c = false := by
  have hstring {letters rest : Text} {q : Char} (hletters : isStringLetters letters = true)
      (hq : isQuote q = true) : ∀ c ∈ (letters ++ q :: rest).head?, isBlank c = false := by
    intro c hc
    cases letters with
    | nil =>
      obtain rfl : q = c := by simpa using hc
      exact isBlank_eq_false (by decide) hq
    | cons a letters =>
      obtain rfl : a = c := by simpa using hc
      have hblank := all_of_isStringLetters (p := fun c => !isBlank c) hletters (by decide) a
        (by simp)
      simpa using hblank
  cases h with
  | solid _ hn hs =>
    intro c hc
    obtain ⟨t, rfl⟩ := List.head?_eq_some_iff.1 hc
    obtain ⟨k, rfl⟩ := Nat.exists_eq_succ_of_ne_zero (Nat.ne_of_gt hn)
    exact hs.solid c (by simp)
  | triple ht hletters hq => exact ht ▸ hstring hletters hq
  | quoted ht hletters hq => exact ht ▸ hstring hletters hq
  | quotedOpen ht hletters hq => exact ht ▸ hstring hletters hq

/-- Lexemes that are tokens of code. -/
theorem Starts.plain (h : Starts t l n) (hl : l ≠ .comment ∧ l ≠ .rowEnd ∧ l ≠ .escapedRowEnd) :
    IsPlain (firstRow t) ∧ PlainLexeme (firstRow t) l n := by
  have hlexeme := h.lexeme
  generalize firstRow t = r at hlexeme
  have hbegins := begins_lexeme? r
  rw [hlexeme] at hbegins
  generalize hr : some (l, n) = r at hbegins
  cases hbegins with
  | nothing => contradiction
  | plain hplain => exact ⟨hplain, plainLexeme_of_eq_some hr.symm⟩
  | _ =>
    obtain ⟨rfl, rfl⟩ := Prod.mk.inj (Option.some.inj hr)
    simp at hl

theorem Starts.takes (h : Starts t l n) : l.Takes (firstRow t) n := takes_lexeme? h.lexeme

theorem ne_of_tokenKind? (h : tokenKind? t l = some kind) :
    l ≠ .comment ∧ l ≠ .rowEnd ∧ l ≠ .escapedRowEnd := by
  refine ⟨?_, ?_, ?_⟩ <;> rintro rfl <;> contradiction

/-- Every lexeme but a string that goes on takes some characters and no more than there are. -/
theorem Lexeme.Takes.bounds (h : l.Takes t n) (hl : ∀ q, l ≠ .quotedOpen q) :
    0 < n ∧ n ≤ t.length := by
  cases l with
  | escapedRowEnd => exact h
  | rowEnd => exact h
  | tripleOpen q => exact ⟨h.2.1, h.2.2.le⟩
  | quotedOpen q => exact absurd rfl (hl q)
  | _ => exact ⟨h.1, h.2.le⟩

theorem Starts.bounds (h : Starts t l n) (hl : ∀ q, l ≠ .quotedOpen q) : 0 < n ∧ n ≤ t.length := by
  obtain ⟨hpos, hle⟩ := h.takes.bounds hl
  exact ⟨hpos, Nat.le_trans hle (length_firstRow_le t)⟩

theorem ne_quotedOpen (h : l = .comment ∨ l = .escapedRowEnd ∨ l = .rowEnd ∧ 0 < b) (q : Char) :
    l ≠ .quotedOpen q := by
  rcases h with rfl | rfl | ⟨rfl, -⟩ <;> simp

theorem ne_quotedOpen_of_tokenKind? (h : tokenKind? t l = some kind) (q : Char) :
    l ≠ .quotedOpen q := by
  rintro rfl
  contradiction

/-- A lexeme that is a token as a whole lies within its row. -/
theorem Lexeme.Takes.of_tokenKind? (h : l.Takes t n) (hk : tokenKind? u l = some kind) :
    0 < n ∧ Spans t n := by
  cases l with
  | number | operator | quoted | word => exact h
  | _ => contradiction

theorem Starts.spans (h : Starts t l n) (hk : tokenKind? t l = some kind) : Spans (firstRow t) n :=
  (h.takes.of_tokenKind? hk).2

theorem kind_of_tokenKind? (h : tokenKind? t l = some kind) :
    kind = .name ∨ kind = .number ∨ kind = .string ∨ kind = .operator := by
  cases l with
  | number => exact .inr (.inl (Option.some.inj h).symm)
  | operator => exact .inr (.inr (.inr (Option.some.inj h).symm))
  | quoted => exact .inr (.inr (.inl (Option.some.inj h).symm))
  | word =>
    obtain rfl := Option.some.inj h
    exact (wordKind_eq t).imp_right fun h => .inr (.inr h)
  | _ => contradiction

/-- The quote of a string is a quote. -/
theorem isQuote_of_starts (h : Starts t l n) (hl : l = .tripleOpen q ∨ l = .quotedOpen q) :
    isQuote q = true := by
  have hplain := (h.plain (by rcases hl with rfl | rfl <;> simp)).2
  rcases hl with rfl | rfl
  · cases hplain with
    | solid hl => simp at hl
    | triple _ _ hq => exact hq
  · cases hplain with
    | solid hl => simp at hl
    | quotedOpen _ _ hq => exact hq

theorem ne_backslash_of_isQuote (h : isQuote q = true) : q ≠ '\\' := by
  rintro rfl
  contradiction

theorem isBlank_of_isQuote (h : isQuote q = true) : isBlank q = false :=
  isBlank_eq_false (by decide) h

/-! ### Texts that are cut -/

/-- The first row of a text that is cut behind it. -/
theorem firstRow_cut (h : '\n' ∈ t) : firstRow (t ++ u) = firstRow t ∧ below (t ++ u) = below t ++ u := by
  obtain ⟨r, v, rfl, hr⟩ := List.eq_append_cons_of_mem h
  rw [List.append_assoc, List.cons_append, firstRow_rowEnd hr, firstRow_rowEnd hr, below_rowEnd hr,
    below_rowEnd hr]
  exact ⟨rfl, rfl⟩

theorem length_firstRow_cut (h : '\n' ∉ t) : t.length ≤ (firstRow (t ++ u)).length := by
  rw [firstRow_append_of_not_mem h, List.length_append]
  exact Nat.le_add_right _ _

theorem stringEnd?_cut (hq : q ≠ '\\') (h : stringEnd? triple q (t ++ u) = some n)
    (hn : n ≤ t.length) : stringEnd? triple q t = some n := by
  unfold stringEnd? at h ⊢
  split at h
  next ht =>
    rw [if_pos ht]
    exact tripleRest_cut hq h hn
  next ht =>
    rw [if_neg ht]
    exact continuedRest_cut hq h hn

theorem Closes.cut (hq : isQuote q = true) (h : Closes triple q (t ++ u) n) (hn : n ≤ t.length) :
    Closes triple q t n := by
  generalize hw : t ++ u = w at h
  induction h generalizing t with
  | here hend =>
    subst hw
    by_cases hm : '\n' ∈ t
    · rw [(firstRow_cut hm).1] at hend
      exact .here hend
    · rw [firstRow_append_of_not_mem hm] at hend
      refine .here ?_
      rw [firstRow_eq_self hm]
      exact stringEnd?_cut (ne_backslash_of_isQuote hq) hend hn
  | beneath hend hgoes hc ih =>
    subst hw
    have hpos := hc.pos (ne_rowEnd_of_isQuote hq)
    have hm : '\n' ∈ t := by
      by_contra hm
      have := length_firstRow_cut (u := u) hm
      omega
    obtain ⟨hfirst, hbelow⟩ := firstRow_cut (u := u) hm
    have hlen := congrArg List.length (firstRow_append_below t)
    rw [List.length_append] at hlen
    rw [hfirst] at hend hgoes hn ⊢
    exact .beneath hend hgoes (ih (by omega) hbelow.symm)

theorem Starts.cut (h : Starts (t ++ u) l n) (hn : n ≤ t.length) (hne : t ≠ []) : Starts t l n := by
  obtain ⟨c, t, rfl⟩ := List.exists_cons_of_ne_nil hne
  refine ⟨h.noGap, ?_⟩
  have hlexeme := h.lexeme
  by_cases hm : '\n' ∈ c :: t
  · rwa [(firstRow_cut hm).1] at hlexeme
  · rw [firstRow_append_of_not_mem hm] at hlexeme
    rw [firstRow_eq_self hm]
    exact lexeme?_cut hlexeme hn (by simp)

theorem tokenKind?_append (hne : t ≠ []) : tokenKind? (t ++ u) l = tokenKind? t l := by
  obtain ⟨c, t, rfl⟩ := List.exists_cons_of_ne_nil hne
  cases l <;> rfl

namespace Passes

/-- A token of code begins with no blank and with no comment mark. -/
theorem head (h : Passes b t n (some kind)) : ∀ c ∈ t.head?, isBlank c = false ∧ c ≠ '#' := by
  have hstarts {t : Text} {l : Lexeme} {n : Nat} (hs : Starts t l n)
      (hl : l ≠ .comment ∧ l ≠ .rowEnd ∧ l ≠ .escapedRowEnd) :
      ∀ c ∈ t.head?, isBlank c = false ∧ c ≠ '#' := by
    obtain ⟨hplain, hlexeme⟩ := hs.plain hl
    rw [← head?_firstRow]
    intro c hc
    refine ⟨hlexeme.head c hc, ?_⟩
    rintro rfl
    obtain ⟨r, hr⟩ := List.head?_eq_some_iff.1 hc
    exact hplain.start ['#'] (by decide) ⟨r, hr.symm⟩
  cases h with
  | token hs hk => exact hstarts hs (ne_of_tokenKind? hk)
  | triple hs => exact hstarts hs (by simp)
  | quoted hs => exact hstarts hs (by simp)

theorem bounds (h : Passes b t n kind?) : 0 < n ∧ n ≤ t.length := by
  cases h with
  | gap => simp
  | silent hs hl => exact hs.bounds (ne_quotedOpen hl)
  | token hs hk => exact hs.bounds (ne_quotedOpen_of_tokenKind? hk)
  | @triple _ q n m hs hc =>
    have hq := ne_rowEnd_of_isQuote (isQuote_of_starts hs (.inl rfl))
    have hle := hc.le hq
    have := (hs.bounds (by simp)).2
    have := hc.pos hq
    rw [List.length_drop] at hle
    omega
  | @quoted _ q n m hs hc =>
    have hq := ne_rowEnd_of_isQuote (isQuote_of_starts hs (.inr rfl))
    have hle := hc.le hq
    have := hc.pos hq
    have := congrArg List.length (firstRow_append_below t)
    rw [List.length_append] at this
    omega

/-- A token of code ends with no blank. -/
theorem last (h : Passes b t n (some kind)) : ∀ c ∈ (t.take n).getLast?, isBlank c = false := by
  have hquote {q : Char} (hq : isQuote q = true) (hlast : (t.take n).getLast? = some q) :
      ∀ c ∈ (t.take n).getLast?, isBlank c = false := by
    rw [hlast]
    exact fun c hc => Option.some.inj hc ▸ isBlank_of_isQuote hq
  cases h with
  | @token _ l n _ hs hk =>
    have htake := take_firstRow (hs.takes.bounds (ne_quotedOpen_of_tokenKind? hk)).2
    have hplain := (hs.plain (ne_of_tokenKind? hk)).2
    rw [← htake] at hquote ⊢
    cases hplain with
    | solid _ _ hsolid => exact hsolid.isTrimmed.2
    | triple => contradiction
    | @quoted letters rest q m hr hletters hq hm =>
      refine hquote hq ?_
      rw [hr, Nat.add_assoc, List.take_length_add_append, Nat.add_comm, List.take_succ_cons,
        List.getLast?_append, List.getLast?_cons, getLast?_stringRest hm]
      rfl
    | quotedOpen => contradiction
  | triple hs hc =>
    have hq := isQuote_of_starts hs (.inl rfl)
    refine hquote hq ?_
    rw [List.take_add, List.getLast?_append, hc.getLast? (ne_rowEnd_of_isQuote hq), Option.some_or]
  | quoted hs hc =>
    have hq := isQuote_of_starts hs (.inr rfl)
    refine hquote hq ?_
    rw [take_below, List.getLast?_append, hc.getLast? (ne_rowEnd_of_isQuote hq), Option.some_or]

theorem isTrimmed (h : Passes b t n (some kind)) : IsTrimmed (t.take n) := by
  refine ⟨fun c hc => ?_, h.last⟩
  rw [List.head?_take, if_neg (Nat.ne_of_gt h.bounds.1)] at hc
  exact (h.head c hc).1

theorem kind_eq (h : Passes b t n (some kind)) :
    kind = .name ∨ kind = .number ∨ kind = .string ∨ kind = .operator := by
  cases h with
  | token _ hk => exact kind_of_tokenKind? hk
  | triple => simp
  | quoted => simp

/-- What passes is the same in a text that is cut behind it. -/
theorem cut (h : Passes b (t ++ u) n kind?) (hn : n ≤ t.length) : Passes b t n kind? := by
  have hne : t ≠ [] := List.ne_nil_of_length_pos (Nat.lt_of_lt_of_le h.bounds.1 hn)
  generalize hw : t ++ u = w at h
  cases h with
  | gap hc =>
    obtain ⟨c, t, rfl⟩ := List.exists_cons_of_ne_nil hne
    obtain ⟨rfl, -⟩ := List.cons.inj hw
    exact .gap hc
  | silent hs hl =>
    subst hw
    exact .silent (hs.cut hn hne) hl
  | token hs hk =>
    subst hw
    rw [tokenKind?_append hne] at hk
    exact .token (hs.cut hn hne) hk
  | triple hs hc =>
    subst hw
    rw [List.drop_append_of_le_length (by omega)] at hc
    exact .triple (hs.cut (by omega) hne)
      (hc.cut (isQuote_of_starts hs (.inl rfl)) (by rw [List.length_drop]; omega))
  | quoted hs hc =>
    subst hw
    have hq := isQuote_of_starts hs (.inr rfl)
    have hpos := hc.pos (ne_rowEnd_of_isQuote hq)
    have hm : '\n' ∈ t := by
      by_contra hm
      have := length_firstRow_cut (u := u) hm
      omega
    obtain ⟨hfirst, hbelow⟩ := firstRow_cut (u := u) hm
    have hlen := congrArg List.length (firstRow_append_below t)
    rw [List.length_append] at hlen
    rw [hbelow] at hc
    rw [hfirst] at hn ⊢
    have hs' : Starts t (.quotedOpen _) _ :=
      ⟨by rw [← head?_firstRow, ← hfirst, head?_firstRow]; exact hs.noGap, hfirst ▸ hs.lexeme⟩
    exact .quoted hs' (hc.cut hq (by omega))

/-- What passes is the same with more open brackets. -/
theorem raise (h : Passes b t n kind?) (hd : 0 ≤ d) : Passes (b + d) t n kind? := by
  cases h with
  | gap hc => exact .gap hc
  | silent hs hl => exact .silent hs (hl.imp_right (Or.imp_right (And.imp_right (by omega))))
  | token hs hk => exact .token hs hk
  | triple hs hc => exact .triple hs hc
  | quoted hs hc => exact .quoted hs hc

end Passes

end VariableReport.Source
