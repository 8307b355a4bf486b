import VariableReport.Proofs.Literal.Quoted
import Mathlib.Data.Bool.AllAny

/-!
# Tokens at the start of a text

What a literal may be followed by (`Delimited`) decides where its last token ends. A constant, a
whole number and a quoted text in front of it are each one token, and the tokens of the
text are that token and the tokens of what follows (`Lexes.token`). The number on which the
tokens are counted out plays no part: `Lexes` holds for every one that is large enough.
-/

namespace VariableReport.Literal
open Text

variable {p : Place} {c : Char} {s t rest : Text} {k : Token} {ks : List Token}

/-- A text that ends here, or goes on with a comma or a closing bracket. -/
inductive Delimited : Text → Prop
  | nil : Delimited []
  | comma (t : Text) : Delimited (',' :: t)
  | bracket (t : Text) : Delimited (']' :: t)
  | paren (t : Text) : Delimited (')' :: t)

theorem Delimited.takeWhile_append {f : Char → Bool} (hrest : Delimited rest) (hs : ∀ c ∈ s, f c = true)
    (hf : f ',' = false ∧ f ']' = false ∧ f ')' = false) :
    (s ++ rest).takeWhile f = s ∧ (s ++ rest).dropWhile f = rest := by
  rw [List.takeWhile_append_of_pos hs, List.dropWhile_append_of_pos hs]
  cases hrest with
  | nil => simp
  | comma t => simp [hf.1]
  | bracket t => simp [hf.2.1]
  | paren t => simp [hf.2.2]

section
variable [Host]

/-- The text has these tokens from a place on. -/
def Lexes (p : Place) (t : Text) (ks : List Token) : Prop :=
  ∀ fuel, t.length < fuel → tokensFrom fuel p t = some ks

theorem lexes_nil (n : Nat) : Lexes ⟨n, none⟩ [] [.lineEnd] := by
  intro fuel hfuel
  cases fuel with
  | zero => omega
  | succ fuel => rfl

/-- A blank in the middle of a line stands between tokens. -/
theorem Lexes.blank (h : Lexes ⟨p.depth, none⟩ t ks) : Lexes ⟨p.depth, none⟩ (' ' :: t) ks := by
  intro fuel hfuel
  cases fuel with
  | zero => omega
  | succ fuel => exact h fuel (by simpa using hfuel)

/-- The characters that no token starts with. -/
def separators : Text := [' ', '\t', '\x0c', '#', '\n', '\\']

theorem Lexes.token {place : Place} (hc : c ∉ separators) (hp : p.indent.getD 0 = 0)
    (hk : token? (c :: s) = some (k, rest)) (hlen : rest.length ≤ s.length)
    (hplace : p.after? k = some place) (h : Lexes place rest ks) :
    Lexes p (c :: s) (k :: ks) := by
  intro fuel hfuel
  cases fuel with
  | zero => omega
  | succ fuel =>
    have hrest := h fuel (by rw [List.length_cons] at hfuel; omega)
    simp only [separators, List.mem_cons, List.not_mem_nil, or_false, not_or] at hc
    obtain ⟨h1, h2, h3, h4, h5, h6⟩ := hc
    simp [tokensFrom, h1, h2, h3, h4, h5, h6, hp, hk, hplace, hrest]

/-- A token that is no mark leaves the brackets as they are. -/
theorem Lexes.piece (hs : ∃ d u, s = d :: u ∧ d ∉ separators) (hp : p.indent.getD 0 = 0)
    (hk : token? (s ++ rest) = some (k, rest)) (hmark : ∀ c, k ≠ .mark c)
    (h : Lexes ⟨p.depth, none⟩ rest ks) : Lexes p (s ++ rest) (k :: ks) := by
  obtain ⟨d, u, rfl, hd⟩ := hs
  have hplace : p.after? k = some ⟨p.depth, none⟩ := by
    cases k with
    | sign s =>
      cases s with
      | mark c => exact absurd rfl (hmark c)
      | pair _ _ => rfl
      | word _ => rfl
    | value _ => rfl
    | formatted _ => rfl
    | name _ => rfl
    | lineEnd => rfl
  exact Lexes.token hd hp hk (by simp) hplace h

/-- The marks of lists, tuples and negative numbers. -/
def valueMarks : Text := ['[', ']', '(', ')', ',', '-']

theorem token?_mark (h : c ∈ valueMarks) (t : Text) : token? (c :: t) = some (.mark c, t) := by
  simp only [valueMarks, List.mem_cons, List.not_mem_nil, or_false] at h
  rcases h with rfl | rfl | rfl | rfl | rfl | rfl <;> cases t <;> rfl

theorem Lexes.mark {place : Place} (hc : c ∈ valueMarks) (hp : p.indent.getD 0 = 0)
    (hplace : p.after? (.mark c) = some place) (h : Lexes place t ks) :
    Lexes p (c :: t) (.mark c :: ks) := by
  have hstart : ∀ c ∈ valueMarks, c ∉ separators := List.all_iff_forall_prop.1 (by decide)
  exact .token (hstart c hc) hp (token?_mark hc t) (Nat.le_refl _) hplace h

theorem Lexes.opening (hc : c = '[' ∨ c = '(') (hp : p.indent.getD 0 = 0) (hd : p.depth < maxDepth)
    (h : Lexes ⟨p.depth + 1, none⟩ t ks) : Lexes p (c :: t) (.mark c :: ks) := by
  cases hc with
  | inl hc =>
    subst hc
    exact .mark (by decide) hp (if_pos hd) h
  | inr hc =>
    subst hc
    exact .mark (by decide) hp (if_pos hd) h

theorem Lexes.closing (hc : c = ']' ∨ c = ')') (h : Lexes ⟨p.depth, none⟩ t ks) :
    Lexes ⟨p.depth + 1, none⟩ (c :: t) (.mark c :: ks) := by
  cases hc with
  | inl hc =>
    subst hc
    exact .mark (by decide) rfl rfl h
  | inr hc =>
    subst hc
    exact .mark (by decide) rfl rfl h

theorem Lexes.comma (h : Lexes ⟨p.depth, none⟩ t ks) :
    Lexes ⟨p.depth, none⟩ (',' :: t) (.mark ',' :: ks) := .mark (by decide) rfl rfl h

theorem Lexes.minus (hp : p.indent.getD 0 = 0) (h : Lexes ⟨p.depth, none⟩ t ks) :
    Lexes p ('-' :: t) (.mark '-' :: ks) := .mark (by decide) hp rfl h

/-- The constants that have a name. -/
def constants : List (Text × Value) :=
  [("None".toList, .none), ("True".toList, .bool true), ("False".toList, .bool false)]

theorem token?_constant {v : Value} (hs : (s, v) ∈ constants) (hrest : Delimited rest) :
    token? (s ++ rest) = some (.value v, rest) := by
  have hword : ∀ x ∈ constants, x.1.all isNameChar = true := by decide
  have hsplit := hrest.takeWhile_append (List.all_eq_true.1 (hword _ hs)) (by decide)
  have hquote : (rest.head?.map isQuote).getD false = false := by
    cases hrest <;> rfl
  have hname : ∀ d u, s = d :: u → isAsciiDigit d = false → d ≠ '.' → isQuote d = false →
      isNameChar d = true → token? (s ++ rest) = (wordToken? s).map fun k => (k, rest) := by
    intro d u hd h1 h2 h3 h4
    obtain ⟨htake, hdrop⟩ := hsplit
    subst hd
    rw [List.cons_append] at htake hdrop ⊢
    have hdots : ['.', '.', '.'].isPrefixOf (d :: (u ++ rest)) = false := by
      simp [List.isPrefixOf, Ne.symm h2]
    unfold token?
    simp only [h1, h2, h3, h4, hdots, htake, hdrop, hquote]
    simp
  simp only [constants, List.mem_cons, Prod.mk.injEq, List.not_mem_nil, or_false] at hs
  rcases hs with ⟨rfl, rfl⟩ | ⟨rfl, rfl⟩ | ⟨rfl, rfl⟩
  · exact hname 'N' _ rfl (by decide) (by decide) (by decide) (by decide)
  · exact hname 'T' _ rfl (by decide) (by decide) (by decide) (by decide)
  · exact hname 'F' _ rfl (by decide) (by decide) (by decide) (by decide)

theorem token?_text (t : Text) (hrest : Delimited rest) :
    token? (Quoted.text t ++ rest) = some (.value (.str t), rest) := by
  have hq : ∀ c, rest.head? = some c → ¬ IsQuoteMark c := by
    intro c hc
    unfold IsQuoteMark
    cases hrest with
    | nil => simp at hc
    | comma t =>
      cases hc
      decide
    | bracket t =>
      cases hc
      decide
    | paren t =>
      cases hc
      decide
  have hquoted := quoted?_text t hq
  obtain ⟨d, u, hd, hmark⟩ : ∃ d u, Quoted.text t = d :: u ∧ IsQuoteMark d :=
    ⟨_, _, rfl, isQuoteMark_quoteFor _ _⟩
  rw [hd, List.cons_append] at hquoted ⊢
  unfold token?
  cases hmark with
  | inl hmark =>
    subst hmark
    simpa [Quoted.singleQuote, isAsciiDigit, isQuote, List.isPrefixOf] using hquoted
  | inr hmark =>
    subst hmark
    simpa [Quoted.doubleQuote, isAsciiDigit, isQuote, List.isPrefixOf] using hquoted

end

end VariableReport.Literal
