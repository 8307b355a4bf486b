import VariableReport.Source.Reference
import Mathlib.Logic.Basic

/-!
# Occurrences

An occurrence is a token of code with its two neighbours. Which occurrences are references
is stated by the three tokens alone.
-/

namespace VariableReport.Source

/-- A token of code between its neighbours. -/
structure Occurrence where
  before : Option Token
  token : Token
  after : Option Token

/-- The occurrences of a list of tokens of code, after the token `before`. -/
def occurrences : Option Token → List Token → List Occurrence
  | _, [] => []
  | before, token :: tokens => ⟨before, token, tokens.head?⟩ :: occurrences (some token) tokens

/-- A name that follows no point and that is not, between an opening bracket or a comma and an
equal sign, the name of an argument. -/
structure Occurrence.IsReference (o : Occurrence) : Prop where
  isName : o.token.kind = .name
  noAttribute : ∀ b ∈ o.before, ¬(b.kind = .operator ∧ b.text = ['.'])
  noArgument : ∀ b ∈ o.before, b.text = ['('] ∨ b.text = [','] →
    ∀ a ∈ o.after, ¬(a.kind = .operator ∧ a.text = ['='])

/-- A text mentions a name: it has tokens, and the name is the text of a reference. -/
def Mentions (t name : Text) : Prop :=
  ∃ ts, tokens? t = some ts ∧
    ∃ o ∈ occurrences none (ts.filter isCode), o.IsReference ∧ o.token.text = name

variable {t : Text} {before : Option Token} {tokens : List Token}

theorem isReference_iff {o : Occurrence} :
    o.IsReference ↔ o.token.kind = .name ∧ refers o.before o.after = true := by
  obtain ⟨before, token, after⟩ := o
  constructor
  · intro ⟨hname, hattr, harg⟩
    refine ⟨hname, ?_⟩
    cases before with
    | none => cases after <;> simp [refers]
    | some b =>
      have hpoint := hattr b rfl
      have hcall := harg b rfl
      cases after with
      | none => simpa [refers, Token.isOperator, imp_iff_not_or] using hpoint
      | some a =>
        simp only [refers, Token.isOperator, Option.map_some, Option.getD_some, Bool.and_eq_true,
          Bool.not_eq_true', Bool.and_eq_false_iff, Bool.or_eq_false_iff, decide_eq_false_iff_not]
        refine ⟨not_and_or.1 hpoint, ?_⟩
        by_cases hb : b.text = ['('] ∨ b.text = [',']
        · exact .inl (not_and_or.1 (hcall hb a rfl))
        · exact .inr (not_or.1 hb)
  · intro ⟨hname, href⟩
    refine ⟨hname, ?_, ?_⟩
    · rintro b rfl hb
      simp [refers, Token.isOperator, hb] at href
    · rintro b rfl hb a rfl ha
      rcases hb with hb | hb <;> simp [refers, Token.isOperator, ha, hb] at href

/-- The references are the occurrences that refer, in order. -/
theorem referencesIn_cons (token : Token) :
    referencesIn t before (token :: tokens) = referencesIn t (some token) tokens ∧
        ¬(⟨before, token, tokens.head?⟩ : Occurrence).IsReference ∨
      referencesIn t before (token :: tokens) =
          ⟨token.text, offset t token.start, offset t token.stop⟩ ::
            referencesIn t (some token) tokens ∧
        (⟨before, token, tokens.head?⟩ : Occurrence).IsReference := by
  rw [isReference_iff]
  by_cases h : token.kind = .name ∧ refers before tokens.head? = true
  · exact .inr ⟨by simp [referencesIn, h.1, h.2], h⟩
  · refine .inl ⟨?_, h⟩
    have hn : (token.kind = .name && refers before tokens.head?) = false := by
      simpa using h
    simp only [referencesIn]
    rw [hn]
    rfl

theorem mem_names_referencesIn {name : Text} :
    (∃ r ∈ referencesIn t before tokens, r.name = name) ↔
      ∃ o ∈ occurrences before tokens, o.IsReference ∧ o.token.text = name := by
  induction tokens generalizing before with
  | nil => simp [referencesIn, occurrences]
  | cons token tokens ih =>
    rcases @referencesIn_cons t before tokens token with
      ⟨h, hno⟩ | ⟨h, hyes⟩
    · rw [h, ih]
      simp [occurrences, hno]
    · rw [h]
      simp [occurrences, hyes, ← ih]

/-- What a text mentions are the names of its references. -/
theorem mentions_iff {name : Text} : Mentions t name ↔
    ∃ refs, references? t = some refs ∧ ∃ r ∈ refs, r.name = name := by
  unfold Mentions references?
  cases tokens? t with
  | none => simp
  | some ts => simp [mem_names_referencesIn]

end VariableReport.Source
