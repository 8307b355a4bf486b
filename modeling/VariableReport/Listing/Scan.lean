import VariableReport.Text.Lines

/-!
# Splitting at the top level

A separator counts only outside quotes and brackets. The scan knows the quote that is
open, how many brackets are open, and whether a backslash inside quotes protects the
next character. Brackets of all kinds count alike, and a bracket that was never opened
closes nothing. No character is lost (`join_splitTopLevel`).
-/

namespace VariableReport.Listing

def isQuote (c : Char) : Bool := c = '\x27' || c = '\x22'

def isOpening (c : Char) : Bool := c = '(' || c = '[' || c = '\x7b'

def isClosing (c : Char) : Bool := c = ')' || c = ']' || c = '\x7d'

/-- What is open between two characters. -/
structure Scan where
  depth : Nat := 0
  quote : Option Char := none
  escaped : Bool := false
  deriving DecidableEq, Repr

namespace Scan

def step (s : Scan) (c : Char) : Scan :=
  if s.escaped then { s with escaped := false }
  else
    match s.quote with
    | some q =>
      if c = '\\' then { s with escaped := true }
      else if c = q then { s with quote := none }
      else s
    | none =>
      if isQuote c then { s with quote := some c }
      else if isOpening c then { s with depth := s.depth + 1 }
      else if isClosing c then { s with depth := s.depth - 1 }
      else s

/-- Whether nothing is open. -/
def isTop (s : Scan) : Bool := s.depth = 0 && s.quote.isNone && !s.escaped

def after (s : Scan) (t : Text) : Scan := t.foldl step s

theorem after_append (s : Scan) (t u : Text) : s.after (t ++ u) = (s.after t).after u := by
  simp [after]

end Scan

/-- Whether the character separates here. A quote or bracket never does, and only one
character can. -/
def separates (sep : Text) (s : Scan) (c : Char) : Bool :=
  s.isTop && !isQuote c && !isOpening c && !isClosing c && sep = [c]

def splitFrom (sep : Text) (s : Scan) : Text → List Text
  | [] => [[]]
  | c :: cs =>
    if separates sep s c then [] :: splitFrom sep s cs
    else Text.attach c (splitFrom sep (s.step c) cs)

/-- The pieces between the separators outside quotes and brackets. -/
def splitTopLevel (sep t : Text) : List Text := splitFrom sep {} t

theorem step_of_separates {sep : Text} {s : Scan} {c : Char} (h : separates sep s c = true) :
    s.step c = s := by
  simp only [separates, Scan.isTop, Bool.and_eq_true, Bool.not_eq_true',
    Option.isNone_iff_eq_none] at h
  obtain ⟨⟨⟨⟨⟨⟨_, hq⟩, he⟩, h1⟩, h2⟩, h3⟩, _⟩ := h
  simp [Scan.step, he, hq, h1, h2, h3]

theorem splitFrom_ne_nil (sep : Text) (s : Scan) (t : Text) : splitFrom sep s t ≠ [] := by
  cases t with
  | nil => simp [splitFrom]
  | cons c cs =>
    rw [splitFrom]
    split
    · simp
    · unfold Text.attach
      split <;> simp

theorem join_splitFrom (sep : Text) (s : Scan) (t : Text) :
    Text.join sep (splitFrom sep s t) = t := by
  induction t generalizing s with
  | nil => simp [splitFrom, Text.join]
  | cons c cs ih =>
    rw [splitFrom]
    split
    next h =>
      have hc : sep = [c] := by
        simp only [separates, Bool.and_eq_true, decide_eq_true_eq] at h
        exact h.2
      subst hc
      have ih := ih s
      cases hs : splitFrom [c] s cs with
      | nil => exact absurd hs (splitFrom_ne_nil _ _ _)
      | cons p ps =>
        rw [hs] at ih
        simpa [Text.join, List.intercalate, List.intersperse] using ih
    next h =>
      have ih := ih (s.step c)
      cases hs : splitFrom sep (s.step c) cs with
      | nil => exact absurd hs (splitFrom_ne_nil _ _ _)
      | cons p ps =>
        rw [hs] at ih
        cases ps with
        | nil => simpa [Text.attach, Text.join, List.intercalate, List.intersperse] using ih
        | cons q qs =>
          simpa [Text.attach, Text.join, List.intercalate, List.intersperse] using ih

theorem join_splitTopLevel (sep t : Text) : Text.join sep (splitTopLevel sep t) = t :=
  join_splitFrom sep {} t

end VariableReport.Listing
