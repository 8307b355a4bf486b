import VariableReport.Text
import VariableReport.Text.Word

/-!
# Symbols

The name of a symbol becomes a command when a backslash stands before it. A name is
escaped where it stands as a whole word: no word character follows it, and before it
stands nothing, an underscore, or a character that is neither a word character nor a
backslash. Of several names that fit at one place the longest counts; two that fit with
one length are equal, so the order of the names has no influence.
-/

namespace VariableReport.Formula

/-- The letters and signs that are commands by themselves. -/
def commonSymbols : List Text :=
  ["alpha", "beta", "gamma", "delta", "epsilon", "zeta", "eta", "theta", "iota", "kappa",
    "lambda", "mu", "nu", "xi", "omicron", "pi", "rho", "sigma", "tau", "upsilon", "phi",
    "chi", "psi", "omega", "Delta", "Gamma", "Theta", "Lambda", "Xi", "Pi", "Sigma", "Phi",
    "Psi", "Omega", "nabla", "partial", "infinity"].map String.toList

/-- Whether a symbol may start after this character. -/
def startsAfter : Option Char → Bool
  | none => true
  | some c => c = '_' || (c ≠ '\\' && !Text.isWord c)

/-- Whether a symbol may end before this text. -/
def endsBefore : Text → Bool
  | [] => true
  | c :: _ => !Text.isWord c

/-- Whether a symbol fits at the start of a text. -/
def fits (symbol t : Text) : Bool :=
  symbol.isPrefixOf t && endsBefore (t.drop symbol.length)

/-- The longer of two texts; the first one of two with one length. -/
def longer (best : Option Text) (s : Text) : Option Text :=
  match best with
  | none => some s
  | some b => if b.length < s.length then some s else some b

/-- The longest symbol that fits at the start of a text. -/
def longestFit? (symbols : List Text) (t : Text) : Option Text :=
  (symbols.filter (fits · t)).foldl longer none

/-- One pass of `escapeSymbols`, after the character `before`; `skip` characters of a
symbol are still to be copied. -/
def escapeFrom (symbols : List Text) : Option Char → Nat → Text → Text
  | before, _, [] =>
    if startsAfter before && (longestFit? symbols []).isSome then ['\\'] else []
  | _, skip + 1, c :: cs => c :: escapeFrom symbols (some c) skip cs
  | before, 0, c :: cs =>
    match if startsAfter before then longestFit? symbols (c :: cs) else none with
    | some s => '\\' :: c :: escapeFrom symbols (some c) (s.length - 1) cs
    | none => c :: escapeFrom symbols (some c) 0 cs

/-- The text with a backslash before every symbol. -/
def escapeSymbols (symbols : List Text) (t : Text) : Text := escapeFrom symbols none 0 t

end VariableReport.Formula
