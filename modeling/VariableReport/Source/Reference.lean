import VariableReport.Source.Lexer

/-!
# References

A name in an expression refers to a variable unless it follows a point, where it is an
attribute, or stands between an opening bracket or a comma and an equal sign, where it
names an argument.
-/

namespace VariableReport.Source

structure Reference where
  name : Text
  start : Nat
  stop : Nat
  deriving DecidableEq, Repr

def isCode (t : Token) : Bool := !(t.isLayout || t.kind = .comment)

/-- Whether a name refers to a variable, given its neighbours. -/
def refers (before : Option Token) (after : Option Token) : Bool :=
  let ofObject := (before.map (·.isOperator ['.'])).getD false
  let ofCall :=
    (after.map (·.isOperator ['='])).getD false &&
      (before.map fun t => t.text = ['('] || t.text = [',']).getD false
  !ofObject && !ofCall

/-- The references of a list of tokens of code, after the token `before`. -/
def referencesIn (t : Text) : Option Token → List Token → List Reference
  | _, [] => []
  | before, token :: tokens =>
    (if token.kind = .name && refers before tokens.head? then
      [⟨token.text, offset t token.start, offset t token.stop⟩]
    else []) ++ referencesIn t (some token) tokens

/-- The references of an expression in order; none for a text that cannot be lexed. -/
def references? (t : Text) : Option (List Reference) :=
  (tokens? t).map fun tokens => referencesIn t none (tokens.filter isCode)

end VariableReport.Source
