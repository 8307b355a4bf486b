import VariableReport.Value

/-!
# Forms of literals

A form is what an expression spells, before it is known whether it denotes a value: signs and
sums of anything, brackets of three kinds, and the call of the empty set. Of any other expression
only that it is there is kept, and whether values can be assigned to it. Brackets around one
form leave no trace.
-/

namespace VariableReport.Literal

inductive Form
  | constant (v : Value)
  | setName
  | emptySet
  | plus (f : Form)
  | minus (f : Form)
  | sum (f g : Form)
  | difference (f g : Form)
  | list (items : List Form)
  | tuple (items : List Form)
  | set (items : List Form)
  | dict (entries : List (Form × Form))
  | starred (f : Form)
  | other (assignable : Bool)

def Form.isStarred : Form → Bool
  | .starred _ => true
  | _ => false

mutual

/-- Whether values can be assigned to what the form spells. -/
def Form.isTarget : Form → Bool
  | .setName => true
  | .other assignable => assignable
  | .list items => Form.areTargets items
  | .tuple items => Form.areTargets items
  | .starred f => Form.isTarget f
  | _ => false

def Form.areTargets : List Form → Bool
  | [] => true
  | f :: fs => Form.isTarget f && Form.areTargets fs

end

/-- Letters that are compatibility forms of one ASCII letter. -/
def spellings (c : Char) : List Nat :=
  if c = 's' then [0x17F, 0x2E2, 0x209B, 0xFF53, 0x1D42C, 0x1D460, 0x1D494, 0x1D4C8, 0x1D4FC,
    0x1D530, 0x1D564, 0x1D598, 0x1D5CC, 0x1D600, 0x1D634, 0x1D668, 0x1D69C]
  else if c = 'e' then [0x1D49, 0x2091, 0x212F, 0x2147, 0xFF45, 0x1D41E, 0x1D452, 0x1D486,
    0x1D4EE, 0x1D522, 0x1D556, 0x1D58A, 0x1D5BE, 0x1D5F2, 0x1D626, 0x1D65A, 0x1D68E]
  else if c = 't' then [0x1D57, 0x209C, 0xFF54, 0x1D42D, 0x1D461, 0x1D495, 0x1D4C9, 0x1D4FD,
    0x1D531, 0x1D565, 0x1D599, 0x1D5CD, 0x1D601, 0x1D635, 0x1D669, 0x1D69D]
  else []

/-- Whether a name spells a word, letter by letter. -/
def spells : Text → Text → Bool
  | [], [] => true
  | c :: cs, d :: ds => (c = d || (spellings d).contains c.toNat) && spells cs ds
  | _, _ => false

/-- The form of a name. One name has a meaning: that of the empty set, when it is called. -/
def nameForm (t : Text) : Form := if spells t "set".toList then .setName else .other true

end VariableReport.Literal
