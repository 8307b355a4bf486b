import VariableReport.Literal.Form
import VariableReport.Literal.Token

/-!
# The grammar of expressions

A text is a literal only if all of it is an expression, also where it has parts that no literal
has: names and calls, operators, comparisons, conditions, functions without a name, comprehensions
and formatted texts. These parts are read only to know where they end.

The rules refer to one another through a parameter, and a rule may be open inside another down to
a depth that the host knows (`parse`). The operators that follow one another without end, like sums
and calls, go one rule deeper each, since the trees that they make grow deeper too; the items of a
bracket, comparisons and alternatives do not.
-/

namespace VariableReport.Literal

/-- A parser goes over tokens from the left; it fails, or answers what it has read. -/
abbrev Parser := StateT (List Token) Option

/-! ### Tokens -/

/-- Pass over the next token if it is of a kind, and tell whether it was. -/
def skipIf (p : Token → Bool) : Parser Bool
  | k :: ts => some (if p k then (true, ts) else (false, k :: ts))
  | [] => some (false, [])

def Token.isSign (s : Sign) : Token → Bool
  | .sign r => r = s
  | _ => false

def Token.isAmong (signs : List Sign) : Token → Bool
  | .sign s => signs.contains s
  | _ => false

def Token.isName : Token → Bool
  | .name _ => true
  | _ => false

def Token.isLineEnd : Token → Bool
  | .lineEnd => true
  | _ => false

/-- Pass over a token that must be of a kind. -/
def demandIf (p : Token → Bool) : Parser Unit := do
  if ← skipIf p then return () else failure

def skip (s : Sign) : Parser Bool := skipIf (Token.isSign s)

def demand (s : Sign) : Parser Unit := demandIf (Token.isSign s)

/-- Whether the next token is one of several signs. -/
def sees (signs : List Sign) : Parser Bool := fun ts =>
  some ((ts.head?.map (Token.isAmong signs)).getD false, ts)

/-- Whether a name comes next and the sign behind it. -/
def seesNamed (s : Sign) : Parser Bool := fun ts =>
  some (match ts with
    | .name _ :: .sign r :: _ => r = s
    | _ => false, ts)

/-- The tokens that are words. -/
def word (s : String) : Sign := .word s.toList

/-! ### Repetition -/

section
variable {α : Type}

/-- Go on from an answer to the next as long as there is one. Each uses up tokens, so the tokens at
the start count them out. -/
def goOn (next : α → Parser (Option α)) : List Token → α → Parser α
  | [], a => return a
  | _ :: more, a => do
    match ← next a with
    | some b => goOn next more b
    | none => return a

def iterate (next : α → Parser (Option α)) (a : α) : Parser α := fun ts => goOn next ts a ts

/-- The members behind one that has been read, with commas between them, and whether there was a
comma; one may stand behind the last member, in front of the closing token. -/
def membersFrom (member : Parser α) (close : Token → Bool) : List Token → Parser (List α × Bool)
  | [] => failure
  | _ :: more => do
    if ← skipIf close then return ([], false)
    demand (.mark ',')
    if ← skipIf close then return ([], true)
    let a ← member
    let (as, _) ← membersFrom member close more
    return (a :: as, true)

def members (member : Parser α) (close : Token → Bool) : Parser (List α × Bool) := fun ts =>
  membersFrom member close ts ts

end

/-! ### Rules -/

/-- The rules that are referred to. -/
inductive Rule
  | expression
  | disjunction
  | inversion
  | arithmetic
  | terms (f : Form)
  | factor
  | primary
  | trailers (f : Form)

section
variable (rule : Rule → Parser Form)

/-- An expression, or one whose value is given a name. -/
def named : Parser Form := do
  if ← seesNamed (.pair ':' '=') then
    demandIf Token.isName
    demand (.pair ':' '=')
    let _ ← rule .expression
    return .other false
  else rule .expression

/-- A member of a list: an expression, or what a star puts in there. -/
def item : Parser Form := do
  if ← skip (.mark '*') then return .starred (← rule .arithmetic) else named rule

/-! ### Comprehensions -/

def target : Parser Unit := do
  let _ ← skip (.mark '*')
  if (← rule .primary).isTarget then return () else failure

/-- A condition behind a clause of a comprehension, if one comes next. -/
def condition : Parser (Option Unit) := do
  if ← skip (word "if") then
    let _ ← rule .disjunction
    return some ()
  else return none

/-- What stands behind the first word of a clause. -/
def clauseBody : Parser Unit := do
  target rule
  let _ ← members (target rule) (Token.isSign (word "in"))
  let _ ← rule .disjunction
  iterate (fun _ => condition rule) ()

/-- Pass over a clause of a comprehension, if one comes next. -/
def clause : Parser Bool := do
  if ← skip (word "async") then
    demand (word "for")
    clauseBody rule
    return true
  else if ← skip (word "for") then
    clauseBody rule
    return true
  else return false

/-- Whether the clauses of a comprehension come next, where they may; they are passed over. -/
def clausesIf (allowed : Bool) : Parser Bool := do
  if !allowed then return false
  if ← clause rule then
    iterate (fun _ => do return if ← clause rule then some () else none) ()
    return true
  else return false

/-- What stands behind the first member of a bracket up to its end. There are no members when it is
a comprehension. -/
def restOf (close : Char) (f : Form) : Parser (Option (List Form × Bool)) := do
  if ← clausesIf rule (!f.isStarred) then
    demand (.mark close)
    return none
  else return some (← members (item rule) (Token.isSign (.mark close)))

/-! ### Brackets -/

def listForm : Parser Form := do
  if ← skip (.mark ']') then return .list []
  let f ← item rule
  match ← restOf rule ']' f with
  | some (fs, _) => return .list (f :: fs)
  | none => return .other false

/-- The members of a tuple that a function yields. -/
def yielded : Parser Form := do
  if ← skip (.mark '*') then return .starred (← rule .arithmetic) else rule .expression

def yieldForm : Parser Form := do
  if ← skip (word "from") then
    let _ ← rule .expression
    demand (.mark ')')
    return .other false
  if ← skip (.mark ')') then return .other false
  let _ ← yielded rule
  let _ ← members (yielded rule) (Token.isSign (.mark ')'))
  return .other false

def tupleForm : Parser Form := do
  if ← skip (.mark ')') then return .tuple []
  if ← skip (word "yield") then yieldForm rule
  else
    let f ← item rule
    match ← restOf rule ')' f with
    | some ([], false) => if f.isStarred then failure else return f
    | some (fs, _) => return .tuple (f :: fs)
    | none => return .other false

/-- A key and its value. Entries of another dictionary have no key. -/
def entry : Parser (Form × Form) := do
  if ← skip (.pair '*' '*') then return (.other false, ← rule .arithmetic)
  let k ← rule .expression
  demand (.mark ':')
  return (k, ← rule .expression)

def setForm (f : Form) : Parser Form := do
  match ← restOf rule '\x7d' f with
  | some (fs, _) => return .set (f :: fs)
  | none => return .other false

def dictForm (e : Form × Form) : Parser Form := do
  let (es, _) ← members (entry rule) (Token.isSign (.mark '\x7d'))
  return .dict (e :: es)

def braceForm : Parser Form := do
  if ← skip (.mark '\x7d') then return .dict []
  if ← sees [.pair '*' '*'] then dictForm rule (← entry rule)
  else if (← sees [.mark '*']) || (← seesNamed (.pair ':' '=')) then setForm rule (← item rule)
  else
    let k ← rule .expression
    if ← skip (.mark ':') then
      let f ← rule .expression
      if ← clausesIf rule true then
        demand (.mark '\x7d')
        return .other false
      else dictForm rule (k, f)
    else setForm rule k

/-! ### Calls and subscripts -/

inductive Argument
  | positional
  | starred
  | keyword
  | unpacked
  deriving DecidableEq

def argument : Parser Argument := do
  if ← skip (.pair '*' '*') then
    let _ ← rule .expression
    return .unpacked
  else if ← skip (.mark '*') then
    let _ ← rule .expression
    return .starred
  else if ← seesNamed (.mark '=') then
    demandIf Token.isName
    demand (.mark '=')
    let _ ← rule .expression
    return .keyword
  else
    let _ ← named rule
    return .positional

/-- Whether the second argument may stand somewhere behind the first. -/
def Argument.mayPrecede : Argument → Argument → Bool
  | .keyword, .positional => false
  | .unpacked, .positional => false
  | .unpacked, .starred => false
  | _, _ => true

/-- Whether arguments may stand in this order. -/
def areArguments : List Argument → Bool
  | [] => true
  | a :: as => as.all a.mayPrecede && areArguments as

/-- The arguments of a call behind the opening bracket, and whether there are none. -/
def arguments : Parser Bool := do
  if ← skip (.mark ')') then return true
  let a ← argument rule
  if ← clausesIf rule (a = .positional) then
    demand (.mark ')')
    return false
  let (as, _) ← members (argument rule) (Token.isSign (.mark ')'))
  if areArguments (a :: as) then return false else failure

/-- One of the bounds of a slice, which may be left out. -/
def bound : Parser Unit := do
  if ← sees [.mark ':', .mark ',', .mark ']'] then return ()
  let _ ← rule .expression

/-- What stands behind the first bound of a slice. -/
def bounds : Parser Unit := do
  if ← skip (.mark ':') then
    bound rule
    if ← skip (.mark ':') then bound rule

def slice : Parser Unit := do
  if ← skip (.mark '*') then
    let _ ← rule .expression
  else if ← seesNamed (.pair ':' '=') then
    let _ ← named rule
  else if ← sees [.mark ':'] then bounds rule
  else
    let _ ← rule .expression
    bounds rule

/-- What stands behind a form and belongs to it: members, subscripts and calls. -/
def trailersOf (f : Form) : Parser Form := do
  if ← skip (.mark '.') then
    demandIf Token.isName
    rule (.trailers (.other true))
  else if ← skip (.mark '[') then
    slice rule
    let _ ← members (slice rule) (Token.isSign (.mark ']'))
    rule (.trailers (.other true))
  else if ← skip (.mark '(') then
    let isEmpty ← arguments rule
    match f with
    | .setName => rule (.trailers (if isEmpty then .emptySet else .other false))
    | _ => rule (.trailers (.other false))
  else return f

/-! ### Functions without a name -/

inductive Parameter
  | plain
  | default
  | slash
  | star
  | positionals
  | keywords
  deriving DecidableEq

def parameter : Parser Parameter := do
  if ← skip (.pair '*' '*') then
    demandIf Token.isName
    return .keywords
  else if ← skip (.mark '*') then return if ← skipIf Token.isName then .positionals else .star
  else if ← skip (.mark '/') then return .slash
  else
    demandIf Token.isName
    if ← skip (.mark '=') then
      let _ ← rule .expression
      return .default
    else return .plain

/-- Whether parameters may stand in this order behind a star. -/
def areKeywordParameters : List Parameter → Bool
  | [] => true
  | .plain :: ps => areKeywordParameters ps
  | .default :: ps => areKeywordParameters ps
  | .keywords :: ps => ps.isEmpty
  | _ => false

/-- Whether parameters may stand in this order behind others, some of which have a default. One
slash may stand among them, but not in front of all. -/
def areParameters : (slash defaults : Bool) → List Parameter → Bool
  | _, _, [] => true
  | slash, false, .plain :: ps => areParameters slash false ps
  | slash, _, .default :: ps => areParameters slash true ps
  | true, defaults, .slash :: ps => areParameters false defaults ps
  | _, _, .positionals :: ps => areKeywordParameters ps
  | _, _, .star :: .plain :: ps => areKeywordParameters ps
  | _, _, .star :: .default :: ps => areKeywordParameters ps
  | _, _, .keywords :: ps => ps.isEmpty
  | _, _, _ => false

/-- The parameters of a function and the colon behind them. -/
def parameters : Parser Unit := do
  if ← skip (.mark ':') then return ()
  let p ← parameter rule
  let (ps, _) ← members (parameter rule) (Token.isSign (.mark ':'))
  if p ≠ .slash && areParameters true false (p :: ps) then return () else failure

def function : Parser Form := do
  parameters rule
  let _ ← rule .expression
  return .other false

/-! ### Atoms -/

/-- The expressions in a formatted text are read as if they stood in brackets. -/
def areExpressions [Host] (parts : List Text) : Bool :=
  parts.all fun t =>
    match tokens? ('(' :: t ++ [')']) with
    | some ts => ((rule .expression).run ts).isSome
    | none => false

/-- The next text of several that stand side by side: texts are one text, and bytes are one run of
bytes. -/
def joinText [Host] (f : Form) : Parser (Option Form)
  | .value (.str t) :: ts =>
    match f with
    | .constant (.str s) => some (some (.constant (.str (s ++ t))), ts)
    | .other _ => some (some f, ts)
    | _ => none
  | .value (.bytes t) :: ts =>
    match f with
    | .constant (.bytes s) => some (some (.constant (.bytes (s ++ t))), ts)
    | _ => none
  | .formatted parts :: ts =>
    match f with
    | .constant (.str _) | .other _ =>
      if areExpressions rule parts then some (some (.other false), ts) else none
    | _ => none
  | ts => some (none, ts)

def atom [Host] : Parser Form
  | .value v :: ts => iterate (joinText rule) (.constant v) ts
  | .formatted parts :: ts =>
    if areExpressions rule parts then iterate (joinText rule) (.other false) ts else none
  | .name t :: ts => some (nameForm t, ts)
  | .mark '(' :: ts => tupleForm rule ts
  | .mark '[' :: ts => listForm rule ts
  | .mark '\x7b' :: ts => braceForm rule ts
  | _ => none

/-! ### Operators -/

def power : Parser Form := do
  let waits ← skip (word "await")
  let f ← rule .primary
  if ← skip (.pair '*' '*') then
    let _ ← rule .factor
    return .other false
  else return if waits then .other false else f

def factor : Parser Form := do
  if ← skip (.mark '+') then return .plus (← rule .factor)
  else if ← skip (.mark '-') then return .minus (← rule .factor)
  else if ← skip (.mark '~') then
    let _ ← rule .factor
    return .other false
  else power rule

/-- The operators of numbers and bits that no literal has. -/
def operators : List Sign :=
  [.mark '*', .mark '/', .pair '/' '/', .mark '%', .mark '@', .pair '<' '<', .pair '>' '>',
    .mark '&', .mark '|', .mark '^']

/-- What stands behind a form and is joined to it by operators of numbers and bits. Which of them
bind more tightly makes no difference, since sums of anything but numbers denote nothing. -/
def termsOf (f : Form) : Parser Form := do
  if ← skip (.mark '+') then
    let g ← rule .factor
    rule (.terms (.sum f g))
  else if ← skip (.mark '-') then
    let g ← rule .factor
    rule (.terms (.difference f g))
  else if ← skipIf (Token.isAmong operators) then
    let _ ← rule .factor
    rule (.terms (.other false))
  else return f

def comparisons : List Sign :=
  [.mark '<', .mark '>', .pair '<' '=', .pair '>' '=', .pair '=' '=', .pair '!' '=', word "in"]

/-- Pass over a comparison, if one comes next. -/
def skipComparison : Parser Bool := do
  if ← skipIf (Token.isAmong comparisons) then return true
  else if ← skip (word "not") then
    demand (word "in")
    return true
  else if ← skip (word "is") then
    let _ ← skip (word "not")
    return true
  else return false

def inversion : Parser Form := do
  if ← skip (word "not") then
    let _ ← rule .inversion
    return .other false
  else
    let f ← rule .arithmetic
    iterate (fun _ => do
      if ← skipComparison then
        let _ ← rule .arithmetic
        return some (.other false)
      else return none) f

def disjunction : Parser Form := do
  let f ← rule .inversion
  iterate (fun _ => do
    if ← skipIf (Token.isAmong [word "and", word "or"]) then
      let _ ← rule .inversion
      return some (.other false)
    else return none) f

def expression : Parser Form := do
  if ← skip (word "lambda") then function rule
  else
    let f ← rule .disjunction
    if ← skip (word "if") then
      let _ ← rule .disjunction
      demand (word "else")
      let _ ← rule .expression
      return .other false
    else return f

def body [Host] : Rule → Parser Form
  | .expression => expression rule
  | .disjunction => disjunction rule
  | .inversion => inversion rule
  | .arithmetic => do
    let f ← rule .factor
    termsOf rule f
  | .terms f => termsOf rule f
  | .factor => factor rule
  | .primary => do
    let f ← atom rule
    trailersOf rule f
  | .trailers f => trailersOf rule f

end

variable [Host]

/-- A rule with as many others open inside it as the depth says. -/
def parse : (depth : Nat) → Rule → Parser Form
  | 0, _ => failure
  | depth + 1, r => body (parse depth) r

/-- The form of a line. Commas outside brackets make a tuple. -/
def line (rule : Rule → Parser Form) : Parser Form := do
  let f ← rule .expression
  match ← members (rule .expression) Token.isLineEnd with
  | ([], false) => return f
  | (fs, _) => return .tuple (f :: fs)

/-- The form of tokens that are one line. -/
def form? (depth : Nat) (ts : List Token) : Option Form :=
  match (line (parse depth)).run ts with
  | some (f, []) => some f
  | _ => none

end VariableReport.Literal
