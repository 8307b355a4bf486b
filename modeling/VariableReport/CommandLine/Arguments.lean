import VariableReport.Text

/-!
# Arguments

The arguments of the command line are options and at most one operand, the notebook. A long
option may be cut short as long as only one option begins so, and its value may follow it
after an equal sign or as the next argument. After two hyphens every argument is an
operand. Numbers with a minus sign and arguments with a space in them are operands too,
unless they begin like an option.
-/

namespace VariableReport.CommandLine

inductive Choice
  | help
  | snapshot
  | outputDir
  | config
  | printCell
  | verbose
  deriving DecidableEq, Repr

/-- The spellings of the options, in the order in which they are told. -/
def spellings : List (Text × Choice) :=
  [("-h", .help), ("--help", .help), ("--snapshot", .snapshot), ("--output-dir", .outputDir),
    ("--config", .config), ("--print-snapshot-cell", .printCell), ("--verbose", .verbose)].map
    fun (s, c) => (s.toList, c)

/-- The name of an option in messages: all of its spellings. -/
def Choice.name (c : Choice) : Text :=
  Text.join ['/'] ((spellings.filter fun (_, d) => d = c).map (·.1))

/-- What is wrong with the arguments. -/
inductive Misuse
  | ambiguous (argument : Text) (candidates : List Text)
  | unusedValue (option : Choice) (value : Text)
  | missingValue (option : Choice)
  | unrecognized (arguments : List Text)
  | noNotebook
  deriving DecidableEq, Repr

/-- A value that is part of an argument, after an equal sign or right after a short option. -/
structure Attached where
  marked : Bool
  text : Text
  deriving DecidableEq, Repr

/-- An argument by what it looks like. -/
inductive Word
  | operand (t : Text)
  /-- The two hyphens after which all arguments are operands. -/
  | separator
  | option (c : Choice) (isShort : Bool) (value : Option Attached)
  | unknown (t : Text)
  deriving DecidableEq, Repr

def separatorText : Text := ['-', '-']

def isShort (spelling : Text) : Bool := spelling.length = 2

/-- Digits, perhaps with one point among them or in front, after a minus sign. -/
def isNegativeNumber (t : Text) : Bool :=
  match t with
  | '-' :: digits =>
    match Text.cut '.' digits with
    | none => !digits.isEmpty && digits.all Char.isDigit
    | some (whole, fraction) =>
      whole.all Char.isDigit && !fraction.isEmpty && fraction.all Char.isDigit
  | _ => false

/-- The options that an argument which is no full spelling can stand for. -/
def candidates (t : Text) : List (Text × Word) :=
  if Text.startsWith t separatorText then
    let (name, value) : Text × Option Attached :=
      match Text.cut '=' t with
      | some (name, value) => (name, some ⟨true, value⟩)
      | none => (t, none)
    (spellings.filter fun (s, _) => Text.startsWith s name).map fun (s, c) =>
      (s, .option c (isShort s) value)
  else
    (spellings.filter fun (s, _) => t.take 2 = s).map fun (s, c) =>
      (s, .option c true (some ⟨false, t.drop 2⟩))

/-- An option that is spelled in full, with a value after an equal sign or without. -/
def spelled? (t : Text) : Option Word :=
  match spellings.lookup t with
  | some c => some (.option c (isShort t) none)
  | none => do
    let (name, value) ← Text.cut '=' t
    let c ← spellings.lookup name
    some (.option c (isShort name) (some ⟨true, value⟩))

def classify (t : Text) : Except Misuse Word :=
  if t.head? ≠ some '-' || t.length = 1 then .ok (.operand t)
  else
    match spelled? t with
    | some w => .ok w
    | none =>
      match candidates t with
      | [(_, w)] => .ok w
      | [] =>
        if isNegativeNumber t || t.contains ' ' then .ok (.operand t) else .ok (.unknown t)
      | several => .error (.ambiguous t (several.map (·.1)))

def classifyAll : List Text → Except Misuse (List Word)
  | [] => .ok []
  | t :: ts =>
    if t = separatorText then .ok (.separator :: ts.map .operand)
    else do
      let w ← classify t
      .ok (w :: (← classifyAll ts))

/-- What the arguments say. -/
structure Arguments where
  notebook : Option Text := none
  snapshot : Option Text := none
  outputDir : Option Text := none
  config : Option Text := none
  printCell : Bool := false
  verbose : Bool := false
  deriving DecidableEq, Repr

/-- Whether an option takes a value. -/
def Choice.takesValue : Choice → Bool
  | .snapshot | .outputDir | .config => true
  | .help | .printCell | .verbose => false

def Arguments.set (a : Arguments) (c : Choice) (value : Text) : Arguments :=
  match c with
  | .snapshot => { a with snapshot := some value }
  | .outputDir => { a with outputDir := some value }
  | .config => { a with config := some value }
  | .printCell => { a with printCell := true }
  | .verbose => { a with verbose := true }
  | .help => a

/-- Why reading the arguments ended early. -/
inductive Stop
  | help
  | misuse (m : Misuse)
  deriving DecidableEq, Repr

/-- The part of a value that an option without value cannot use. What follows a short option
may be that option again; another character is left aside. -/
def unusable? (marked : Bool) : Text → Option Text
  | [] => some []
  | c :: cs =>
    if marked || c = '-' then some (c :: cs)
    else if c ≠ 'h' then none
    else
      match cs with
      | [] => none
      | '=' :: value => unusable? true value
      | cs => unusable? false cs

/-- The fault of an option without value that was given one. -/
def unusedValue? (c : Choice) (short : Bool) (value : Option Attached) : Option Misuse :=
  match value with
  | none => none
  | some v =>
    let unused := if short then unusable? v.marked v.text else some v.text
    unused.map (.unusedValue c)

/-- The state between two arguments: what has been said, whether the place of the operand is
taken, and the arguments that nothing takes. -/
structure Progress where
  said : Arguments := {}
  operandTaken : Bool := false
  extras : List Text := []

def Progress.addExtra (p : Progress) (t : Text) : Progress := { p with extras := p.extras ++ [t] }

/-- Give the place of the operand away, perhaps to no argument. -/
def Progress.take (p : Progress) (t : Option Text) : Progress :=
  { p with said := { p.said with notebook := t }, operandTaken := true }

def Progress.set (p : Progress) (c : Choice) (value : Text) : Progress :=
  { p with said := p.said.set c value }

/-- Read the arguments in order. Two hyphens next to the operand belong to it. -/
def interpret (p : Progress) : List Word → Except Stop Progress
  | [] => .ok p
  | .unknown t :: ws => interpret (p.addExtra t) ws
  | .operand t :: ws =>
    if p.operandTaken then interpret (p.addExtra t) ws
    else
      match ws with
      | .separator :: ws => interpret (p.take (some t)) ws
      | ws => interpret (p.take (some t)) ws
  | .separator :: ws =>
    if p.operandTaken then interpret (p.addExtra separatorText) ws
    else
      match ws with
      | .operand t :: ws => interpret (p.take (some t)) ws
      | ws => interpret (p.take none) ws
  | .option c short value :: ws =>
    if c.takesValue then
      match value, ws with
      | some v, ws => interpret (p.set c v.text) ws
      | none, .operand t :: ws => interpret (p.set c t) ws
      | none, _ => .error (.misuse (.missingValue c))
    else
      match unusedValue? c short value with
      | some m => .error (.misuse m)
      | none => if c = .help then .error .help else interpret (p.set c []) ws

/-- What a list of arguments says. -/
def parse (args : List Text) : Except Stop Arguments := do
  let words ← (classifyAll args).mapError .misuse
  let p ← interpret {} words
  if p.extras.isEmpty then .ok p.said else .error (.misuse (.unrecognized p.extras))

end VariableReport.CommandLine
