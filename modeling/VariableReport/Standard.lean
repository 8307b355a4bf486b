import VariableReport.Matrix
import VariableReport.Settings.Reader
import VariableReport.Value.Printer

/-!
# The standard host and libraries

What the program runs with. The host goes 990 containers down in JSON texts and 6000 rules in
literals wherever they are read, and knows no characters by name. Rows of numbers are arranged as
the array library does it, and settings are built field by field: a stray name is found first, the
fields are then read in a fixed order, and the first that does not fit is the fault.
-/

namespace VariableReport

instance Host.standard : Host where
  jsonDepth _ := 990
  grammarDepth _ _ := 6000
  charNamed? _ := none
  jsonDepth_ge _ := by decide
  grammarDepth_ge _ _ := by decide

/-! ### Arrays -/

def Matrix.arrangement (rows : List (List Matrix.Entry)) : Matrix.Arrangement :=
  if !Matrix.isEven rows then .ragged
  else if rows.all fun row => row.all Matrix.Entry.inRange then .array 2
  else .outOfRange

instance Matrix.Arrays.standard : Matrix.Arrays where
  arrange := arrangement
  ragged _ _ := by
    unfold arrangement
    grind
  outOfRange _ _ heven := by
    rw [arrangement, heven]
    grind
  dimensions _ _ h := by
    unfold arrangement at h
    grind

/-! ### Settings -/

namespace Settings

variable {members : Members} {field default expected : Text} {defaults : List Text} {flag : Bool}

/-- The fault of a value of the wrong type. -/
def wrongType {α : Type} (field expected : Text) (v : Value) : Except Fault α :=
  match v.text? with
  | some t => .error (.wrongType field expected t v.typeName)
  | none => .error .valueTooLong

def readText (members : Members) (field default : Text) : Except Fault Text :=
  match Json.find? field members with
  | none => .ok default
  | some (.str t) => .ok t
  | some j => wrongType field "str".toList j.toValue

def readFlag (members : Members) (field : Text) (default : Bool) : Except Fault Bool :=
  match Json.find? field members with
  | none => .ok default
  | some (.bool b) => .ok b
  | some j => wrongType field "bool".toList j.toValue

/-- The names of an object that stands for a list: each must be a pair of characters, and
the first ones are the items, each once. -/
def pairHeads : Nat → Members → Except Fault (List Text)
  | _, [] => .ok []
  | i, (name, _) :: members =>
    match name with
    | [c, _] => (pairHeads (i + 1) members).map fun heads => [c] :: heads
    | _ => .error (.keyNotPair i name.length)

/-- What a text that stands for a list is turned into before its characters become the items. It
ends with an address in memory, which is another one in each run. -/
def generatorText : Text :=
  "<generator object _build_value_for_collection.<locals>.<genexpr> at 0x7f0000000000>".toList

/-- A list of texts. -/
def readTexts (members : Members) (field : Text) (default : List Text) :
    Except Fault (List Text) :=
  match Json.find? field members with
  | none => .ok default
  | some (.array items) =>
    match Json.texts? items with
    | some ts => .ok ts
    | none => wrongType field "tuple".toList (.tuple (Json.toValues items))
  | some (.object members) => (pairHeads 0 members).map List.eraseDups
  | some (.str _) => .ok (generatorText.map fun c => [c])
  | some j => .error (.notSequence j.typeName)

def readFields (members : Members) : Except Fault Settings := do
  let default : Settings := {}
  let symbols ← readTexts members "symbols".toList default.symbols
  let tableDirective ← readText members "table_directive".toList default.tableDirective
  let trueValueMarker ← readText members "true_value_marker".toList default.trueValueMarker
  let autoScaleMarker ← readText members "auto_scale_marker".toList default.autoScaleMarker
  let unitConstructors ←
    readTexts members "unit_constructors".toList default.unitConstructors
  let unitType ← readText members "unit_type".toList default.unitType
  let title ← readText members "title".toList default.title
  let includeUnplaced ← readFlag members "include_unplaced".toList default.includeUnplaced
  let varsSuffix ← readText members "vars_suffix".toList default.varsSuffix
  let reportSuffix ← readText members "report_suffix".toList default.reportSuffix
  .ok { symbols, tableDirective, trueValueMarker, autoScaleMarker, unitConstructors, unitType,
        title, includeUnplaced, varsSuffix, reportSuffix }

def readObject : Json → Except Fault Settings
  | .object members =>
    match strayName? members with
    | some name => .error (.unknownField name)
    | none => readFields members
  | j => .error (.notObject j.typeName)

/-! The reader does what is assumed of a library. -/

theorem mem_of_find? {j : Json} (h : Json.find? field members = some j) : (field, j) ∈ members := by
  induction members with
  | nil => cases h
  | cons m members ih =>
    obtain ⟨name, value⟩ := m
    rw [Json.find?] at h
    split at h
    next hname =>
      cases h
      rw [hname]
      exact List.mem_cons_self
    next => exact List.mem_cons_of_mem _ (ih h)

theorem readText_eq (h : ∀ m ∈ members, Nearly m) (hlist : field ∉ listNames)
    (hflag : field ∉ flagNames) :
    readText members field default = .ok (textOf members field default) := by
  cases hj : Json.find? field members with
  | none => simp [readText, textOf, hj]
  | some j =>
    have hfits := (h _ (mem_of_find? hj)).resolve_right fun h => hlist h.1
    cases j with
    | str t => simp [readText, textOf, hj]
    | _ => simp_all [fits]

theorem readFlag_eq (h : ∀ m ∈ members, Nearly m) (hlist : field ∉ listNames)
    (hflag : field ∈ flagNames) :
    readFlag members field flag = .ok (flagOf members field flag) := by
  cases hj : Json.find? field members with
  | none => simp [readFlag, flagOf, hj]
  | some j =>
    have hfits := (h _ (mem_of_find? hj)).resolve_right fun h => hlist h.1
    cases j with
    | bool b => simp [readFlag, flagOf, hj]
    | _ => simp_all [fits]

/-- A list is read, unless a value without items stands in its place. -/
theorem readTexts_eq (h : ∀ m ∈ members, Nearly m) (hlist : field ∈ listNames) :
    readTexts members field defaults = .ok (textsOf members field defaults) ∨
      ∃ j, Json.find? field members = some j ∧ j.Single := by
  cases hj : Json.find? field members with
  | none => simp [readTexts, textsOf, hj]
  | some j =>
    rcases h _ (mem_of_find? hj) with hfits | ⟨-, hsingle⟩
    · cases j with
      | array items =>
        obtain ⟨ts, hts⟩ := Option.isSome_iff_exists.1 (Bool.and_eq_true_iff.1 hfits).2
        simp [readTexts, textsOf, hj, hts]
      | str t => simp [fits, hlist] at hfits
      | bool b =>
        have hneither : ∀ field ∈ listNames, field ∉ flagNames := by decide
        simp [fits, hneither field hlist] at hfits
      | _ => simp [fits] at hfits
    · exact .inr ⟨j, rfl, hsingle⟩

theorem readTexts_of_single {j : Json} (h : Json.find? field members = some j) (hj : j.Single) :
    readTexts members field defaults = .error (.notSequence j.typeName) := by
  rw [readTexts, h]
  cases hj <;> rfl

theorem readFields_eq (h : ∀ m ∈ members, fits m.1 m.2 = true) :
    readFields members = .ok (fill members) := by
  have hnearly : ∀ m ∈ members, Nearly m := fun m hm => .inl (h m hm)
  have htexts {field : Text} {defaults : List Text} (hfield : field ∈ listNames) :
      readTexts members field defaults = .ok (textsOf members field defaults) := by
    refine (readTexts_eq hnearly hfield).resolve_right fun ⟨j, hj, hsingle⟩ => ?_
    have hfits := h _ (mem_of_find? hj)
    have hneither : ∀ field ∈ listNames, field ∉ flagNames := by decide
    cases hsingle <;> simp [fits, hneither field hfield] at hfits
  have htext {field default : Text} (hlist : field ∉ listNames) (hflag : field ∉ flagNames) :
      readText members field default = .ok (textOf members field default) :=
    readText_eq hnearly hlist hflag
  rw [readFields, htexts (by decide), htext (by decide) (by decide), htext (by decide) (by decide),
    htext (by decide) (by decide), htexts (by decide), htext (by decide) (by decide),
    htext (by decide) (by decide), readFlag_eq hnearly (by decide) (by decide),
    htext (by decide) (by decide), htext (by decide) (by decide)]
  rfl

theorem readFields_of_single {j : Json} (h : ∀ m ∈ members, Nearly m) (hlist : field ∈ listNames)
    (hj : Json.find? field members = some j) (hsingle : j.Single) :
    ∃ typeName, readFields members = .error (.notSequence typeName) := by
  have hfirst : readTexts members "symbols".toList ({} : Settings).symbols = _ ∨ _ :=
    readTexts_eq h (by decide)
  rcases hfirst with hsymbols | ⟨k, hk, hksingle⟩
  · simp only [listNames, List.mem_cons, List.not_mem_nil, or_false] at hlist
    rcases hlist with rfl | rfl
    · rw [readTexts_of_single hj hsingle] at hsymbols
      cases hsymbols
    · refine ⟨j.typeName, ?_⟩
      rw [readFields, hsymbols, readText_eq h (by decide) (by decide),
        readText_eq h (by decide) (by decide), readText_eq h (by decide) (by decide),
        readTexts_of_single hj hsingle]
      rfl
  · refine ⟨k.typeName, ?_⟩
    rw [readFields, readTexts_of_single hk hksingle]
    rfl

theorem isTold_wrongType {α : Type} {v : Value} {f : Fault}
    (h : wrongType (α := α) field expected v = .error f) : f.IsTold := by
  unfold wrongType at h
  split at h
  next =>
    cases h
    exact .wrongType _ _ _ _
  next =>
    cases h
    exact .valueTooLong

theorem isTold_readText {f : Fault} (h : readText members field default = .error f) :
    f.IsTold := by
  unfold readText at h
  split at h
  next => cases h
  next => cases h
  next => exact isTold_wrongType h

theorem isTold_readFlag {f : Fault} (h : readFlag members field flag = .error f) : f.IsTold := by
  unfold readFlag at h
  split at h
  next => cases h
  next => cases h
  next => exact isTold_wrongType h

theorem isTold_pairHeads {f : Fault} {i : Nat} (h : pairHeads i members = .error f) :
    f.IsTold := by
  induction members generalizing i with
  | nil => cases h
  | cons m members ih =>
    unfold pairHeads at h
    split at h
    next =>
      cases hheads : pairHeads (i + 1) members with
      | ok heads =>
        rw [hheads] at h
        cases h
      | error g =>
        rw [hheads] at h
        cases h
        exact ih hheads
    next =>
      cases h
      exact .keyNotPair _ _

theorem isFaultOf_readTexts {f : Fault} (hlist : field ∈ listNames)
    (h : readTexts members field defaults = .error f) : IsFaultOf members f := by
  unfold readTexts at h
  split at h
  next => cases h
  next =>
    split at h
    next => cases h
    next => exact .inl (isTold_wrongType h)
  next pairs _ =>
    cases hheads : pairHeads 0 pairs with
    | ok heads =>
      rw [hheads] at h
      cases h
    | error g =>
      rw [hheads] at h
      cases h
      exact .inl (isTold_pairHeads hheads)
  next => cases h
  next j harray hobject hstr hj =>
    cases h
    refine .inr ⟨field, hlist, j, hj, ?_, rfl⟩
    cases j with
    | null => exact .null
    | bool b => exact .bool b
    | int n => exact .int n
    | float d => exact .float d
    | str t => exact (hstr t rfl).elim
    | array items => exact (harray items rfl).elim
    | object members => exact (hobject members rfl).elim

/-- A chain of readers fails with a fault of its first reader or of the rest. -/
theorem bind_eq_error {α β : Type} {x : Except Fault α} {g : α → Except Fault β} {f : Fault}
    (h : (x >>= g) = .error f) : x = .error f ∨ ∃ a, g a = .error f := by
  cases x with
  | error e =>
    cases h
    exact .inl rfl
  | ok a => exact .inr ⟨a, h⟩

theorem isFaultOf_readFields {f : Fault} (h : readFields members = .error f) :
    IsFaultOf members f := by
  unfold readFields at h
  obtain h | ⟨_, h⟩ := bind_eq_error h
  · exact isFaultOf_readTexts (by decide) h
  obtain h | ⟨_, h⟩ := bind_eq_error h
  · exact .inl (isTold_readText h)
  obtain h | ⟨_, h⟩ := bind_eq_error h
  · exact .inl (isTold_readText h)
  obtain h | ⟨_, h⟩ := bind_eq_error h
  · exact .inl (isTold_readText h)
  obtain h | ⟨_, h⟩ := bind_eq_error h
  · exact isFaultOf_readTexts (by decide) h
  obtain h | ⟨_, h⟩ := bind_eq_error h
  · exact .inl (isTold_readText h)
  obtain h | ⟨_, h⟩ := bind_eq_error h
  · exact .inl (isTold_readText h)
  obtain h | ⟨_, h⟩ := bind_eq_error h
  · exact .inl (isTold_readFlag h)
  obtain h | ⟨_, h⟩ := bind_eq_error h
  · exact .inl (isTold_readText h)
  obtain h | ⟨_, h⟩ := bind_eq_error h
  · exact .inl (isTold_readText h)
  cases h

instance Builder.standard : Builder where
  build := readObject
  stray {members} h := by
    obtain ⟨name, hname⟩ := Option.ne_none_iff_exists'.1 h
    exact ⟨name, by rw [readObject, hname]⟩
  fill hstray h := by
    rw [readObject, hstray]
    exact readFields_eq h
  fault {members f} h := by
    unfold readObject at h
    dsimp only at h
    split at h
    next =>
      cases h
      exact .inl (.unknownField _)
    next => exact isFaultOf_readFields h
  single hstray hlist hj hsingle h := by
    rw [readObject, hstray]
    exact readFields_of_single h hlist hj hsingle

end Settings

end VariableReport
