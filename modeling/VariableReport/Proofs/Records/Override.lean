import VariableReport.Proofs.Records.Build
import VariableReport.Standard

/-!
# Later cells override earlier ones

Nothing is carried from one cell to the next, so the definitions and the table labels of a notebook
that goes on are those of its beginning followed by those of the rest, whose cells are counted on
(`definitions_append`, `tables_append`). A record takes the last definition and the last labels of
its name. Each of the two is therefore what the rest alone gives, if it gives any, and otherwise
what the beginning alone gives (`attach_cells_append`). A name may take its definition from the
rest and its labels from the beginning.
-/

namespace VariableReport
open Outcome

namespace Notebook

/-- Some statement of the cells assigns the name. -/
def Assigns (cells : List Cell) (name : Text) : Prop :=
  ∃ ds, definitions cells = .ok ds ∧ ∃ d ∈ ds, d.name = name

/-- The definition with `n` more cells above it. -/
def Definition.lower (n : Nat) (d : Definition) : Definition :=
  { d with cellIndex := d.cellIndex + n }

theorem definition?_lower (i n : Nat) (s : Source.Statement) :
    definition? (i + n) s = (definition? i s).map (Definition.lower n) := by
  rw [definition?, definition?, Option.map_map]
  rfl

theorem cellDefinitions_lower (i n : Nat) (c : Cell) :
    cellDefinitions (i + n) c = (cellDefinitions i c).map (List.map (Definition.lower n)) := by
  unfold cellDefinitions
  split
  next =>
    cases c.code with
    | error e => rfl
    | ok t =>
      have hlower : definition? (i + n) = fun s => (definition? i s).map (Definition.lower n) :=
        funext (definition?_lower i n)
      simp only [Except.map, hlower, List.map_filterMap]
  next => rfl

theorem definitionsFrom_lower (i n : Nat) (cells : List Cell) :
    definitionsFrom (i + n) cells =
      (definitionsFrom i cells).map (List.map (Definition.lower n)) := by
  induction cells generalizing i with
  | nil => rfl
  | cons c cells ih =>
    rw [definitionsFrom, definitionsFrom, cellDefinitions_lower, Nat.add_right_comm, ih]
    cases cellDefinitions i c with
    | error e => rfl
    | ok first =>
      cases definitionsFrom (i + 1) cells with
      | error e => rfl
      | ok rest => simp [bind, Except.bind, Except.map]

theorem definitionsFrom_append (i : Nat) (above below : List Cell) :
    definitionsFrom i (above ++ below) = (do
      let first ← definitionsFrom i above
      let last ← definitionsFrom (i + above.length) below
      .ok (first ++ last)) := by
  induction above generalizing i with
  | nil =>
    cases h : definitionsFrom i below <;> simp [definitionsFrom, h, bind, Except.bind]
  | cons c above ih =>
    rw [List.cons_append, definitionsFrom, definitionsFrom, ih, List.length_cons,
      Nat.add_comm above.length, ← Nat.add_assoc]
    cases cellDefinitions i c with
    | error e => rfl
    | ok front =>
      cases definitionsFrom (i + 1) above with
      | error e => rfl
      | ok first =>
        cases definitionsFrom (i + 1 + above.length) below with
        | error e => rfl
        | ok last => simp [bind, Except.bind]

/-- The definitions of a notebook that goes on: the cells of the rest are counted on. -/
theorem definitions_append (above below : List Cell) :
    definitions (above ++ below) = (do
      let first ← definitions above
      let last ← definitions below
      .ok (first ++ last.map (Definition.lower above.length))) := by
  rw [definitions, definitionsFrom_append, definitionsFrom_lower]
  rw [definitions, definitions]
  cases definitionsFrom 0 above with
  | error e => rfl
  | ok first => cases definitionsFrom 0 below <;> rfl

/-- A later definition wins. -/
theorem lastDefinition?_append (name : Text) (first last : List Definition) :
    lastDefinition? name (first ++ last) =
      (lastDefinition? name last).or (lastDefinition? name first) := by
  rw [lastDefinition?, List.reverse_append, List.find?_append]
  rfl

theorem lastDefinition?_map_lower (name : Text) (n : Nat) (ds : List Definition) :
    lastDefinition? name (ds.map (Definition.lower n)) =
      (lastDefinition? name ds).map (Definition.lower n) := by
  rw [lastDefinition?, ← List.map_reverse, List.find?_map]
  rfl

end Notebook

namespace Records
open Notebook

variable {rs : Records} {b : Record}

theorem get?_annotate (rs : Records) (f : Record → Record) (keeps : ∀ r, (f r).name = r.name)
    (name : Text) : (rs.annotate f keeps).get? name = (rs.get? name).map f := by
  rw [get?, annotate, List.find?_map]
  simp only [Function.comp_def, keeps]
  rfl

theorem get?_annotate_of_mem {f : Record → Record} {keeps : ∀ r, (f r).name = r.name}
    (h : b ∈ rs.toList) : (rs.annotate f keeps).get? b.name = some (f b) := by
  rw [get?_annotate, get?_eq_some_iff.2 ⟨h, rfl⟩, Option.map_some]

/-- The table labels of a notebook that goes on. -/
theorem tables_append [Host] (keyword : Text) (above below : List Cell) :
    tables keyword (above ++ below) = (do
      let first ← tables keyword above
      let last ← tables keyword below
      .ok (first ++ last)) := by
  rw [tables, tables, tables, List.mapM_append]
  cases above.mapM (cellTables keyword) with
  | error e => rfl
  | ok first =>
    cases below.mapM (cellTables keyword) with
    | error e => rfl
    | ok last => simp [bind, Except.bind, pure, Except.pure]

theorem attachExpressions_eq_ok_iff {cells : List Cell} {rs' : Records} :
    rs.attachExpressions cells = .ok rs' ↔
      ∃ ds, definitions cells = .ok ds ∧ rs' = rs.attachDefinitions ds := by
  rw [attachExpressions, bind_eq_ok]
  simp only [Except.ok.injEq, eq_comm]

theorem attachTables_eq_ok_iff [Host] {cells : List Cell} {rs' : Records} :
    rs.attachTables keyword cells = .ok rs' ↔
      ∃ found, tables keyword cells = .ok found ∧
        rs' = rs.annotate (labelFrom found) (name_labelFrom found) := by
  rw [attachTables, bind_eq_ok]
  simp only [Except.ok.injEq, eq_comm]

/-- What the definitions below say of a record holds, if they say anything. -/
theorem defineFrom_append (b : Record) (first last : List Definition) (n : Nat) :
    defineFrom (first ++ last.map (Definition.lower n)) b =
      if ∃ d ∈ last, d.name = b.name then
        { b with
          expression := (defineFrom last b).expression
          cellIndex := (defineFrom last b).cellIndex.map (· + (n : Int))
          line := (defineFrom last b).line }
      else defineFrom first b := by
  rw [defineFrom, lastDefinition?_append, lastDefinition?_map_lower]
  split_ifs with h
  · obtain ⟨d, hd⟩ : ∃ d, lastDefinition? b.name last = some d := by
      rw [← Option.ne_none_iff_exists', ne_eq, lastDefinition?_eq_none_iff]
      simpa using h
    rw [defineFrom, hd]
    simp [define, Definition.lower]
  · have hnone : lastDefinition? b.name last = none :=
      lastDefinition?_eq_none_iff.2 fun d hd hname => h ⟨d, hd, hname⟩
    rw [hnone]
    rfl

/-- The labels below hold, if there are any for the name. -/
theorem labelFrom_append (hb : b.tableItems = none) (first last : List (Text × List Text)) :
    labelFrom (first ++ last) b =
      if (labelFrom last b).tableItems.isSome then
        { b with tableItems := (labelFrom last b).tableItems }
      else labelFrom first b := by
  simp only [labelFrom_eq, List.reverse_append, List.lookup_append, hb]
  cases last.reverse.lookup b.name <;> simp

/-- The cells below are read on their own, and what they say of a record wins: the expression and
the line of a name that they assign are theirs, with the number of the cell counted on, and the
labels of a name that they label are theirs. What they say nothing of stays as the cells above
leave it, and so does the rest of every record. -/
theorem attach_cells_append [Host] (rs : Records) (keyword : Text) (above below : List Cell) :
    ((∃ all, rs.attachExpressions (above ++ below) = .ok all) ↔
      (∃ first, rs.attachExpressions above = .ok first) ∧
        ∃ last, rs.attachExpressions below = .ok last) ∧
    ((∃ all, rs.attachTables keyword (above ++ below) = .ok all) ↔
      (∃ first, rs.attachTables keyword above = .ok first) ∧
        ∃ last, rs.attachTables keyword below = .ok last) ∧
    (∀ first last all, rs.attachExpressions above = .ok first →
      rs.attachExpressions below = .ok last → rs.attachExpressions (above ++ below) = .ok all →
      all.names = rs.names ∧ ∀ b ∈ rs.toList, ∃ r₁ r₂ r, first.get? b.name = some r₁ ∧
        last.get? b.name = some r₂ ∧ all.get? b.name = some r ∧
        r₁ = { b with expression := r₁.expression, cellIndex := r₁.cellIndex, line := r₁.line } ∧
        (Assigns below b.name → r = { b with
          expression := r₂.expression
          cellIndex := r₂.cellIndex.map (· + (above.length : Int))
          line := r₂.line }) ∧
        (¬Assigns below b.name → r = r₁)) ∧
    (∀ first last all, rs.attachTables keyword above = .ok first →
      rs.attachTables keyword below = .ok last →
      rs.attachTables keyword (above ++ below) = .ok all →
      all.names = rs.names ∧ ∀ b ∈ rs.toList, b.tableItems = none → ∃ r₁ r₂ r,
        first.get? b.name = some r₁ ∧ last.get? b.name = some r₂ ∧ all.get? b.name = some r ∧
        r₁ = { b with tableItems := r₁.tableItems } ∧
        (r₂.tableItems.isSome → r = { b with tableItems := r₂.tableItems }) ∧
        (r₂.tableItems = none → r = r₁)) := by
  refine ⟨?_, ?_, ?_, ?_⟩
  · simp only [attachExpressions, definitions_append]
    cases definitions above <;> cases definitions below <;> simp [bind, Except.bind]
  · simp only [attachTables, tables_append]
    cases tables keyword above <;> cases tables keyword below <;> simp [bind, Except.bind]
  · intro first last all h₁ h₂ h
    obtain ⟨ds₁, hds₁, rfl⟩ := attachExpressions_eq_ok_iff.1 h₁
    obtain ⟨ds₂, hds₂, rfl⟩ := attachExpressions_eq_ok_iff.1 h₂
    obtain ⟨ds, hds, rfl⟩ := attachExpressions_eq_ok_iff.1 h
    rw [definitions_append, hds₁, hds₂] at hds
    obtain rfl := Except.ok.inj hds
    refine ⟨names_annotate _ _ _, fun b hb => ⟨_, _, _, get?_annotate_of_mem hb,
      get?_annotate_of_mem hb, get?_annotate_of_mem hb, ?_, ?_, ?_⟩⟩
    · rw [defineFrom_eq]
    · rintro ⟨ds, hds, hd⟩
      obtain rfl := Except.ok.inj (hds₂.symm.trans hds)
      rw [defineFrom_append, if_pos hd]
    · intro hnone
      rw [defineFrom_append, if_neg fun hd => hnone ⟨ds₂, hds₂, hd⟩]
  · intro first last all h₁ h₂ h
    obtain ⟨found₁, hfound₁, rfl⟩ := attachTables_eq_ok_iff.1 h₁
    obtain ⟨found₂, hfound₂, rfl⟩ := attachTables_eq_ok_iff.1 h₂
    obtain ⟨found, hfound, rfl⟩ := attachTables_eq_ok_iff.1 h
    rw [tables_append, hfound₁, hfound₂] at hfound
    obtain rfl := Except.ok.inj hfound
    refine ⟨names_annotate _ _ _, fun b hb hbare => ⟨_, _, _, get?_annotate_of_mem hb,
      get?_annotate_of_mem hb, get?_annotate_of_mem hb, ?_, ?_, ?_⟩⟩
    · rw [labelFrom_eq]
    · intro hsome
      rw [labelFrom_append hbare, if_pos hsome]
    · intro hnone
      rw [labelFrom_append hbare, hnone]
      rfl

/-- Assignments of two names, with labels for the second. -/
def upperCells : List Cell := [.ofText .code "x = 1\ny = 2  # table: [\x22b\x22]".toList]

/-- Prose, and an assignment of the first name with labels for it. -/
def lowerCells : List Cell :=
  [.ofText .markdown "x = 2".toList, .ofText .code "# table: [\x22a\x22]\nx = 3".toList]

def bareX : Record := { name := "x".toList, value := "3".toList, type := "int".toList }

def bareY : Record := { name := "y".toList, value := "2".toList, type := "int".toList }

def bare : Records := ofList [bareX, bareY]

theorem attach_cells_append_lowerCells :
    (∃ all, bare.attachExpressions (upperCells ++ lowerCells) = .ok all ∧
      all.get? bareX.name = some { bareX with
        expression := some "3".toList, cellIndex := some 2, line := some 2 } ∧
      all.get? bareY.name = some { bareY with
        expression := some "2".toList, cellIndex := some 0, line := some 2 }) ∧
    ∃ all, bare.attachTables "table".toList (upperCells ++ lowerCells) = .ok all ∧
      all.get? bareX.name = some { bareX with tableItems := some [some "a".toList] } ∧
      all.get? bareY.name = some { bareY with tableItems := some [some "b".toList] } := by
  obtain ⟨hexpressions, htables, hassigned, hlabelled⟩ :=
    attach_cells_append bare "table".toList upperCells lowerCells
  have hX : bareX ∈ bare.toList := by decide
  have hY : bareY ∈ bare.toList := by decide
  constructor
  · obtain ⟨first, hfirst, hfirstY⟩ := map_eq_ok.1 (eq_ok_of_toOption (by decide +kernel :
      ((bare.attachExpressions upperCells).map (·.get? bareY.name)).toOption =
        some (some { bareY with
          expression := some "2".toList, cellIndex := some 0, line := some 2 })))
    obtain ⟨last, hlast, hlastX⟩ := map_eq_ok.1 (eq_ok_of_toOption (by decide +kernel :
      ((bare.attachExpressions lowerCells).map (·.get? bareX.name)).toOption =
        some (some { bareX with
          expression := some "3".toList, cellIndex := some 1, line := some 2 })))
    have hds : definitions lowerCells = .ok [⟨"x".toList, "3".toList, 1, 2⟩] :=
      eq_ok_of_toOption (by decide +kernel)
    obtain ⟨all, hall⟩ := hexpressions.2 ⟨⟨first, hfirst⟩, last, hlast⟩
    obtain ⟨-, hrecords⟩ := hassigned first last all hfirst hlast hall
    refine ⟨all, hall, ?_, ?_⟩
    · obtain ⟨r₁, r₂, r, -, hr₂, hr, -, hbelow, -⟩ := hrecords bareX hX
      rw [hr, hbelow ⟨_, hds, by decide⟩]
      rw [hlastX] at hr₂
      obtain rfl := Option.some.inj hr₂
      rfl
    · obtain ⟨r₁, r₂, r, hr₁, -, hr, -, -, habove⟩ := hrecords bareY hY
      have hnot : ¬Assigns lowerCells bareY.name := by
        rintro ⟨ds, hds', hd⟩
        rw [hds] at hds'
        obtain rfl := Except.ok.inj hds'
        exact absurd hd (by decide)
      rw [hr, habove hnot, ← hr₁, hfirstY]
  · obtain ⟨first, hfirst, hfirstY⟩ := map_eq_ok.1 (eq_ok_of_toOption (by decide +kernel :
      ((bare.attachTables "table".toList upperCells).map (·.get? bareY.name)).toOption =
        some (some { bareY with tableItems := some [some "b".toList] })))
    obtain ⟨last, hlast, hlast'⟩ := map_eq_ok.1 (eq_ok_of_toOption (by decide +kernel :
      ((bare.attachTables "table".toList lowerCells).map fun rs =>
        (rs.get? bareX.name, rs.get? bareY.name)).toOption =
          some (some { bareX with tableItems := some [some "a".toList] }, some bareY)))
    obtain ⟨hlastX, hlastY⟩ := Prod.mk.inj hlast'
    obtain ⟨all, hall⟩ := htables.2 ⟨⟨first, hfirst⟩, last, hlast⟩
    obtain ⟨-, hrecords⟩ := hlabelled first last all hfirst hlast hall
    refine ⟨all, hall, ?_, ?_⟩
    · obtain ⟨r₁, r₂, r, -, hr₂, hr, -, hbelow, -⟩ := hrecords bareX hX rfl
      rw [hlastX] at hr₂
      obtain rfl := Option.some.inj hr₂
      rw [hr, hbelow rfl]
    · obtain ⟨r₁, r₂, r, hr₁, hr₂, hr, -, -, habove⟩ := hrecords bareY hY rfl
      rw [hlastY] at hr₂
      obtain rfl := Option.some.inj hr₂
      rw [hr, habove rfl, ← hr₁, hfirstY]

end Records

end VariableReport
